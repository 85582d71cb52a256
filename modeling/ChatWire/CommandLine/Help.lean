import ChatWire.CommandLine.Arguments

/-! The help texts of the program. -/

namespace ChatWire.CommandLine

def programName : String := "zwire"

def versionText : String := programName ++ " 0.1.0"

def programHelp : List String :=
  ["Realtime socket client for a private IM wire protocol", "", "Usage: zwire <COMMAND>", "", "Commands:",
    "  listen  Connect and print decoded events until Ctrl-C",
    "  sign    Print the signkey for a parameter set",
    "  zcid    Print a device identifier token and a freshly derived request key",
    "  help    Print this message or the help of the given subcommand(s)", "", "Options:",
    "  -h, --help     Print help", "  -V, --version  Print version"]

def listenHelp : List String :=
  ["Connect and print decoded events until Ctrl-C", "", "Usage: zwire listen [OPTIONS]", "", "Options:",
    "      --config <CONFIG>  Config file (defaults to <config dir>/zwire/config.json)",
    "      --self-listen      Also print events sent from this account",
    "      --no-retry         Stop after the first disconnect instead of retrying",
    "  -h, --help             Print help"]

def signHelp : List String :=
  ["Print the signkey for a parameter set", "", "Usage: zwire sign --type <CALL_TYPE> [PARAMS]...", "",
    "Arguments:", "  [PARAMS]...  Parameters as key=value", "", "Options:",
    "      --type <CALL_TYPE>  Call type prefix (e.g. \"getlastmsgs\")",
    "  -h, --help              Print help"]

def zcidHelp : List String :=
  ["Print a device identifier token and a freshly derived request key", "",
    "Usage: zwire zcid [OPTIONS] --imei <IMEI>", "", "Options:",
    "      --imei <IMEI>                Device IMEI",
    "      --api-type <API_TYPE>        API type [default: 30]",
    "      --launch-time <LAUNCH_TIME>  First launch time in milliseconds (defaults to now)",
    "  -h, --help                       Print help"]

def helpHelp : List String :=
  ["Print this message or the help of the given subcommand(s)", "", "Usage: zwire help [COMMAND]...", "",
    "Arguments:", "  [COMMAND]...  Print help for the subcommand(s)"]

def Topic.text : Topic → List String
  | program => programHelp
  | listen => listenHelp
  | sign => signHelp
  | zcid => zcidHelp
  | help => helpHelp

end ChatWire.CommandLine
