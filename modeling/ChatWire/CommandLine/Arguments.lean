import ChatWire.Text.Decimal

/-! What the arguments of the program ask for. Arguments are read from left to right, and the first that is
wrong, or that asks for help, decides. -/

namespace ChatWire.CommandLine

inductive Command
  | listen (config : Option String) (selfListen noRetry : Bool)
  | sign (callType : String) (params : List String)
  | zcid (imei : String) (apiType : Nat) (launchTime : Option Int)
  deriving DecidableEq, Repr

/-- what help is given about -/
inductive Topic
  | program
  | listen
  | sign
  | zcid
  | help
  deriving DecidableEq, Repr

/-- What comes of the arguments: a command, help, the version, or nothing. -/
inductive Invocation
  | run (c : Command)
  | help (t : Topic)
  | version
  | misuse
  deriving DecidableEq, Repr

/-! One argument. -/

/-- An argument as it is written: a long option, with a value if there is an `=`; a short one; the mark after
which there are no options; or a plain word. -/
inductive Shape
  | long (name : String) (value : Option String)
  | short (letter : Char)
  | mark
  | word (text : String)
  deriving DecidableEq, Repr

def longShape (body : List Char) : Shape :=
  let name := body.takeWhile (· != '=')
  .long (String.ofList name)
    (if name.length < body.length then some (String.ofList (body.drop (name.length + 1))) else none)

/-- A lone dash is a word. -/
def shape (arg : String) : Shape :=
  match arg.toList with
  | ['-', '-'] => .mark
  | '-' :: '-' :: body => longShape body
  | '-' :: c :: _ => .short c
  | _ => .word arg

/-! The options of a command. -/

/-- Whether an option is given alone or with a value, which `reads` may refuse. -/
inductive Takes (σ : Type)
  | nothing (set : σ → σ)
  | value (read : String → Option (σ → σ))

structure Opt (σ : Type) where
  name : String
  takes : Takes σ

variable {σ : Type}

/-- Words go to `word`, which may refuse them. -/
structure Grammar (σ : Type) where
  topic : Topic
  options : List (Opt σ)
  word : Option (String → σ → σ)

/-- Why no state comes of some arguments. -/
inductive Halt
  | help
  | misuse
  deriving DecidableEq, Repr

def takeWord (g : Grammar σ) (text : String) (s : σ) : Except Halt σ :=
  match g.word with
  | some put => .ok (put text s)
  | none => .error .misuse

/-- Words after the mark. -/
def takeWords (g : Grammar σ) : List String → σ → Except Halt σ
  | [], s => .ok s
  | a :: r, s => do takeWords g r (← takeWord g a s)

def setValue (read : String → Option (σ → σ)) (text : String) (s : σ) : Except Halt σ :=
  match read text with
  | some set => .ok (set s)
  | none => .error .misuse

/-- `seen` are the options met so far; none may be given twice. A value that begins with a dash must stand
after an `=`. -/
def takeArguments (g : Grammar σ) : List String → List String → σ → Except Halt σ
  | _, [], s => .ok s
  | seen, a :: r, s =>
    match shape a with
    | .mark => takeWords g r s
    | .word text => do takeArguments g seen r (← takeWord g text s)
    | .short c => .error (if c = 'h' then .help else .misuse)
    | .long name value =>
      if name = "help" ∧ value = none then .error .help
      else if seen.contains name then .error .misuse
      else
        match g.options.find? fun o => o.name == name with
        | none => .error .misuse
        | some ⟨_, .nothing set⟩ =>
          if value.isSome then .error .misuse else takeArguments g (name :: seen) r (set s)
        | some ⟨_, .value read⟩ =>
          match value, r with
          | some text, r => do takeArguments g (name :: seen) r (← setValue read text s)
          | none, text :: r =>
            match shape text with
            | .word _ => do takeArguments g (name :: seen) r (← setValue read text s)
            | _ => .error .misuse
          | none, [] => .error .misuse

/-! The commands. -/

structure ListenArguments where
  config : Option String
  selfListen : Bool
  noRetry : Bool

/-- A path is not empty. -/
def readPath (text : String) : Option String := if text.isEmpty then none else some text

def listenGrammar : Grammar ListenArguments where
  topic := .listen
  options :=
    [⟨"config", .value fun t => (readPath t).map fun p s => { s with config := some p }⟩,
      ⟨"self-listen", .nothing fun s => { s with selfListen := true }⟩,
      ⟨"no-retry", .nothing fun s => { s with noRetry := true }⟩]
  word := none

structure SignArguments where
  callType : Option String
  params : List String

def signGrammar : Grammar SignArguments where
  topic := .sign
  options := [⟨"type", .value fun t => some fun s => { s with callType := some t }⟩]
  word := some fun t s => { s with params := s.params ++ [t] }

structure ZcidArguments where
  imei : Option String
  apiType : Nat
  launchTime : Option Int

/-- the interface that a token is for unless another is given -/
def defaultApiType : Nat := 30

def readNat32 (text : String) : Option Nat :=
  match Decimal.int64? text with
  | some n => if 0 ≤ n ∧ n < UInt32.size then some n.toNat else none
  | none => none

def zcidGrammar : Grammar ZcidArguments where
  topic := .zcid
  options :=
    [⟨"imei", .value fun t => some fun s => { s with imei := some t }⟩,
      ⟨"api-type", .value fun t => (readNat32 t).map fun n s => { s with apiType := n }⟩,
      ⟨"launch-time", .value fun t => (Decimal.int64? t).map fun n s => { s with launchTime := some n }⟩]
  word := none

/-- Reads the arguments of a command and makes it from them. -/
def commandOf (g : Grammar σ) (start : σ) (make : σ → Option Command) (args : List String) : Invocation :=
  match takeArguments g [] args start with
  | .error .help => .help g.topic
  | .error .misuse => .misuse
  | .ok s =>
    match make s with
    | some c => .run c
    | none => .misuse

/-- Topics by the names of the commands. -/
def topicOf : String → Option Topic
  | "listen" => some .listen
  | "sign" => some .sign
  | "zcid" => some .zcid
  | "help" => some .help
  | _ => none

/-- What the arguments after `help` ask about; commands have no commands of their own. -/
def helpOf : List String → Invocation
  | [] => .help .program
  | [name] =>
    match topicOf name with
    | some t => .help t
    | none => .misuse
  | _ => .misuse

def invocation : List String → Invocation
  | [] => .misuse
  | "listen" :: args =>
    commandOf listenGrammar ⟨none, false, false⟩
      (fun s => some (.listen s.config s.selfListen s.noRetry)) args
  | "sign" :: args =>
    commandOf signGrammar ⟨none, []⟩ (fun s => s.callType.map fun t => .sign t s.params) args
  | "zcid" :: args =>
    commandOf zcidGrammar ⟨none, defaultApiType, none⟩
      (fun s => s.imei.map fun i => .zcid i s.apiType s.launchTime) args
  | "help" :: args => helpOf args
  | a :: _ =>
    match shape a with
    | .long "help" none | .short 'h' => .help .program
    | .long "version" none | .short 'V' => .version
    | _ => .misuse

end ChatWire.CommandLine
