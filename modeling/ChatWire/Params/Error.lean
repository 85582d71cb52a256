import ChatWire.Cipher.Error

/-! Why request parameters cannot be made. -/

namespace ChatWire

/-- an identifier that must not be empty, zero or negative -/
inductive Identifier
  | apiType
  | imei
  | launchTime
  | extension
  deriving DecidableEq, Repr

/-- what is being sealed -/
inductive Sealing
  | token
  | body
  deriving DecidableEq, Repr

inductive ParamsError
  | missing (what : Identifier)
  | tokenTooShort
  | cipher (what : Sealing) (error : CipherError)
  deriving DecidableEq, Repr

def Identifier.name : Identifier → String
  | apiType => "api_type"
  | imei => "imei"
  | launchTime => "first_launch_time"
  | extension => "zcid_ext"

def Sealing.name : Sealing → String
  | token => "create_zcid"
  | body => "encrypt_body"

def ParamsError.message : ParamsError → String
  | missing i => "missing required parameter: " ++ i.name
  | tokenTooShort => "cannot derive request key: device identifier token too short"
  | cipher s e => s.name ++ ": " ++ e.message

end ChatWire
