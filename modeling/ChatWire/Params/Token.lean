import ChatWire.Cipher.Cbc
import ChatWire.Params.Error

/-! The token that identifies a device: its type, its number and its first launch, sealed under a fixed
key and written in upper-case hexadecimal. -/

namespace ChatWire

structure Device where
  apiType : Nat
  imei : String
  launch : Int
  deriving DecidableEq, Repr

namespace Device

/-- The first of the three parts that is empty, zero or not positive. -/
def missing? (d : Device) : Option Identifier :=
  if d.apiType = 0 then some .apiType
  else if d.imei.isEmpty then some .imei
  else if d.launch ≤ 0 then some .launchTime
  else none

/-- the text that is sealed -/
def text (d : Device) : String := toString d.apiType ++ "," ++ d.imei ++ "," ++ toString d.launch

def tokenKey : String := "3FC4F0D2AB50057BCE0D90D9187A22B1"

def token (d : Device) : Except ParamsError String :=
  match d.missing? with
  | some i => .error (.missing i)
  | none =>
    match Cbc.encrypt (Text.toBytes tokenKey) (Text.toBytes d.text) with
    | .ok b => .ok (Hex.encodeUpper b)
    | .error e => .error (.cipher .token e)

end Device

end ChatWire
