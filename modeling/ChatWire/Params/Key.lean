import ChatWire.Bytes.Hex
import ChatWire.Digest.Md5
import ChatWire.Params.Error

/-! What is made of parameters by a digest: signatures over the values of a list, and the key of a request. -/

/-! Signatures over the values of a parameter list. -/

namespace ChatWire.Signature

def start : String := "zsecure"

/-- Pairs by name, those of one name in their given order. -/
def arrange (pairs : List (String × String)) : List (String × String) :=
  pairs.mergeSort fun a b => !decide (b.1 < a.1)

/-- The digest of a fixed text, the type of the call, and the values by name. -/
def sign (call : String) (pairs : List (String × String)) : String :=
  let text := start ++ call ++ String.join ((arrange pairs).map Prod.snd)
  Hex.encode (Md5.digest (Text.toBytes text))

end ChatWire.Signature

/-! The key of a request, woven from a random extension and the device token: eight characters of the
extension's digest, then the token's characters at even places, then those at odd places backwards. -/

namespace ChatWire.RequestKey

mutual

/-- the elements at places 0, 2, 4, … -/
def evens {α : Type} : List α → List α
  | [] => []
  | a :: r => a :: odds r

/-- the elements at places 1, 3, 5, … -/
def odds {α : Type} : List α → List α
  | [] => []
  | _ :: r => evens r

end

/-- Characters are counted, not bytes. -/
def derive (extension token : String) : Except ParamsError String :=
  if extension.isEmpty then .error (.missing .extension)
  else
    let digest := Hex.encodeUpperChars (Md5.digest (Text.toBytes extension))
    let even := evens token.toList
    let odd := odds token.toList
    if even.length < 12 ∨ odd.length < 12 then .error .tokenTooShort
    else .ok (String.ofList ((evens digest).take 8 ++ even.take 12 ++ (odd.take 12).reverse))

def minExtension : Nat := 6

def maxExtension : Nat := 12

/-- An extension as it is drawn at random: some lower-case hexadecimal digits. -/
def isExtension (s : String) : Bool :=
  minExtension ≤ s.length && s.length ≤ maxExtension && s.toList.all fun c =>
    ('0' ≤ c && c ≤ '9') || ('a' ≤ c && c ≤ 'f')

/-- The extension that random bytes give, one more than the longest has digits: the first byte says how many
digits there are. -/
def drawExtension (random : Bytes) : String :=
  match random with
  | [] => ""
  | n :: r =>
    String.ofList
      ((r.take (minExtension + n.toNat % (maxExtension - minExtension + 1))).map fun b =>
        (b.toNat % 16).digitChar)

end ChatWire.RequestKey
