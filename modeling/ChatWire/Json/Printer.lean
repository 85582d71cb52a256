import ChatWire.Json.Value

/-! JSON text as it is written: no blanks, and only those characters escaped that have to be. -/

namespace ChatWire

def Number.toChars : Number → List Char
  | .int n => (toString n).toList
  | .float x => x.toChars

namespace Json

def hexDigit (n : Nat) : Char := if n < 10 then Char.ofNat (48 + n) else Char.ofNat (87 + n)

def escapeChar (c : Char) : List Char :=
  if c = '"' then ['\\', '"']
  else if c = '\\' then ['\\', '\\']
  else if c = '\n' then ['\\', 'n']
  else if c = '\r' then ['\\', 'r']
  else if c = '\t' then ['\\', 't']
  else if c = '\x08' then ['\\', 'b']
  else if c = '\x0c' then ['\\', 'f']
  else if c.toNat < 32 then ['\\', 'u', '0', '0', hexDigit (c.toNat / 16), hexDigit (c.toNat % 16)]
  else [c]

def quote (s : String) : List Char := '"' :: (s.toList.flatMap escapeChar ++ ['"'])

mutual

def toChars : Json → List Char
  | .null => ['n', 'u', 'l', 'l']
  | .bool true => ['t', 'r', 'u', 'e']
  | .bool false => ['f', 'a', 'l', 's', 'e']
  | .num n => n.toChars
  | .str s => quote s
  | .arr [] => ['[', ']']
  | .arr (j :: r) => '[' :: (j.toChars ++ itemsToChars r)
  | .obj [] => ['{', '}']
  | .obj ((k, j) :: r) => '{' :: (quote k ++ ':' :: (j.toChars ++ fieldsToChars r))

def itemsToChars : List Json → List Char
  | [] => [']']
  | j :: r => ',' :: (j.toChars ++ itemsToChars r)

def fieldsToChars : List (String × Json) → List Char
  | [] => ['}']
  | (k, j) :: r => ',' :: (quote k ++ ':' :: (j.toChars ++ fieldsToChars r))

end

def render (j : Json) : String := String.ofList j.toChars

/-- An object whose fields keep the order in which they are given. -/
def renderInOrder (fields : List (String × Json)) : String := render (.obj fields)

end Json

end ChatWire
