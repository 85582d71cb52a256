import ChatWire.Text.Decimal

/-! The dates at which cookies expire, in seconds since the beginning of 1970. -/

namespace ChatWire

structure Date where
  year : Int
  month : Nat
  day : Nat
  hour : Nat
  minute : Nat
  second : Nat
  deriving DecidableEq, Repr

namespace Date

def isLeap (year : Int) : Bool := year % 4 = 0 && (year % 100 ≠ 0 || year % 400 = 0)

def daysInMonth (year : Int) (month : Nat) : Nat :=
  match month with
  | 2 => if isLeap year then 29 else 28
  | 4 | 6 | 9 | 11 => 30
  | _ => 31

def isValid (d : Date) : Bool :=
  1 ≤ d.month && d.month ≤ 12 && 1 ≤ d.day && d.day ≤ daysInMonth d.year d.month && d.hour < 24
    && d.minute < 60 && d.second < 60

/-- the days of all years before `year`, counted from the year zero -/
def daysBeforeYear (year : Int) : Int :=
  let y := year - 1
  365 * y + y / 4 - y / 100 + y / 400

def daysBeforeMonth (year : Int) (month : Nat) : Nat :=
  (List.range (month - 1)).foldl (fun days m => days + daysInMonth year (m + 1)) 0

def toSeconds (d : Date) : Int :=
  let days := daysBeforeYear d.year - daysBeforeYear 1970 + daysBeforeMonth d.year d.month + (d.day - 1)
  days * 86400 + (d.hour * 3600 + d.minute * 60 + d.second)

/-! A date is written in one of four ways, each a sequence of pieces. -/

inductive Piece
  | text (s : String)
  | weekday
  | day
  | spacedDay
  | month
  | year
  | shortYear
  | number (set : Nat → Date → Date)

def weekdays : List String := ["Mon", "Tue", "Wed", "Thu", "Fri", "Sat", "Sun"]

def months : List String :=
  ["Jan", "Feb", "Mar", "Apr", "May", "Jun", "Jul", "Aug", "Sep", "Oct", "Nov", "Dec"]

/-- what follows `word`, if the text starts with it -/
def after? (word : String) (s : List Char) : Option (List Char) :=
  let w := word.toList
  if s.take w.length = w then some (s.drop w.length) else none

/-- a number of two digits -/
def twoDigits? (s : List Char) : Option (Nat × List Char) :=
  if s.length < 2 then none else (Decimal.natChars? (s.take 2)).map fun n => (n, s.drop 2)

/-- Years of two digits lie between 1969 and 2068. -/
def fullYear (n : Int) : Int :=
  if 0 ≤ n ∧ n ≤ 68 then n + 2000 else if 69 ≤ n ∧ n ≤ 99 then n + 1900 else n

/-- up to four digits -/
def year? (s : List Char) : Option (Int × List Char) :=
  let digits := (s.takeWhile Decimal.isDigit).take 4
  (Decimal.natChars? digits).map fun n => (fullYear n, s.drop digits.length)

/-- the names of a list, by their place from one on -/
def named? (names : List String) (s : List Char) : Option (Nat × List Char) :=
  names.zipIdx.findSome? fun (name, i) => (after? name s).map fun r => (i + 1, r)

def Piece.read (d : Date) (s : List Char) : Piece → Option (Date × List Char)
  | text w => (after? w s).map fun r => (d, r)
  | weekday => (named? weekdays s).map fun (_, r) => (d, r)
  | day => (twoDigits? s).map fun (n, r) => ({ d with day := n }, r)
  | spacedDay =>
    match s with
    | ' ' :: c :: r => (Decimal.natChars? [c]).map fun n => ({ d with day := n }, r)
    | s => (twoDigits? s).map fun (n, r) => ({ d with day := n }, r)
  | month => (named? months s).map fun (n, r) => ({ d with month := n }, r)
  | year => (year? s).map fun (n, r) => ({ d with year := n }, r)
  | shortYear => (twoDigits? s).map fun (n, r) => ({ d with year := fullYear n }, r)
  | number set => (twoDigits? s).map fun (n, r) => (set n d, r)

def clock : List Piece :=
  [.number fun n d => { d with hour := n }, .text ":", .number fun n d => { d with minute := n },
    .text ":", .number fun n d => { d with second := n }]

def formats : List (List Piece) :=
  [ [.weekday, .text ", ", .day, .text " ", .month, .text " ", .year, .text " "] ++ clock ++ [.text " GMT"],
    [.weekday, .text ", ", .day, .text "-", .month, .text "-", .shortYear, .text " "] ++ clock
      ++ [.text " GMT"],
    [.weekday, .text " ", .month, .text " ", .spacedDay, .text " "] ++ clock ++ [.text " ", .year],
    [.weekday, .text ", ", .day, .text "-", .month, .text "-", .year, .text " "] ++ clock
      ++ [.text " GMT"] ]

/-- the date that a text spells in the given way, with nothing left over -/
def readAs? (format : List Piece) (s : List Char) : Option Date := do
  let (d, rest) ← format.foldlM (fun (d, s) p => p.read d s) (⟨0, 0, 0, 0, 0, 0⟩, s)
  if rest.isEmpty ∧ d.isValid then some d else none

def parse? (s : String) : Option Date := formats.findSome? fun f => readAs? f s.toList

end Date

end ChatWire
