/-! How domain names fold letters before they are looked up: capitals to small letters, and letters that only
look different to plain ones. The tables hold the Latin, Greek, Cyrillic and Armenian letters. -/

namespace ChatWire

/-- The characters from `first` to `last`, `step` apart, fold to those `shift` further on. -/
structure Folding where
  first : Nat
  last : Nat
  step : Nat
  shift : Int
  deriving Repr

namespace Folding

def covers (f : Folding) (n : Nat) : Bool := f.first ≤ n && n ≤ f.last && (n - f.first) % f.step == 0

def letters : List Folding :=
  [⟨0xaa, 0xaa, 1, -73⟩, ⟨0xb2, 0xb3, 1, -128⟩, ⟨0xb5, 0xb5, 1, 775⟩, ⟨0xb9, 0xb9, 1, -136⟩,
    ⟨0xba, 0xba, 1, -75⟩, ⟨0xc0, 0xd6, 1, 32⟩, ⟨0xd8, 0xde, 1, 32⟩, ⟨0x100, 0x12e, 2, 1⟩,
    ⟨0x134, 0x136, 2, 1⟩, ⟨0x139, 0x13d, 2, 1⟩, ⟨0x141, 0x147, 2, 1⟩, ⟨0x14a, 0x176, 2, 1⟩,
    ⟨0x178, 0x178, 1, -121⟩, ⟨0x179, 0x17d, 2, 1⟩, ⟨0x17f, 0x17f, 1, -268⟩, ⟨0x181, 0x181, 1, 210⟩,
    ⟨0x182, 0x184, 2, 1⟩, ⟨0x186, 0x186, 1, 206⟩, ⟨0x187, 0x187, 1, 1⟩, ⟨0x189, 0x18a, 1, 205⟩,
    ⟨0x18b, 0x18b, 1, 1⟩, ⟨0x18e, 0x18e, 1, 79⟩, ⟨0x18f, 0x18f, 1, 202⟩, ⟨0x190, 0x190, 1, 203⟩,
    ⟨0x191, 0x191, 1, 1⟩, ⟨0x193, 0x193, 1, 205⟩, ⟨0x194, 0x194, 1, 207⟩, ⟨0x196, 0x196, 1, 211⟩,
    ⟨0x197, 0x197, 1, 209⟩, ⟨0x198, 0x198, 1, 1⟩, ⟨0x19c, 0x19c, 1, 211⟩, ⟨0x19d, 0x19d, 1, 213⟩,
    ⟨0x19f, 0x19f, 1, 214⟩, ⟨0x1a0, 0x1a4, 2, 1⟩, ⟨0x1a6, 0x1a6, 1, 218⟩, ⟨0x1a7, 0x1a7, 1, 1⟩,
    ⟨0x1a9, 0x1a9, 1, 218⟩, ⟨0x1ac, 0x1ac, 1, 1⟩, ⟨0x1ae, 0x1ae, 1, 218⟩, ⟨0x1af, 0x1af, 1, 1⟩,
    ⟨0x1b1, 0x1b2, 1, 217⟩, ⟨0x1b3, 0x1b5, 2, 1⟩, ⟨0x1b7, 0x1b7, 1, 219⟩, ⟨0x1b8, 0x1b8, 1, 1⟩,
    ⟨0x1bc, 0x1bc, 1, 1⟩, ⟨0x1cd, 0x1db, 2, 1⟩, ⟨0x1de, 0x1ee, 2, 1⟩, ⟨0x1f4, 0x1f4, 1, 1⟩,
    ⟨0x1f6, 0x1f6, 1, -97⟩, ⟨0x1f7, 0x1f7, 1, -56⟩, ⟨0x1f8, 0x21e, 2, 1⟩, ⟨0x220, 0x220, 1, -130⟩,
    ⟨0x222, 0x232, 2, 1⟩, ⟨0x23a, 0x23a, 1, 10795⟩, ⟨0x23b, 0x23b, 1, 1⟩, ⟨0x23d, 0x23d, 1, -163⟩,
    ⟨0x23e, 0x23e, 1, 10792⟩, ⟨0x241, 0x241, 1, 1⟩, ⟨0x243, 0x243, 1, -195⟩, ⟨0x244, 0x244, 1, 69⟩,
    ⟨0x245, 0x245, 1, 71⟩, ⟨0x246, 0x24e, 2, 1⟩, ⟨0x2b0, 0x2b0, 1, -584⟩, ⟨0x2b1, 0x2b1, 1, -75⟩,
    ⟨0x2b2, 0x2b2, 1, -584⟩, ⟨0x2b3, 0x2b3, 1, -577⟩, ⟨0x2b4, 0x2b4, 1, -59⟩, ⟨0x2b5, 0x2b5, 1, -58⟩,
    ⟨0x2b6, 0x2b6, 1, -53⟩, ⟨0x2b7, 0x2b7, 1, -576⟩, ⟨0x2b8, 0x2b8, 1, -575⟩, ⟨0x2e0, 0x2e0, 1, -125⟩,
    ⟨0x2e1, 0x2e1, 1, -629⟩, ⟨0x2e2, 0x2e2, 1, -623⟩, ⟨0x2e3, 0x2e3, 1, -619⟩, ⟨0x2e4, 0x2e4, 1, -79⟩,
    ⟨0x340, 0x341, 1, -64⟩, ⟨0x343, 0x343, 1, -48⟩, ⟨0x345, 0x345, 1, 116⟩, ⟨0x370, 0x372, 2, 1⟩,
    ⟨0x374, 0x374, 1, -187⟩, ⟨0x376, 0x376, 1, 1⟩, ⟨0x37e, 0x37e, 1, -835⟩, ⟨0x37f, 0x37f, 1, 116⟩,
    ⟨0x386, 0x386, 1, 38⟩, ⟨0x387, 0x387, 1, -720⟩, ⟨0x388, 0x38a, 1, 37⟩, ⟨0x38c, 0x38c, 1, 64⟩,
    ⟨0x38e, 0x38f, 1, 63⟩, ⟨0x391, 0x3a1, 1, 32⟩, ⟨0x3a3, 0x3ab, 1, 32⟩, ⟨0x3cf, 0x3cf, 1, 8⟩,
    ⟨0x3d0, 0x3d0, 1, -30⟩, ⟨0x3d1, 0x3d1, 1, -25⟩, ⟨0x3d2, 0x3d2, 1, -13⟩, ⟨0x3d3, 0x3d3, 1, -6⟩,
    ⟨0x3d4, 0x3d4, 1, -9⟩, ⟨0x3d5, 0x3d5, 1, -15⟩, ⟨0x3d6, 0x3d6, 1, -22⟩, ⟨0x3d8, 0x3ee, 2, 1⟩,
    ⟨0x3f0, 0x3f0, 1, -54⟩, ⟨0x3f1, 0x3f1, 1, -48⟩, ⟨0x3f2, 0x3f2, 1, -47⟩, ⟨0x3f4, 0x3f4, 1, -60⟩,
    ⟨0x3f5, 0x3f5, 1, -64⟩, ⟨0x3f7, 0x3f7, 1, 1⟩, ⟨0x3f9, 0x3f9, 1, -54⟩, ⟨0x3fa, 0x3fa, 1, 1⟩,
    ⟨0x3fd, 0x3ff, 1, -130⟩, ⟨0x400, 0x40f, 1, 80⟩, ⟨0x410, 0x42f, 1, 32⟩, ⟨0x460, 0x480, 2, 1⟩,
    ⟨0x48a, 0x4be, 2, 1⟩, ⟨0x4c0, 0x4c0, 1, 15⟩, ⟨0x4c1, 0x4cd, 2, 1⟩, ⟨0x4d0, 0x52e, 2, 1⟩,
    ⟨0x531, 0x556, 1, 48⟩, ⟨0x1e00, 0x1e94, 2, 1⟩, ⟨0x1e9b, 0x1e9b, 1, -58⟩, ⟨0x1e9e, 0x1e9e, 1, -7615⟩,
    ⟨0x1ea0, 0x1efe, 2, 1⟩]

/-- letters that fold to several -/
def ligatures : List (Nat × List Nat) :=
  [(0xbc, [0x31, 0x2044, 0x34]), (0xbd, [0x31, 0x2044, 0x32]), (0xbe, [0x33, 0x2044, 0x34]),
    (0x130, [0x69, 0x307]), (0x132, [0x69, 0x6a]), (0x133, [0x69, 0x6a]), (0x13f, [0x6c, 0xb7]),
    (0x140, [0x6c, 0xb7]), (0x149, [0x2bc, 0x6e]), (0x1c4, [0x64, 0x17e]), (0x1c5, [0x64, 0x17e]),
    (0x1c6, [0x64, 0x17e]), (0x1c7, [0x6c, 0x6a]), (0x1c8, [0x6c, 0x6a]), (0x1c9, [0x6c, 0x6a]),
    (0x1ca, [0x6e, 0x6a]), (0x1cb, [0x6e, 0x6a]), (0x1cc, [0x6e, 0x6a]), (0x1f1, [0x64, 0x7a]),
    (0x1f2, [0x64, 0x7a]), (0x1f3, [0x64, 0x7a]), (0x344, [0x308, 0x301]), (0x587, [0x565, 0x582]),
    (0x1e9a, [0x61, 0x2be])]

/-- full stops of other scripts -/
def stops : List Nat := [0x3002, 0xff0e, 0xff61]

def small (n : Nat) : Nat := if 0x41 ≤ n ∧ n ≤ 0x5a then n + 32 else n

/-- What a character folds to; wide characters fold to those of ordinary width. -/
def fold (c : Char) : List Char :=
  let n := c.toNat
  if n < 0x80 then [Char.ofNat (small n)]
  else if stops.contains n then ['.']
  else if 0xff01 ≤ n ∧ n ≤ 0xff5e then [Char.ofNat (small (n - 0xfee0))]
  else
    match ligatures.lookup n with
    | some l => l.map Char.ofNat
    | none =>
      match letters.find? fun f => f.covers n with
      | some f => [Char.ofNat (n + f.shift).toNat]
      | none => [c]

end Folding

end ChatWire
