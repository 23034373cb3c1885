import Mathlib.Data.List.Basic

/-! The regular expressions that log rules are written in: literals, classes of
characters, their repetition, sequence and choice. A pattern is searched for
anywhere in a line. The classes are those of Python's `re` on text. -/

namespace GpuNodeHealth.Text

/-- What is asked of the characters of a text is tried on these, not on all characters. -/
instance (priority := high) decidableForallMem {p : Char → Prop} [DecidablePred p] (text : List Char) :
    Decidable (∀ c ∈ text, p c) := List.decidableBAll p text

inductive Pattern where
  | lit (s : String)
  | cls (p : Char → Bool)
  | many (p : Char → Bool)
  | seq (a b : Pattern)
  | alt (a b : Pattern)

namespace Pattern

instance : Coe String Pattern := ⟨.lit⟩

instance : Append Pattern := ⟨.seq⟩

/-- What may be left of a text after as many characters of the class as one likes. -/
def manyRests (p : Char → Bool) : List Char → List (List Char)
  | [] => [[]]
  | c :: rest => if p c then (c :: rest) :: manyRests p rest else [c :: rest]

/-- What may be left of a text after a match at its start. -/
def rests : Pattern → List Char → List (List Char)
  | lit s, text => if s.toList.isPrefixOf text then [text.drop s.toList.length] else []
  | cls _, [] => []
  | cls p, c :: rest => if p c then [rest] else []
  | many p, text => manyRests p text
  | seq a b, text => (a.rests text).flatMap b.rests
  | alt a b, text => a.rests text ++ b.rests text

/-- `re.search`: there is a match somewhere in the text. -/
def search (pattern : Pattern) (text : List Char) : Bool := text.tails.any fun t => !(pattern.rests t).isEmpty

/-! ### Classes of characters -/

/-- The zeros of the decimal digits of Unicode; each starts ten in a row. -/
def decimalZeros : List ℕ :=
  [0x30, 0x660, 0x6f0, 0x7c0, 0x966, 0x9e6, 0xa66, 0xae6, 0xb66, 0xbe6, 0xc66, 0xce6, 0xd66, 0xde6, 0xe50,
    0xed0, 0xf20, 0x1040, 0x1090, 0x17e0, 0x1810, 0x1946, 0x19d0, 0x1a80, 0x1a90, 0x1b50, 0x1bb0, 0x1c40,
    0x1c50, 0xa620, 0xa8d0, 0xa900, 0xa9d0, 0xa9f0, 0xaa50, 0xabf0, 0xff10, 0x104a0, 0x10d30, 0x11066,
    0x110f0, 0x11136, 0x111d0, 0x112f0, 0x11450, 0x114d0, 0x11650, 0x116c0, 0x11730, 0x118e0, 0x11950,
    0x11c50, 0x11d50, 0x11da0, 0x11f50, 0x16a60, 0x16ac0, 0x16b50, 0x1d7ce, 0x1d7d8, 0x1d7e2, 0x1d7ec,
    0x1d7f6, 0x1e140, 0x1e2f0, 0x1e4f0, 0x1e950, 0x1fbf0]

def isDecimal (c : Char) : Bool := decimalZeros.any fun z => z ≤ c.toNat && c.toNat < z + 10

def isSpace (c : Char) : Bool :=
  (9 ≤ c.toNat && c.toNat ≤ 13) || (28 ≤ c.toNat && c.toNat ≤ 32) || (0x2000 ≤ c.toNat && c.toNat ≤ 0x200a) ||
    c.toNat ∈ [0x85, 0xa0, 0x1680, 0x2028, 0x2029, 0x202f, 0x205f, 0x3000]

/-- One or more of a class. -/
def some (p : Char → Bool) : Pattern := cls p ++ many p

/-- `\d+` -/
def digits : Pattern := some isDecimal

/-- `\S+` -/
def nonSpaces : Pattern := some (!isSpace ·)

/-- `.*` -/
def anything : Pattern := many (· ≠ '\n')

end Pattern

end GpuNodeHealth.Text
