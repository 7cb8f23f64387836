import ClassAtlas.Text.Table.Word
import ClassAtlas.Text.Table.Digit
import ClassAtlas.Text.Table.Unprintable

/-! Character classes: word characters, blanks, decimal digits and printable characters. -/

namespace ClassAtlas.Text

/-- Whether a code point lies in one of the ranges, which stand in increasing order. -/
def inRanges : List (Nat × Nat) → Nat → Bool
  | [], _ => false
  | (lo, hi) :: rest, n => if n ≤ hi then decide (lo ≤ n) else inRanges rest n

/-- Letters, numerals of every kind and the underscore. -/
def isWord (c : Char) : Bool :=
  if c.toNat < 128 then c.isAlphanum || c == '_' else inRanges Table.lettersAndNumerals c.toNat

def blanks : List (Nat × Nat) :=
  [(0x9, 0xd), (0x1c, 0x20), (0x85, 0x85), (0xa0, 0xa0), (0x1680, 0x1680), (0x2000, 0x200a),
   (0x2028, 0x2029), (0x202f, 0x202f), (0x205f, 0x205f), (0x3000, 0x3000)]

/-- Spaces, tabs, line ends and separators of every script. -/
def isBlank (c : Char) : Bool := inRanges blanks c.toNat

/-- The value of a decimal digit of any script. -/
def digitValue? (c : Char) : Option Nat :=
  (Table.decimalDigits.find? fun (lo, hi) => lo ≤ c.toNat && c.toNat ≤ hi).map
    fun (lo, _) => (c.toNat - lo) % 10

def isPrintable (c : Char) : Bool := !inRanges Table.unprintable c.toNat

end ClassAtlas.Text
