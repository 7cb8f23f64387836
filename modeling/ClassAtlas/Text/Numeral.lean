import ClassAtlas.Text.Pieces

/-! Reading and writing whole numbers. -/

namespace ClassAtlas.Text

/-- Digits with single underscores between them, after `read` has been read. -/
def digitsFrom (read : Nat) : List Char → Option Nat
  | [] => some read
  | '_' :: c :: rest =>
    match digitValue? c with
    | some d => digitsFrom (read * 10 + d) rest
    | none => none
  | c :: rest =>
    match digitValue? c with
    | some d => digitsFrom (read * 10 + d) rest
    | none => none

def natOfChars? : List Char → Option Nat
  | [] => none
  | c :: rest =>
    match digitValue? c with
    | some d => digitsFrom d rest
    | none => none

/-- Blanks other than the four information separators. -/
def isPadding (c : Char) : Bool := isBlank c && !(0x1c ≤ c.toNat && c.toNat ≤ 0x1f)

def unpadded (text : List Char) : List Char :=
  ((text.dropWhile isPadding).reverse.dropWhile isPadding).reverse

/-- A whole number in decimal digits of any script, with an optional sign, single underscores
between the digits and padding around it. -/
def int? (s : String) : Option Int :=
  match unpadded s.toList with
  | '+' :: rest => (natOfChars? rest).map Int.ofNat
  | '-' :: rest => (natOfChars? rest).map fun n => -Int.ofNat n
  | rest => (natOfChars? rest).map Int.ofNat

/-- The lowest hexadecimal digits of a number, `width` of them. -/
def hexDigits (width n : Nat) : List Char :=
  (List.range width).reverse.map fun i => Nat.digitChar (n / Nat.pow 16 i % 16)

def hexValue? (c : Char) : Option Nat :=
  if '0' ≤ c && c ≤ '9' then some (c.toNat - '0'.toNat)
  else if 'a' ≤ c && c ≤ 'f' then some (c.toNat - 'a'.toNat + 10)
  else if 'A' ≤ c && c ≤ 'F' then some (c.toNat - 'A'.toNat + 10)
  else none

end ClassAtlas.Text
