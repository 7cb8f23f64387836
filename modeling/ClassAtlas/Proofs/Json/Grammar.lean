import ClassAtlas.Json.Value
import Mathlib.Data.Nat.Digits.Defs

/-! The standard grammar of JSON texts: which text spells which value. A text may hold white space
between its tokens, a string may spell a character in several ways, and a number is a whole number
unless it has a fraction or an exponent. -/

namespace ClassAtlas.Json

/-- White space between tokens. -/
def Space (text : List Char) : Prop := ∀ ch ∈ text, ch ∈ [' ', '\t', '\n', '\r']

theorem space_nil : Space [] := by simp [Space]

/-! ### Strings -/

def HexDigit (ch : Char) (d : Nat) : Prop :=
  "0123456789abcdef".toList[d]? = some ch ∨ "0123456789ABCDEF".toList[d]? = some ch

/-- A unit of UTF-16, in four hexadecimal digits. -/
inductive UnitText : List Char → Nat → Prop where
  | digits {a b c d : Char} {i j k l : Nat} (ha : HexDigit a i) (hb : HexDigit b j)
      (hc : HexDigit c k) (hd : HexDigit d l) :
      UnitText [a, b, c, d] (i * 16 ^ 3 + j * 16 ^ 2 + k * 16 + l)

/-- The letters of short escapes, and the characters they stand for. -/
def shortEscapes : List (Char × Char) :=
  [('"', '"'), ('\\', '\\'), ('/', '/'), ('b', '\x08'), ('f', '\x0c'), ('n', '\n'), ('r', '\r'),
   ('t', '\t')]

/-- A character between the quotes of a string. A surrogate that stands alone spells none. -/
inductive CharText : List Char → Char → Prop where
  | plain {ch : Char} (hcontrol : 0x20 ≤ ch.toNat) (hquote : ch ≠ '"') (hbackslash : ch ≠ '\\') :
      CharText [ch] ch
  | short {letter ch : Char} (h : (letter, ch) ∈ shortEscapes) : CharText ['\\', letter] ch
  | unit {text : List Char} {n : Nat} (h : UnitText text n) (hscalar : n < 0xd800 ∨ 0xe000 ≤ n) :
      CharText ('\\' :: 'u' :: text) (Char.ofNat n)
  | pair {first second : List Char} {high low : Nat} (hfirst : UnitText first high)
      (hsecond : UnitText second low) (hhigh : 0xd800 ≤ high ∧ high < 0xdc00)
      (hlow : 0xdc00 ≤ low ∧ low < 0xe000) :
      CharText ('\\' :: 'u' :: first ++ '\\' :: 'u' :: second)
        (Char.ofNat (0x10000 + (high - 0xd800) * 0x400 + (low - 0xdc00)))

inductive CharsText : List Char → List Char → Prop where
  | nil : CharsText [] []
  | cons {t text : List Char} {ch : Char} {chars : List Char} (hfirst : CharText t ch)
      (hrest : CharsText text chars) : CharsText (t ++ text) (ch :: chars)

/-- A string with its quotes. -/
inductive StringText : List Char → String → Prop where
  | quoted {text : List Char} {s : String} (h : CharsText text s.toList) :
      StringText ('"' :: text ++ ['"']) s

/-! ### Numbers -/

def Digits (text : List Char) : Prop := text ≠ [] ∧ ∀ ch ∈ text, ch.isDigit = true

/-- The parts of a number; a zero that starts it stands alone before the point. -/
structure Numeral where
  negative : Bool
  whole : List Char
  fraction : List Char
  exponent : List Char
  whole_digits : Digits whole
  whole_zero : whole.head? = some '0' → whole = ['0']
  fraction_digits : fraction = [] ∨ ∃ ds, fraction = '.' :: ds ∧ Digits ds
  exponent_digits : exponent = [] ∨ ∃ e sign ds, exponent = e :: (sign ++ ds) ∧ e ∈ ['e', 'E'] ∧
    sign ∈ [[], ['+'], ['-']] ∧ Digits ds

namespace Numeral

def sign (n : Numeral) : List Char := if n.negative then ['-'] else []

def text (n : Numeral) : List Char := n.sign ++ (n.whole ++ (n.fraction ++ n.exponent))

def magnitude (n : Numeral) : Nat :=
  Nat.ofDigits 10 (n.whole.reverse.map fun ch => ch.toNat - '0'.toNat)

def value (n : Numeral) : Json :=
  if n.fraction = [] ∧ n.exponent = [] then int (if n.negative then -n.magnitude else n.magnitude)
  else real (String.ofList n.text)

end Numeral

/-! ### Values -/

/-- What a part of a text stands for: a value, or what stands between brackets or braces. -/
inductive Part where
  | value (v : Json)
  | items (vs : List Json)
  | members (ms : List (String × Json))

/-- A text, without the space around it, spells a value; or it spells at least one item or member,
with the space up to the bracket or brace behind it. -/
inductive Spells : List Char → Part → Prop where
  | nullName : Spells "null".toList (.value .null)
  | trueName : Spells "true".toList (.value (.bool true))
  | falseName : Spells "false".toList (.value (.bool false))
  | number (n : Numeral) : Spells n.text (.value n.value)
  | string {text : List Char} {s : String} (h : StringText text s) :
      Spells text (.value (.string s))
  | emptyArray {space : List Char} (hspace : Space space) :
      Spells ('[' :: (space ++ [']'])) (.value (.array []))
  | array {space text : List Char} {vs : List Json} (hspace : Space space)
      (hitems : Spells text (.items vs)) :
      Spells ('[' :: (space ++ (text ++ [']']))) (.value (.array vs))
  | emptyObject {space : List Char} (hspace : Space space) :
      Spells ('\x7b' :: (space ++ ['\x7d'])) (.value (.object []))
  | object {space text : List Char} {ms : List (String × Json)} (hspace : Space space)
      (hmembers : Spells text (.members ms)) :
      Spells ('\x7b' :: (space ++ (text ++ ['\x7d']))) (.value (.object ms))
  | lastItem {text space : List Char} {v : Json} (hvalue : Spells text (.value v))
      (hspace : Space space) : Spells (text ++ space) (.items [v])
  | item {text space space' rest : List Char} {v : Json} {vs : List Json}
      (hvalue : Spells text (.value v)) (hspace : Space space) (hspace' : Space space')
      (hrest : Spells rest (.items vs)) :
      Spells (text ++ (space ++ ',' :: (space' ++ rest))) (.items (v :: vs))
  | lastMember {key before after text space : List Char} {name : String} {v : Json}
      (hkey : StringText key name) (hbefore : Space before) (hafter : Space after)
      (hvalue : Spells text (.value v)) (hspace : Space space) :
      Spells (key ++ (before ++ ':' :: (after ++ (text ++ space)))) (.members [(name, v)])
  | member {key before after text space space' rest : List Char} {name : String} {v : Json}
      {ms : List (String × Json)} (hkey : StringText key name) (hbefore : Space before)
      (hafter : Space after) (hvalue : Spells text (.value v)) (hspace : Space space)
      (hspace' : Space space') (hrest : Spells rest (.members ms)) :
      Spells (key ++ (before ++ ':' :: (after ++ (text ++ (space ++ ',' :: (space' ++ rest))))))
        (.members ((name, v) :: ms))

/-- A text spells a value, with space around it. -/
def Denotes (text : String) (v : Json) : Prop :=
  ∃ before core after, Space before ∧ Spells core (.value v) ∧ Space after ∧
    text.toList = before ++ (core ++ after)

end ClassAtlas.Json
