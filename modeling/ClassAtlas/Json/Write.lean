import ClassAtlas.Json.Value
import ClassAtlas.Text.Numeral

/-! Writing JSON values, on one line or with one item a line. -/

namespace ClassAtlas.Json

structure Style where
  /-- Write every character outside printable ASCII as an escape. -/
  ascii : Bool
  /-- The width of a level of indentation; without one, everything is on one line. -/
  indent : Option Nat

def unicodeEscape (unit : Nat) : List Char := '\\' :: 'u' :: Text.hexDigits 4 unit

/-- A code point as one escape, or as two for a pair of surrogates. -/
def escapeChar (c : Char) : List Char :=
  if c.toNat < 0x10000 then unicodeEscape c.toNat
  else
    unicodeEscape (0xd800 + (c.toNat - 0x10000) / 0x400) ++
      unicodeEscape (0xdc00 + (c.toNat - 0x10000) % 0x400)

def writeChar (ascii : Bool) (c : Char) : List Char :=
  if c == '"' || c == '\\' then ['\\', c]
  else if c == '\n' then ['\\', 'n']
  else if c == '\r' then ['\\', 'r']
  else if c == '\t' then ['\\', 't']
  else if c == '\x08' then ['\\', 'b']
  else if c == '\x0c' then ['\\', 'f']
  else if c.toNat < 0x20 || (ascii && 0x7f ≤ c.toNat) then escapeChar c
  else [c]

def writeString (ascii : Bool) (s : String) : List Char :=
  '"' :: s.toList.flatMap (writeChar ascii) ++ ['"']

/-- The end of a line and the indentation of the next, at a depth. -/
def Style.lineBreak (style : Style) (depth : Nat) : List Char :=
  match style.indent with
  | none => []
  | some width => '\n' :: List.replicate (width * depth) ' '

def Style.separator (style : Style) (depth : Nat) : List Char :=
  match style.indent with
  | none => [',', ' ']
  | some _ => ',' :: style.lineBreak depth

mutual

def writeChars (style : Style) (depth : Nat) : Json → List Char
  | null => "null".toList
  | bool true => "true".toList
  | bool false => "false".toList
  | int n => (toString n).toList
  | real text => text.toList
  | string s => writeString style.ascii s
  | array [] => ['[', ']']
  | array (item :: rest) =>
    '[' :: style.lineBreak (depth + 1) ++ writeChars style (depth + 1) item ++
      writeItems style (depth + 1) rest ++ style.lineBreak depth ++ [']']
  | object [] => ['\x7b', '\x7d']
  | object ((name, value) :: rest) =>
    '\x7b' :: style.lineBreak (depth + 1) ++ writeString style.ascii name ++ [':', ' '] ++
      writeChars style (depth + 1) value ++ writeMembers style (depth + 1) rest ++
      style.lineBreak depth ++ ['\x7d']

/-- The items after the first. -/
def writeItems (style : Style) (depth : Nat) : List Json → List Char
  | [] => []
  | item :: rest =>
    style.separator depth ++ writeChars style depth item ++ writeItems style depth rest

/-- The members after the first. -/
def writeMembers (style : Style) (depth : Nat) : List (String × Json) → List Char
  | [] => []
  | (name, value) :: rest =>
    style.separator depth ++ writeString style.ascii name ++ [':', ' '] ++
      writeChars style depth value ++ writeMembers style depth rest

end

def write (style : Style) (value : Json) : String := String.ofList (writeChars style 0 value)

end ClassAtlas.Json
