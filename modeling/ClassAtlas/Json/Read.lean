import ClassAtlas.Json.Value
import ClassAtlas.Text.Numeral

/-! Reading JSON texts. The names `NaN`, `Infinity` and `-Infinity` count as numbers. -/

namespace ClassAtlas.Json

def isSpace (c : Char) : Bool := c == ' ' || c == '\t' || c == '\n' || c == '\r'

def skipSpace (text : List Char) : List Char := text.dropWhile isSpace

def hexUnit? : List Char → Option (Nat × List Char)
  | a :: b :: c :: d :: rest => do
    let a ← Text.hexValue? a
    let b ← Text.hexValue? b
    let c ← Text.hexValue? c
    let d ← Text.hexValue? d
    return (((a * 16 + b) * 16 + c) * 16 + d, rest)
  | _ => none

/-- The unit of an escape that follows at once. -/
def escapedUnit? : List Char → Option (Nat × List Char)
  | '\\' :: 'u' :: rest => hexUnit? rest
  | _ => none

def shortEscape? (c : Char) : Option Char :=
  if c == '"' || c == '\\' || c == '/' then some c
  else if c == 'b' then some '\x08'
  else if c == 'f' then some '\x0c'
  else if c == 'n' then some '\n'
  else if c == 'r' then some '\r'
  else if c == 't' then some '\t'
  else none

/-- One escape after its backslash. A high surrogate joins the low one behind it; a surrogate
that stands alone becomes the replacement character. -/
def readEscape? : List Char → Option (Char × List Char)
  | [] => none
  | 'u' :: rest => do
    let (unit, rest) ← hexUnit? rest
    if 0xd800 ≤ unit ∧ unit < 0xdc00 then
      match escapedUnit? rest with
      | some (low, rest') =>
        if 0xdc00 ≤ low ∧ low < 0xe000 then
          return (Char.ofNat (0x10000 + (unit - 0xd800) * 0x400 + (low - 0xdc00)), rest')
        else return ('�', rest)
      | none => return ('�', rest)
    else if 0xdc00 ≤ unit ∧ unit < 0xe000 then return ('�', rest)
    else return (Char.ofNat unit, rest)
  | c :: rest => (shortEscape? c).map fun c => (c, rest)

/-- The characters up to the closing quote, and what follows it. Every step reads a character, so
the length of the text is enough fuel. -/
def readChars? : Nat → List Char → Option (List Char × List Char)
  | 0, _ => none
  | _ + 1, [] => none
  | fuel + 1, c :: rest =>
    if c == '"' then some ([], rest)
    else if c == '\\' then do
      let (c, rest) ← readEscape? rest
      let (cs, rest) ← readChars? fuel rest
      return (c :: cs, rest)
    else if c.toNat < 0x20 then none
    else do
      let (cs, rest) ← readChars? fuel rest
      return (c :: cs, rest)

/-- A string after its opening quote. -/
def readString? (text : List Char) : Option (String × List Char) := do
  let (cs, rest) ← readChars? text.length text
  return (String.ofList cs, rest)

def isDigit (c : Char) : Bool := '0' ≤ c && c ≤ '9'

/-- The whole part of a number: a zero alone, or digits that start with another one. -/
def wholeDigits? (text : List Char) : Option (List Char × List Char) :=
  match text with
  | '0' :: rest => some (['0'], rest)
  | c :: _ => if isDigit c then some (text.takeWhile isDigit, text.dropWhile isDigit) else none
  | [] => none

/-- The fraction of a number, if one is there. -/
def fraction (text : List Char) : List Char × List Char :=
  match text with
  | '.' :: d :: rest =>
    if isDigit d then ('.' :: d :: rest.takeWhile isDigit, rest.dropWhile isDigit)
    else ([], text)
  | _ => ([], text)

/-- The exponent of a number, if one is there. -/
def exponent (text : List Char) : List Char × List Char :=
  match text with
  | e :: rest =>
    if e == 'e' || e == 'E' then
      let (sign, digits) :=
        match rest with
        | s :: after => if s == '+' || s == '-' then ([s], after) else ([], rest)
        | [] => ([], [])
      match digits.takeWhile isDigit with
      | [] => ([], text)
      | ds => (e :: sign ++ ds, digits.dropWhile isDigit)
    else ([], text)
  | [] => ([], [])

def natOfDigits (digits : List Char) : Nat :=
  digits.foldl (fun n c => n * 10 + (c.toNat - '0'.toNat)) 0

def readNumber? (text : List Char) : Option (Json × List Char) := do
  let (sign, text) :=
    match text with
    | '-' :: rest => (['-'], rest)
    | _ => ([], text)
  let (whole, rest) ← wholeDigits? text
  let (frac, rest) := fraction rest
  let (exp, rest) := exponent rest
  if frac.isEmpty && exp.isEmpty then
    let n : Int := natOfDigits whole
    return (int (if sign.isEmpty then n else -n), rest)
  else return (real (String.ofList (sign ++ whole ++ frac ++ exp)), rest)

/-- The names of the constants and their values. -/
def constants : List (String × Json) :=
  [("null", null), ("true", bool true), ("false", bool false), ("NaN", real "NaN"),
   ("Infinity", real "Infinity"), ("-Infinity", real "-Infinity")]

def readConstant? (text : List Char) : Option (Json × List Char) :=
  constants.findSome? fun (name, value) =>
    if name.toList.isPrefixOf text then some (value, text.drop name.length) else none

mutual

/-- A value at the start of a text, and what follows it. Every step reads a character, so the
length of the text is enough fuel. -/
def readValue? : Nat → List Char → Option (Json × List Char)
  | 0, _ => none
  | fuel + 1, text =>
    match text with
    | '"' :: rest => (readString? rest).map fun (s, rest) => (string s, rest)
    | '[' :: rest =>
      match skipSpace rest with
      | ']' :: rest => some (array [], rest)
      | rest => (readItems? fuel rest).map fun (items, rest) => (array items, rest)
    | '\x7b' :: rest =>
      match skipSpace rest with
      | '\x7d' :: rest => some (object [], rest)
      | rest => (readMembers? fuel rest).map fun (members, rest) => (object members, rest)
    | _ => readConstant? text <|> readNumber? text

/-- At least one item, up to the closing bracket. -/
def readItems? : Nat → List Char → Option (List Json × List Char)
  | 0, _ => none
  | fuel + 1, text => do
    let (item, rest) ← readValue? fuel text
    match skipSpace rest with
    | ']' :: rest => return ([item], rest)
    | ',' :: rest =>
      let (items, rest) ← readItems? fuel (skipSpace rest)
      return (item :: items, rest)
    | _ => none

/-- At least one member, up to the closing brace. -/
def readMembers? : Nat → List Char → Option (List (String × Json) × List Char)
  | 0, _ => none
  | fuel + 1, text =>
    match text with
    | '"' :: text => do
      let (name, rest) ← readString? text
      match skipSpace rest with
      | ':' :: rest =>
        let (value, rest) ← readValue? fuel (skipSpace rest)
        match skipSpace rest with
        | '\x7d' :: rest => return ([(name, value)], rest)
        | ',' :: rest =>
          let (members, rest) ← readMembers? fuel (skipSpace rest)
          return ((name, value) :: members, rest)
        | _ => none
      | _ => none
    | _ => none

end

/-- A whole text that holds one value. -/
def read? (s : String) : Option Json :=
  let text := s.toList
  match readValue? (text.length + 1) (skipSpace text) with
  | some (value, rest) => if (skipSpace rest).isEmpty then some value else none
  | none => none

end ClassAtlas.Json
