/-! File name patterns: a star stands for any text, a question mark for any character, and
brackets for a class of characters. -/

namespace ClassAtlas.Disk

inductive GlobItem where
  | char (c : Char)
  | anyChar
  | anyText
  /-- One character in some range, or in none of them. -/
  | oneOf (negated : Bool) (ranges : List (Char × Char))

def classRanges : List Char → List (Char × Char)
  | lo :: '-' :: hi :: rest => (lo, hi) :: classRanges rest
  | c :: rest => (c, c) :: classRanges rest
  | [] => []

/-- The body of a class and what follows its closing bracket, which cannot come first. -/
def classBody? (text : List Char) : Option (List Char × List Char) :=
  match text with
  | [] => none
  | first :: rest =>
    match rest.dropWhile (· != ']') with
    | [] => none
    | _ :: after => some (first :: rest.takeWhile (· != ']'), after)

/-- A class after its opening bracket. -/
def globClass? : List Char → Option (GlobItem × List Char)
  | '!' :: rest =>
    (classBody? rest).map fun (body, after) => (.oneOf true (classRanges body), after)
  | rest => (classBody? rest).map fun (body, after) => (.oneOf false (classRanges body), after)

/-- The items of a pattern. Every item takes a character, so the length is enough fuel. -/
def globItems : Nat → List Char → List GlobItem
  | 0, _ => []
  | _, [] => []
  | fuel + 1, '*' :: rest => .anyText :: globItems fuel rest
  | fuel + 1, '?' :: rest => .anyChar :: globItems fuel rest
  | fuel + 1, '[' :: rest =>
    match globClass? rest with
    | some (item, after) => item :: globItems fuel after
    | none => .char '[' :: globItems fuel rest
  | fuel + 1, c :: rest => .char c :: globItems fuel rest

def GlobItem.accepts (item : GlobItem) (c : Char) : Bool :=
  match item with
  | char d => c == d
  | anyChar | anyText => true
  | oneOf negated ranges => (ranges.any fun (lo, hi) => lo ≤ c && c ≤ hi) != negated

/-- Whether some tail of a text is accepted. -/
def someTail (accepted : List Char → Bool) : List Char → Bool
  | [] => accepted []
  | c :: rest => accepted (c :: rest) || someTail accepted rest

def globMatches : List GlobItem → List Char → Bool
  | [], text => text.isEmpty
  | .anyText :: items, text => someTail (globMatches items) text
  | _ :: _, [] => false
  | item :: items, c :: rest => item.accepts c && globMatches items rest

def matchesGlob (pattern name : String) : Bool :=
  globMatches (globItems pattern.length pattern.toList) name.toList

end ClassAtlas.Disk
