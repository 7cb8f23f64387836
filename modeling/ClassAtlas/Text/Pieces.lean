import ClassAtlas.Text.Classes

/-! Trimming, cutting and searching texts. -/

namespace ClassAtlas.Text

def trimStart (text : List Char) : List Char := text.dropWhile isBlank

def trimEnd (text : List Char) : List Char := (text.reverse.dropWhile isBlank).reverse

def trimChars (text : List Char) : List Char := trimEnd (trimStart text)

def trim (s : String) : String := String.ofList (trimChars s.toList)

/-- The pieces between the occurrences of `sep`; a text without one is a single piece. -/
def splitAt (sep : Char) (s : String) : List String := (s.toList.splitOn sep).map String.ofList

def lines (s : String) : List String := splitAt '\n' s

/-- The maximal runs of characters that are not blank. -/
def words (text : List Char) : List (List Char) :=
  (text.splitOnP isBlank).filter fun run => !run.isEmpty

/-- Whether `part` stands somewhere in the text. -/
def occursInChars (part : List Char) : List Char → Bool
  | [] => part.isEmpty
  | c :: rest => part.isPrefixOf (c :: rest) || occursInChars part rest

def occursIn (part s : String) : Bool := occursInChars part.toList s.toList

def startsWith (part s : String) : Bool := part.toList.isPrefixOf s.toList

def endsWith (part s : String) : Bool := part.toList.isSuffixOf s.toList

/-- What follows the last occurrence of `sep`; the whole text when there is none. -/
def afterLast (sep : Char) (s : String) : String :=
  String.ofList (s.toList.reverse.takeWhile (· != sep)).reverse

end ClassAtlas.Text
