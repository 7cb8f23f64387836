import ClassAtlas.Pattern.Search
import ClassAtlas.Text.Pieces

/-! Comments, judged a line at a time. -/

namespace ClassAtlas.Source

open Pattern

/-- A literal between two quotes of a kind, in which a backslash escapes the next character. -/
def quotedLiteral (quote : Char) : Pattern Unit := do
  one (· == quote)
  runOf ((do one (· == '\\'); one (· != '\n')) <|> one fun c => c != quote && c != '\\')
  one (· == quote)

def stringLiteral : Pattern Unit := quotedLiteral '"' <|> quotedLiteral '\''

/-- Whether a trimmed line starts like a comment. -/
def isComment (line : List Char) : Bool :=
  "//".toList.isPrefixOf line || "/*".toList.isPrefixOf line || "*".toList.isPrefixOf line

/-- Whether a place stands after a line comment's marker, or on a line that starts like a block
comment. A marker inside a literal does not count. -/
def inCommentLine (c : Cursor) : Bool :=
  let head := stringLiteral.replace ['"', '"'] c.lineHead
  let trimmed := Text.trimChars head
  Text.occursInChars "//".toList head ||
    "/*".toList.isPrefixOf trimmed || "*".toList.isPrefixOf trimmed

end ClassAtlas.Source
