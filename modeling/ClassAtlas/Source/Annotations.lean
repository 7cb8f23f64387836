import ClassAtlas.Source.Comment
import ClassAtlas.Source.Vocabulary

/-! Annotations: how they are written, which ones stand above a declaration, and their names. -/

namespace ClassAtlas.Source

open Pattern

/-- A piece of an argument list: a plain character, a literal, or a nested list without another
inside it. -/
def argumentPiece : Pattern Unit :=
  one (fun c => c != '(' && c != ')' && c != '"' && c != '\'') <|>
  (do one (· == '"'); run (· != '"'); one (· == '"')) <|>
  (do one (· == '\''); run (· != '\''); one (· == '\'')) <|>
  (do one (· == '('); run (fun c => c != '(' && c != ')'); one (· == ')'))

def annotationToken : Pattern Unit := do
  lit "@"
  run1 isDotted
  maybe do
    blanks
    lit "("
    runOf argumentPiece
    lit ")"

/-- Annotations at the end of a line. -/
def trailingAnnotations : Pattern Unit := do
  annotationToken
  blanks
  runOf do
    annotationToken
    blanks
  atEnd

/-- The annotations of a line; a line without one counts as a single annotation. -/
def splitAnnotations (line : List Char) : List String :=
  match annotationToken.matchesIn line with
  | [] => [String.ofList line]
  | tokens => tokens.map (·.text)

/-- The annotations on the lines above, which are given nearest first. Blank lines and comments
are passed over, and any other line ends the reading. -/
def annotationsAbove : List (List Char) → List String
  | [] => []
  | line :: further =>
    let trimmed := Text.trimChars line
    if "@".toList.isPrefixOf trimmed then annotationsAbove further ++ splitAnnotations trimmed
    else if trimmed.isEmpty || isComment trimmed then annotationsAbove further
    else []

/-- The annotations at the end of a text, in the order in which they are written. What stands
before them on the last line must be blank or a comment for earlier lines to count. -/
def annotationsIn (text : List Char) : List String :=
  match (text.splitOn '\n').reverse with
  | [] => []
  | last :: earlier =>
    let (own, rest) :=
      match trailingAnnotations.search last with
      | some m => (splitAnnotations (Text.trimChars m.chars), m.start.before.reverse)
      | none => ([], last)
    let trimmed := Text.trimChars rest
    if trimmed.isEmpty || isComment trimmed then annotationsAbove earlier ++ own else own

/-- The annotations of what is declared at a place, as far as the window shows them. -/
def annotationsBefore (c : Cursor) (window : Option Int) : List String :=
  annotationsIn (c.lookBack window)

def annotationNamePattern : Pattern Excerpt := do
  lit "@"
  blanks
  captured (run1 isDotted)

/-- The simple name of an annotation, without its package and arguments. -/
def annotationName (text : String) : String :=
  match annotationNamePattern.search text.toList with
  | some m => Text.afterLast '.' m.value.text
  | none => ""

end ClassAtlas.Source
