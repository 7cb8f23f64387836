import ClassAtlas.Source.Comment
import ClassAtlas.Source.Vocabulary

/-! The package, the imports and the class that a source declares. -/

namespace ClassAtlas.Source

open Pattern

def packagePattern : Pattern Excerpt := do
  boundary
  lit "package"
  blanks1
  let name ← captured (run1 isDotted)
  blanks
  lit ";"
  return name

/-- The declared package, or the empty name. -/
def packageName (content : List Char) : String :=
  match packagePattern.search content with
  | some m => m.value.text
  | none => ""

/-- A name, maybe with the word `static` before it or a star behind it. -/
def importSpecifier : Pattern Unit := do
  maybe do
    lit "static"
    blanks1
  many1 isDotted
  maybe (lit ".*")

def importPattern : Pattern Excerpt := do
  boundary
  lit "import"
  blanks1
  let specifier ← captured importSpecifier
  blanks
  lit ";"
  return specifier

/-- The imported names in source order, with runs of blanks written as one space. -/
def importNames (content : List Char) : List String :=
  (importPattern.matchesIn content).map fun m =>
    String.ofList (blanks1.replace [' '] m.value.chars)

/-- Type arguments without nesting, after any blanks. -/
def typeArguments : Pattern Unit := do
  blanks
  lit "<"
  run fun c => c != '>' && c != '{'
  lit ">"

def isTypeListChar (c : Char) : Bool :=
  Text.isWord c || Text.isBlank c || c == ',' || c == '.' || c == '<' || c == '>'

structure ClassClauses where
  name : Excerpt
  base : Option Excerpt
  interfaces : Option Excerpt

def extendsClause : Pattern Excerpt := do
  blanks1
  lit "extends"
  blanks1
  let base ← captured (run1 isDotted)
  maybe typeArguments
  return base

def implementsClause : Pattern Excerpt := do
  blanks1
  lit "implements"
  many1 Text.isBlank
  captured (run1 isTypeListChar)

def classPattern : Pattern ClassClauses := do
  runOf do
    boundary
    oneOf ["public", "abstract", "final"]
    blanks1
  boundary
  lit "class"
  blanks1
  let name ← captured word
  maybe typeArguments
  let base ← optional extendsClause
  let interfaces ← optional implementsClause
  return ⟨name, base, interfaces⟩

/-- Where a class declaration stands and what it says. -/
structure ClassHeader where
  start : Cursor
  stop : Cursor
  name : String
  base : Option String
  interfaceText : Option String

def ClassHeader.ofMatch (m : Match ClassClauses) : ClassHeader where
  start := m.start
  stop := m.stop
  name := m.value.name.text
  base := m.value.base.map (·.text)
  interfaceText := m.value.interfaces.map (·.text)

/-- The first class declaration outside comments. -/
def classHeader? (content : List Char) : Option ClassHeader :=
  ((classPattern.matchesIn content).map ClassHeader.ofMatch).find? fun header =>
    !inCommentLine header.start && !statementKeywords.contains header.name

def innermostArguments : Pattern Unit := do
  lit "<"
  run fun c => c != '<' && c != '>'
  lit ">"

/-- Removes innermost type arguments until none is left. Every round shortens the text, so its
length is enough fuel. -/
def eraseTypeArguments : Nat → List Char → List Char
  | 0, text => text
  | fuel + 1, text =>
    let erased := innermostArguments.replace [] text
    if erased == text then text else eraseTypeArguments fuel erased

/-- The names of a type list, without their type arguments. -/
def typeListNames (text : List Char) : List String :=
  (((eraseTypeArguments text.length text).splitOn ',').map Text.trimChars).filterMap fun name =>
    if name.isEmpty then none else some (String.ofList name)

def ClassHeader.interfaces (header : ClassHeader) : List String :=
  match header.interfaceText with
  | some text => typeListNames text.toList
  | none => []

end ClassAtlas.Source
