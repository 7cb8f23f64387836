import ClassAtlas.Model.Basic
import ClassAtlas.Source.Annotations
import ClassAtlas.Source.Block
import ClassAtlas.StableSort

/-! Methods and constructors, with the bodies that they own. -/

namespace ClassAtlas.Source

open Pattern

/-- A run of annotations before a declaration. -/
def annotationRun : Pattern Unit := runOf do
  lit "@"
  run1 isDotted
  maybe do
    lit "("
    run (· != ')')
    lit ")"
  blanks

/-- A declaration starts neither inside a word nor inside the name of an annotation. -/
def declarationStart : Pattern Unit := notAfter fun c => Text.isWord c || c == '@' || c == '.'

def visibilityWord : Pattern Excerpt := do
  let visibility ← captured (oneOf visibilities)
  blanks1
  return visibility

/-- The given word and blanks, if they are there. -/
def flagWord (s : String) : Pattern Bool :=
  (do lit s; blanks1; return true) <|> return false

def modifierWords (modifiers : List String) : Pattern Unit := repeated do
  oneOf modifiers
  blanks1

/-- What comes before the type of a declared member; `start` is where its declaration starts. -/
structure MemberHead where
  start : Cursor
  visibility : Option Excerpt
  isStatic : Bool

/-- Annotations, then a visibility and other modifiers, each of which may be left out. -/
def memberHead (modifiers : List String) : Pattern MemberHead := do
  annotationRun
  let start ← here
  declarationStart
  let visibility ← optional visibilityWord
  let isStatic ← flagWord "static"
  let _ ← flagWord "final"
  modifierWords modifiers
  return ⟨start, visibility, isStatic⟩

/-- Type arguments in angle brackets, at least one character. -/
def genericArguments : Pattern Unit := do
  lit "<"
  run1 (· != '>')
  lit ">"

/-- Parameters between parentheses, and exceptions, up to the body. -/
def parameterList : Pattern Excerpt := do
  blanks
  lit "("
  let parameters ← captured (run (· != ')'))
  lit ")"
  blanks
  maybe do
    lit "throws"
    one Text.isBlank
    run1 fun c => Text.isWord c || Text.isBlank c || c == ',' || c == '.'
  return parameters

/-- A method's head; `opening` is the place of the brace that opens its body. -/
structure MethodHead extends MemberHead where
  returnType : Excerpt
  name : Excerpt
  parameters : Excerpt
  opening : Cursor

/-- The type of a result: a word, maybe with type arguments or with brackets. -/
def methodType : Pattern Unit := (do word; maybe genericArguments) <|> (do word; lit "[]")

def methodPattern : Pattern MethodHead := do
  let head ← memberHead ["abstract", "synchronized", "native", "default", "strictfp"]
  let returnType ← captured methodType
  blanks1
  let name ← captured word
  let parameters ← parameterList
  let opening ← here
  lit "\x7b"
  return ⟨head, returnType, name, parameters, opening⟩

/-- A constructor's head without any modifier. -/
structure ConstructorHead where
  name : Excerpt
  parameters : Excerpt
  opening : Cursor

def constructorPattern : Pattern ConstructorHead := do
  declarationStart
  let name ← captured word
  let parameters ← parameterList
  let opening ← here
  lit "\x7b"
  return ⟨name, parameters, opening⟩

def callPattern : Pattern Excerpt := do
  boundary
  let name ← captured word
  blanks
  lit "("
  return name

/-- The names that are called in a body. -/
def calledNames (body : List Char) : NameSet :=
  .ofList <| ((callPattern.matchesIn body).map (·.value.text)).filter
    fun name => !callKeywords.contains name

/-- A parameter is the last two words of its piece; a single word is a name without a type. -/
def parameterOf? (piece : List Char) : Option Parameter :=
  match (Text.words piece).reverse with
  | [] => none
  | [name] => some ⟨"Object", String.ofList name⟩
  | name :: type :: _ => some ⟨String.ofList type, String.ofList name⟩

def parametersOf (text : List Char) : List Parameter :=
  (text.splitOn ',').filterMap parameterOf?

/-- A method, the position of its signature and the span of its body's braces. -/
structure LocatedMethod where
  start : Nat
  method : Method
  body : Span

def locateMethod (window : Option Int) (start opening : Cursor)
    (name returnType visibility : String) (isStatic : Bool) (parameters : List Char) :
    LocatedMethod :=
  let closing := blockEnd opening
  { start := start.offset
    method :=
      { name, returnType, visibility, isStatic
        parameters := parametersOf parameters
        annotations := annotationsBefore start window
        calls := calledNames ((opening.after.drop 1).take (closing - (opening.offset + 1)))
        endpoint := none }
    body := ⟨opening.offset, closing⟩ }

/-- The method of a head, unless the head is a statement or stands in a comment. A head whose
return type is a visibility is a constructor's. -/
def methodOfHead? (window : Option Int) (head : MethodHead) : Option LocatedMethod :=
  let name := head.name.text
  let returnType := head.returnType.text
  if statementKeywords.contains name || statementKeywords.contains returnType ||
      inCommentLine head.start then none
  else
    let locate := fun returnType visibility =>
      locateMethod window head.start head.opening name returnType visibility
        head.isStatic head.parameters.chars
    if visibilities.contains returnType then some (locate "" returnType)
    else some (locate returnType ((head.visibility.map (·.text)).getD "package"))

def declaredMethods (content : List Char) (window : Option Int) : List LocatedMethod :=
  (methodPattern.matchesIn content).filterMap fun m => methodOfHead? window m.value

/-- How far back the word `new` is looked for before a constructor's name. -/
def creationWindow : Int := 20

def creationPattern : Pattern Unit := do
  boundary
  lit "new"
  blanks
  atEnd

def followsNew (c : Cursor) : Bool :=
  creationPattern.occurs (c.lookBack (some creationWindow))

/-- The span of a method from its signature to the end of its body. -/
def LocatedMethod.extent (m : LocatedMethod) : Span := ⟨m.start, m.body.stop⟩

/-- The constructors without modifiers among the matches, outside the extents of the methods that
are already known. -/
def bareConstructorsFrom (window : Option Int) (className : String) :
    List Span → List (Match ConstructorHead) → List LocatedMethod
  | _, [] => []
  | occupied, m :: rest =>
    let start := m.start.offset
    if m.value.name.text != className ||
        occupied.any (fun s => s.start ≤ start && start ≤ s.stop) ||
        inCommentLine m.start || followsNew m.start then
      bareConstructorsFrom window className occupied rest
    else
      let found := locateMethod window m.start m.value.opening className "" "package" false
        m.value.parameters.chars
      found :: bareConstructorsFrom window className (occupied ++ [found.extent]) rest

def bareConstructors (content : List Char) (window : Option Int) (className : String)
    (known : List LocatedMethod) : List LocatedMethod :=
  if className.isEmpty then []
  else bareConstructorsFrom window className (known.map (·.extent))
    (constructorPattern.matchesIn content)

/-- The methods of a source in the order of their signatures. -/
def locatedMethods (content : List Char) (window : Option Int) (className : String) :
    List LocatedMethod :=
  let known := declaredMethods content window
  sortBy (fun a b => decide (a.start ≤ b.start))
    (known ++ bareConstructors content window className known)

def methods (content : List Char) (window : Option Int) (className : String) : List Method :=
  (locatedMethods content window className).map (·.method)

end ClassAtlas.Source
