import ClassAtlas.Model.Basic
import ClassAtlas.Pattern.Search
import ClassAtlas.Source.Vocabulary
import ClassAtlas.Text.Pieces

/-! The names that a class depends on: a generous estimate. -/

namespace ClassAtlas.Source

open Pattern

def isNameStart (c : Char) : Bool := c.isAlpha || c == '_'

def typeNamePattern : Pattern Unit := do
  one isNameStart
  run Text.isWord

/-- The names in a type, without the primitive types. -/
def typeNames (type : List Char) : List String :=
  ((typeNamePattern.matchesIn type).map (·.text)).filter fun name =>
    !primitiveTypes.contains name

def markerPattern (marker : String) : Pattern Unit := do
  lit "@"
  lit marker
  boundary

def injectionPattern : Pattern Excerpt := do
  lit "@"
  oneOf ["Autowired", "Inject", "Resource"]
  boundary
  blanks
  maybe do
    oneOf ["private", "public", "protected"]
    blanks1
  maybe do
    lit "final"
    blanks1
  captured word

def injectedTypes (content : List Char) : List String :=
  ((injectionPattern.matchesIn content).map (·.value.text)).filter fun name =>
    !primitiveTypes.contains name

/-- The type of a method's result and those of its parameters. -/
def methodTypes (m : Method) : List String := m.parameters.map (·.type) ++ [m.returnType]

/-- An import of a single type names it both in full and by its last part. -/
def importedNames (specifier : String) : List String :=
  if Text.startsWith "static " specifier || Text.endsWith ".*" specifier then []
  else [specifier, Text.afterLast '.' specifier]

def dependencies (content : List Char) (imports : List String) (fields : List Field)
    (methods : List Method) : NameSet :=
  .ofList <|
    frameworkMarkers.filter (fun marker => (markerPattern marker).occurs content) ++
    injectedTypes content ++
    fields.flatMap (fun f => typeNames f.type.toList) ++
    methods.flatMap (fun m => (methodTypes m).flatMap fun t => typeNames t.toList) ++
    imports.flatMap importedNames

end ClassAtlas.Source
