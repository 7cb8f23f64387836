import ClassAtlas.Model.Basic
import ClassAtlas.Source.Annotations
import ClassAtlas.Text.Case

/-! Request mappings: from annotations to paths and endpoints. -/

namespace ClassAtlas.Role

open Pattern Source

/-- A base path and a path below it, joined by one slash. An empty side leaves the other as it is,
and two empty sides make the root. -/
def combinePaths (base path : String) : String :=
  if base.isEmpty then (if path.isEmpty then "/" else path)
  else if path.isEmpty then base
  else
    let trimmed := if Text.endsWith "/" base then String.ofList base.toList.dropLast else base
    let rooted := if Text.startsWith "/" path then path else "/" ++ path
    trimmed ++ rooted

def isQuote (c : Char) : Bool := c == '"' || c == '\''

/-- A literal, possibly the first of several in braces. -/
def literalPattern : Pattern Excerpt := do
  maybe (lit "\x7b")
  blanks
  one isQuote
  let text ← captured (run1 fun c => !isQuote c)
  one isQuote
  return text

/-- The name of an attribute and its equals sign. -/
def attributePattern (names : List String) : Pattern Unit := do
  boundary
  oneOf names
  blanks
  lit "="
  blanks

def namedPathPattern : Pattern Excerpt := do
  attributePattern ["value", "path"]
  literalPattern

def positionalPattern : Pattern Excerpt := do
  lit "("
  blanks
  literalPattern

def mappingPathPattern (mapping : String) : Pattern Excerpt := do
  lit "@"
  lit mapping
  blanks
  positionalPattern

/-- The text that the leftmost match of a pattern captures. -/
def firstText? (p : Pattern Excerpt) (text : String) : Option String :=
  (p.search text.toList).map (·.value.text)

/-- The path that a mapping names: as an attribute, else as its own first argument, else as any
first argument. -/
def mappingPath? (marker mapping : String) : Option String :=
  firstText? namedPathPattern marker <|> firstText? (mappingPathPattern mapping) marker <|>
    firstText? positionalPattern marker

def verbPattern : Pattern Excerpt := do
  attributePattern ["method"]
  maybe (lit "\x7b")
  blanks
  maybe (lit "RequestMethod.")
  captured word

/-- The media type that an attribute names, by a literal or by a constant. -/
def mediaPattern (key : String) : Pattern Excerpt := do
  attributePattern [key]
  literalPattern <|> captured (run1 isDotted)

/-- A mapping either fixes its verb or leaves it to an attribute. -/
def mappingVerbs : List (String × Option String) :=
  [("RequestMapping", none), ("GetMapping", some "GET"), ("PostMapping", some "POST"),
   ("PutMapping", some "PUT"), ("DeleteMapping", some "DELETE"), ("PatchMapping", some "PATCH")]

def mappingVerb (marker : String) : Option String → String
  | some verb => verb
  | none => ((firstText? verbPattern marker).map Text.upper).getD "GET"

def endpointOf? (method : Method) (base : Option String) (marker : String) : Option Endpoint :=
  let mapping := annotationName marker
  (mappingVerbs.lookup mapping).map fun verb =>
    { verb := mappingVerb marker verb
      path := combinePaths (base.getD "") ((mappingPath? marker mapping).getD ("/" ++ method.name))
      produces := firstText? (mediaPattern "produces") marker
      consumes := firstText? (mediaPattern "consumes") marker
      description := some (method.name ++ "() - " ++ method.returnType) }

/-- The endpoint of the first mapping on a method. -/
def endpoint? (method : Method) (base : Option String) : Option Endpoint :=
  method.annotations.findSome? (endpointOf? method base)

/-- The path of the first mapping on a class, if it names one. -/
def basePath? (annotations : List String) : Option String :=
  (annotations.find? (annotationName · == "RequestMapping")).bind
    (mappingPath? · "RequestMapping")

end ClassAtlas.Role
