import ClassAtlas.Proofs.Plain.Unit

/-! Plain controllers: classes whose methods are mapped to paths, how they are written down, and the
endpoints that they serve. -/

namespace ClassAtlas.Plain

open Source

def isPathChar (c : Char) : Bool := c.isAlphanum || ['/', '_', '.', '-', '{', '}'].contains c

structure Path where
  chars : List Char
  proper : chars.all isPathChar = true

def Path.of (s : String) (proper : s.toList.all isPathChar = true := by decide +kernel) : Path :=
  ⟨s.toList, proper⟩

def Path.text (p : Path) : String := String.ofList p.chars

/-- A word in capital letters. -/
structure Verb where
  chars : List Char
  proper : (!chars.isEmpty && chars.all Char.isUpper) = true

def Verb.text (v : Verb) : String := String.ofList v.chars

inductive MappingKind where
  | request
  | get
  | post
  | put
  | delete
  | patch
deriving DecidableEq

namespace MappingKind

def name : MappingKind → String
  | request => "RequestMapping"
  | get => "GetMapping"
  | post => "PostMapping"
  | put => "PutMapping"
  | delete => "DeleteMapping"
  | patch => "PatchMapping"

/-- The verb of a mapping that names none. -/
def verb : MappingKind → String
  | request => "GET"
  | get => "GET"
  | post => "POST"
  | put => "PUT"
  | delete => "DELETE"
  | patch => "PATCH"

end MappingKind

/-- The attributes that may name a path. -/
inductive PathKey where
  | value
  | path
deriving DecidableEq

def PathKey.name : PathKey → String
  | value => "value"
  | path => "path"

/-- How a mapping is written: with its path as the only argument or as an attribute, and a general
mapping maybe with its verb as another one. -/
inductive Mapping where
  | positional (kind : MappingKind)
  | named (kind : MappingKind) (key : PathKey)
  | verbed (key : PathKey) (verb : Verb)

def quoted (s : List Char) : List Char := '"' :: (s ++ ['"'])

namespace Mapping

def kind : Mapping → MappingKind
  | positional kind => kind
  | named kind _ => kind
  | verbed _ _ => .request

def verb : Mapping → String
  | positional kind => kind.verb
  | named kind _ => kind.verb
  | verbed _ verb => verb.text

def arguments (m : Mapping) (p : Path) : List Char :=
  match m with
  | positional _ => quoted p.chars
  | named _ key => key.name.toList ++ ([' ', '=', ' '] ++ quoted p.chars)
  | verbed key verb => key.name.toList ++ ([' ', '=', ' '] ++ (quoted p.chars ++
      (", method = RequestMethod.".toList ++ verb.chars)))

/-- The mapping of a path as it is written down. -/
def chars (m : Mapping) (p : Path) : List Char :=
  '@' :: (m.kind.name.toList ++ '(' :: (m.arguments p ++ [')']))

end Mapping

structure MappedMethod where
  mapping : Mapping
  path : Path
  path_ne : path.chars ≠ []
  returnType : TypeName
  name : Name

namespace MappedMethod

def markerText (m : MappedMethod) : List Char := m.mapping.chars m.path

/-- The method without its annotation. -/
def plain (m : MappedMethod) : PlainMethod where
  modifiers := ⟨some ⟨"public", public_mem_visibilities⟩, false⟩
  returnType := ⟨m.returnType, .none⟩
  name := m.name
  parameters := []
  calls := []

def lines (m : MappedMethod) : List Char :=
  "    ".toList ++ (m.markerText ++ '\n' :: m.plain.lines)

/-- The endpoint of the method below a base path. -/
def endpoint (m : MappedMethod) (base : Option Path) : Endpoint where
  verb := m.mapping.verb
  path := Role.combinePaths (base.elim "" Path.text) m.path.text
  produces := none
  consumes := none
  description := some (m.name.text ++ "() - " ++ m.returnType.text)

def method (m : MappedMethod) (base : Option Path) : Method :=
  { m.plain.method with
    annotations := [String.ofList m.markerText]
    endpoint := some (m.endpoint base) }

end MappedMethod

structure Controller where
  isRest : Bool
  base : Option Path
  name : Name
  methods : List MappedMethod

namespace Controller

def marker (c : Controller) : String := if c.isRest then "@RestController" else "@Controller"

/-- The mapping of the base path. -/
def baseMapping (p : Path) : List Char := Mapping.chars (.positional .request) p

def markers (c : Controller) : List Char :=
  c.marker.toList ++ '\n' :: (c.base.elim [] fun p => baseMapping p ++ ['\n'])

/-- The class without its annotations and methods. -/
def shell (c : Controller) : PlainUnit where
  package := none
  imports := []
  name := c.name
  base := none
  interfaces := []
  fields := []
  methods := []

def text (c : Controller) : List Char :=
  c.markers ++ (c.shell.classLine ++ (c.methods.flatMap MappedMethod.lines ++ ['}', '\n']))

def annotations (c : Controller) : List String :=
  c.marker :: c.base.elim [] fun p => [String.ofList (baseMapping p)]

end Controller

end ClassAtlas.Plain
