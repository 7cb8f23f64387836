import ClassAtlas.Text.Classes

/-! The words of the Java language and of its frameworks that a reading depends on. -/

namespace ClassAtlas.Source

/-- The primitive types and their boxes, which no class depends on. -/
def primitiveTypes : List String :=
  ["byte", "short", "int", "long", "float", "double", "boolean", "char", "void",
   "Byte", "Short", "Integer", "Long", "Float", "Double", "Boolean", "Character", "Void"]

def frameworkMarkers : List String :=
  ["Autowired", "Inject", "Resource", "Service", "Repository", "Component", "Controller",
   "RestController"]

/-- Statements that are written like a call. -/
def callKeywords : List String := ["if", "for", "while", "switch"]

/-- Words that show a statement where a declaration was looked for. -/
def statementKeywords : List String :=
  ["if", "else", "for", "while", "do", "switch", "case", "try", "catch", "finally", "return",
   "throw", "new", "synchronized", "assert", "package", "import", "goto", "super", "this",
   "class", "interface", "enum", "extends", "implements", "yield"]

def visibilities : List String := ["public", "private", "protected"]

/-- The characters of a dotted name. -/
def isDotted (c : Char) : Bool := Text.isWord c || c == '.'

end ClassAtlas.Source
