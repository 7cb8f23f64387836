import ClassAtlas.Text.Pieces

/-! Path texts. -/

namespace ClassAtlas.Disk

/-- Removes the ending `.git` from a path that ends in `.java.git`. -/
def sanitizePath (path : String) : String :=
  if Text.endsWith ".java.git" path then String.ofList (path.toList.take (path.length - 4))
  else path

def isAbsolute (path : String) : Bool := Text.startsWith "/" path

/-- The components of a path that move to another place; a step to the parent is one of them. -/
def steps (path : String) : List String :=
  (Text.splitAt '/' path).filter fun part => !part.isEmpty && part != "."

/-- A path text without needless parts. -/
def pathText (absolute : Bool) (steps : List String) : String :=
  (if absolute then "/" else "") ++ "/".intercalate steps

/-- The slashes that a path starts with. Two of them are kept, and any other number is one. -/
def root (path : String) : String :=
  if Text.startsWith "//" path && !Text.startsWith "///" path then "//"
  else if isAbsolute path then "/" else ""

/-- The text of the path that goes on from another one by the given steps. -/
def extend (path : String) (way : List String) : String :=
  root path ++ "/".intercalate (steps path ++ way)

end ClassAtlas.Disk
