import ClassAtlas.Disk.Basic
import ClassAtlas.Disk.Glob
import ClassAtlas.StableSort

/-! The source files that a list of paths stands for. -/

namespace ClassAtlas.Disk

/-- Whether the last components match the components of a pattern. -/
def endsLike (pattern parts : List String) : Bool :=
  pattern.length ≤ parts.length &&
    ((parts.drop (parts.length - pattern.length)).zip pattern).all fun (part, glob) =>
      matchesGlob glob part

/-- The files below a directory whose paths end like a star and the suffix, as ways from the
directory in increasing order. -/
def sourcesBelow (disk : Disk) (place : Place) (suffix : String) : List (List String) :=
  let below := disk.files.filterMap fun (other, _) =>
    if place.isPrefixOf other && other != place then some (other.drop place.length) else none
  sortBy (fun a b => !decide (b < a)) (below.filter (endsLike (steps ("*" ++ suffix))))

/-- A directory stands for the sources below it, and any other path for itself. -/
def expandPath (disk : Disk) (suffix path : String) : List String :=
  match disk.walk (disk.origin path) (steps path) with
  | .ok place =>
    if disk.isDirectory place then
      (disk.sourcesBelow place suffix).map (extend path)
    else [path]
  | .error _ => [path]

def expandPaths (disk : Disk) (suffix : String) (paths : List String) : List String :=
  paths.flatMap (disk.expandPath suffix)

end ClassAtlas.Disk
