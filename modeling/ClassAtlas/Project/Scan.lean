import ClassAtlas.Disk.Path
import ClassAtlas.Graph.Relationships
import ClassAtlas.Loader
import ClassAtlas.Project.Pool
import ClassAtlas.Source.Unit

/-! Scanning files into an atlas. -/

namespace ClassAtlas.Project

open Log

/-- The class that the file at a path declares, if it can be read and declares one. -/
def classAt? (settings : Settings) (load : Loader) (path : String) :
    Logged (Option JavaClass) := do
  let path := Disk.sanitizePath path
  match ← load path with
  | .absent => return none
  | .failed reason => do
    record (.readingFailed path reason)
    return none
  | .text content =>
    match Source.readClass? settings path content.toList with
    | some c => return some c
    | none => do
      record (.noClassFound path)
      return none

/-- What is read at each path. Several workers share the work if there is more than one file. -/
def readEach (settings : Settings) (load : Loader) (schedule : Schedule) (paths : List String) :
    Logged (List (Option JavaClass)) :=
  if 1 < settings.maxWorkers ∧ 1 < paths.length then
    Pool.mapM settings.maxWorkers schedule (classAt? settings load) paths
  else paths.mapM (classAt? settings load)

/-- The classes of the files, in the order of the paths. -/
def readFiles (settings : Settings) (load : Loader) (schedule : Schedule) (paths : List String) :
    Logged (List JavaClass) := do
  let read ← readEach settings load schedule paths
  let classes := read.filterMap id
  if classes.length < paths.length then
    record (.filesWithoutClass (paths.length - classes.length))
  return classes

/-- Reads all files, and then relates their classes. -/
def scan (settings : Settings) (load : Loader) (schedule : Schedule) (paths : List String) :
    Logged Atlas := do
  record (.scanStarted paths.length)
  let classes ← readFiles settings load schedule paths
  record (.stageTimed .parseFiles)
  let relationships := Graph.relationships settings.callResolution classes
  record (.stageTimed .buildRelationships)
  record (.stageTimed .scan)
  record (.scanCompleted classes.length relationships.length)
  return ⟨classes, relationships⟩

end ClassAtlas.Project
