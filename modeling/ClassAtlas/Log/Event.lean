import ClassAtlas.Log.Level

/-! What is worth recording during a scan and the queries on it. -/

namespace ClassAtlas.Log

/-- The parts of a scan whose time is taken. -/
inductive Stage where
  | buildRelationships
  | parseFiles
  | scan
deriving DecidableEq

namespace Stage

/-- All stages, in the order of their names. -/
def all : List Stage := [.buildRelationships, .parseFiles, .scan]

def name : Stage → String
  | .buildRelationships => "build_relationships"
  | .parseFiles => "parse_files"
  | .scan => "scan"

end Stage

inductive Event where
  | scanStarted (files : Nat)
  | stageTimed (stage : Stage)
  | scanCompleted (classes relationships : Nat)
  | noSourceFiles
  | fileUnavailable (path : String)
  | fileUndecodable (path : String)
  | readingFailed (path reason : String)
  | noClassFound (path : String)
  | filesWithoutClass (count : Nat)
  | miningSkipped (path reason : String)
  | methodUsagesFound (count : Nat) (className methodName : String)
  | classUsagesFound (count : Nat) (className : String)
  | examplesCollected (className methodName : String) (real synthetic : Nat)
deriving DecidableEq

/-- The parts of a message that only the run itself knows. -/
structure Wording where
  /-- The seconds that a stage took. -/
  elapsed : Stage → String
  /-- Why bytes could not be decoded. -/
  decodeError : String

namespace Event

def severity : Event → Severity
  | scanStarted .. | scanCompleted .. => .info
  | stageTimed .. | noClassFound .. | filesWithoutClass .. | methodUsagesFound ..
  | classUsagesFound .. | examplesCollected .. => .debug
  | noSourceFiles | fileUnavailable .. | fileUndecodable .. | miningSkipped .. => .warning
  | readingFailed .. => .error

def message (wording : Wording) : Event → String
  | scanStarted files => s!"Starting scan of {files} files"
  | stageTimed stage => s!"{stage.name} took {wording.elapsed stage}s"
  | scanCompleted classes relationships =>
    s!"Scan completed: {classes} classes, {relationships} relationships in " ++
      s!"{wording.elapsed Stage.scan}s"
  | noSourceFiles => "No source files found"
  | fileUnavailable path => s!"File not accessible: {path}"
  | fileUndecodable path => s!"Error reading file {path}: {wording.decodeError}"
  | readingFailed path reason => s!"Error parsing {path}: {reason}"
  | noClassFound path => s!"No class declaration found in {path}"
  | filesWithoutClass count => s!"{count} files produced no class model"
  | miningSkipped path reason => s!"Skipping {path} for usage mining: {reason}"
  | methodUsagesFound count className methodName =>
    s!"Found {count} usages of {className}.{methodName}"
  | classUsagesFound count className => s!"Found {count} class usages of {className}"
  | examplesCollected className methodName real synthetic =>
    s!"{className}.{methodName}: {real} real, {synthetic} synthetic examples"

def line (wording : Wording) (e : Event) : String := e.severity.name ++ " " ++ e.message wording

end Event

/-- The events that a level lets through. -/
def recorded (rank : Nat) (events : List Event) : List Event :=
  events.filter fun e => decide (threshold rank ≤ e.severity.rank)

end ClassAtlas.Log
