import ClassAtlas.Project.Examples
import ClassAtlas.Project.Scan

/-! A session on a changing set of files: scans, and queries on the last scan. -/

namespace ClassAtlas

structure Session where
  settings : Settings
  /-- The files that have been set. -/
  files : List (String × Reading)
  /-- Where all other files are read. -/
  below : Loader
  /-- The outcome of the last scan. -/
  atlas : Atlas
  /-- The stages whose time has been taken. -/
  timed : List Log.Stage
  /-- The rank of the level that events are recorded at. -/
  logRank : Nat
  /-- The events recorded since they were last asked for. -/
  journal : List Log.Event

namespace Session

open Log

variable {α : Type}

/-- A session that reads all files through a loader. -/
def ofLoader (settings : Settings) (load : Loader) : Session where
  settings := settings
  files := []
  below := load
  atlas := .empty
  timed := []
  logRank := Severity.info.rank
  journal := []

/-- A session on the given files alone; any other file reads as absent. -/
def start (settings : Settings) (files : List (String × Reading)) : Session :=
  { ofLoader settings (fun _ => pure .absent) with files }

def load (s : Session) : Loader := fun path =>
  match s.files.lookup path with
  | some content => pure content
  | none => s.below path

def paths (s : Session) : List String := (NameSet.ofList (s.files.map (·.1))).toList

def setFile (s : Session) (path : String) (content : Reading) : Session :=
  { s with files := (path, content) :: s.files.filter (·.1 != path) }

def removeFile (s : Session) (path : String) : Session :=
  { s with files := s.files.filter (·.1 != path) }

/-- Adds the events that the level lets through to the journal. -/
def note (s : Session) (result : Logged α) : α × Session :=
  (result.value, { s with journal := s.journal ++ recorded s.logRank result.events })

def scan (s : Session) (paths : List String) : Atlas × Session :=
  let (found, s) := s.note (Project.scan s.settings s.load .inOrder paths)
  (found, { s with atlas := found, timed := Stage.all })

def classAt? (s : Session) (path : String) : Option JavaClass × Session :=
  s.note (Project.classAt? s.settings s.load path)

def methodUsages (s : Session) (className methodName : String) : List Usage × Session :=
  s.note (Usage.methodUsages s.settings s.load s.atlas className methodName)

def methodStats (s : Session) (className methodName : String) : UsageStats × Session :=
  s.note (Usage.methodStats s.settings s.load s.atlas className methodName)

def classUsages (s : Session) (className : String) : List Usage × Session :=
  s.note (Usage.classUsages s.settings s.load s.atlas className)

def methodExamples (s : Session) (className methodName : String) : Examples × Session :=
  s.note (Project.methodExamples s.settings s.load s.atlas className methodName)

def classExamples (s : Session) (className : String) : Examples × Session :=
  s.note (Project.classExamples s.settings s.load s.atlas className)

def setLogLevel (s : Session) (level : String) : Except Fault Session := do
  let rank ← rankOf level
  return { s with logRank := rank }

/-- Hands over the journal and starts a new one. -/
def takeJournal (s : Session) : List Event × Session := (s.journal, { s with journal := [] })

end Session

end ClassAtlas
