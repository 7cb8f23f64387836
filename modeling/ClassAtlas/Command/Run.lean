import ClassAtlas.Command.Request
import ClassAtlas.Disk.Expand
import ClassAtlas.Disk.SettingsFile
import ClassAtlas.Graph.Markup
import ClassAtlas.Model.Encode
import ClassAtlas.Project.Scan
import ClassAtlas.Summary
import ClassAtlas.Usage.Mining

/-! Running a command line on a disk. -/

namespace ClassAtlas.Command

open Log

/-- What a run leaves behind. -/
structure Outcome where
  /-- The exit status, unless the run broke off. -/
  status : Except Fault Nat
  /-- What was printed. -/
  output : String
  disk : Disk
  /-- The events that were recorded. -/
  events : List Event

/-- The exit status of a misused command line. -/
def misuseStatus : Nat := 2

def escapedStyle : Json.Style := ⟨true, some 2⟩

def rawStyle : Json.Style := ⟨false, some 2⟩

def usagesText (usages : List Usage) : String :=
  (Json.array (usages.map Usage.toJson)).write rawStyle

/-- The text that answers a query on an atlas. -/
def answer (settings : Settings) (load : Loader) (atlas : Atlas) : Query → Logged String
  | .scan .json _ => return atlas.write (some 2)
  | .scan .graphml _ => return (Graph.Multigraph.ofAtlas atlas).markup
  | .usages className methodName => do
    return usagesText (← Usage.methodUsages settings load atlas className methodName)
  | .classUsages className => do
    return usagesText (← Usage.classUsages settings load atlas className)
  | .stats className methodName => do
    return (← Usage.methodStats settings load atlas className methodName).toJson.write escapedStyle
  | .summary => return atlas.summary.toJson.write escapedStyle

def Query.output? : Query → Option String
  | .scan _ output => output
  | _ => none

/-- The scan of the sources that the paths stand for, and the answer to the query on it. -/
def scanAndAnswer (settings : Settings) (disk : Disk) (request : Request) : Logged String := do
  let files := disk.expandPaths settings.fileSuffix request.paths
  if files.isEmpty then record .noSourceFiles
  let atlas ← Project.scan settings disk.load .inOrder files
  answer settings disk.load atlas request.query

def settingsOf (env : Environment) (disk : Disk) (request : Request) : Except Fault Settings := do
  let settings ←
    match request.settingsFile with
    | some path => disk.readSettings env path
    | none => Settings.ofJson env (.object [])
  return { settings with logLevel := request.logLevel.getD settings.logLevel }

def run (env : Environment) (disk : Disk) (request : Request) : Outcome :=
  let prepared : Except Fault (Settings × Nat) := do
    let settings ← settingsOf env disk request
    return (settings, ← rankOf settings.logLevel)
  match prepared with
  | .error fault => ⟨.error fault, "", disk, []⟩
  | .ok (settings, rank) =>
    let answered := scanAndAnswer settings disk request
    let events := recorded rank answered.events
    match request.query.output? with
    | none => ⟨.ok 0, answered.value ++ "\n", disk, events⟩
    | some path =>
      match disk.writeText path answered.value with
      | .ok disk => ⟨.ok 0, "", disk, events⟩
      | .error fault => ⟨.error fault, "", disk, events⟩

/-- Runs a command line; nothing happens when it is misused. -/
def execute (env : Environment) (disk : Disk) (args : List String) : Outcome :=
  match Request.ofArguments? args with
  | some request => run env disk request
  | none => ⟨.ok misuseStatus, "", disk, []⟩

end ClassAtlas.Command
