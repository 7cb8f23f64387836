import ClassAtlas.Command.Run

/-! The command line on the files of this machine. -/

namespace ClassAtlas.Command

/-- The place that a path leads to from a directory, by its text alone. -/
def placeByText (directory : Disk.Place) (path : String) : Disk.Place :=
  (Disk.steps path).foldl
    (fun place part => if part == ".." then place.dropLast else place ++ [part])
    (if Disk.isAbsolute path then [] else directory)

def fileName (place : Disk.Place) : String := Disk.pathText true place

/-- Adds what stands at a place of this machine to a disk. -/
partial def gather (disk : Disk) (place : Disk.Place) : IO Disk := do
  let path := (← IO.currentDir) / fileName place
  if ← path.isDir then
    let mut disk := { disk with directories := place :: disk.directories }
    for entry in ← path.readDir do
      disk ← gather disk (place ++ [entry.fileName])
    return disk
  else if ← path.pathExists then
    return { disk with files := Disk.setFile place (← IO.FS.readBinFile path) disk.files }
  else
    return disk

/-- The disk as far as a command line can reach it. -/
def reachableDisk (args : List String) : IO Disk := do
  let home := Disk.steps (← IO.currentDir).toString
  let disk : Disk := ⟨[], [], home⟩
  match Request.ofArguments? args with
  | none => return disk
  | some request =>
    let inputs := request.settingsFile.toList ++ request.paths
    let disk ← (inputs.map (placeByText home)).eraseDups.foldlM gather disk
    match request.query.output? with
    | none => return disk
    | some path =>
      let place := placeByText home path
      let directory := (← IO.currentDir) / fileName place.dropLast
      if ← directory.isDir then
        return { disk with directories := place.dropLast :: disk.directories }
      else return disk

def environment : IO Environment := do
  let mut present : List (String × String) := []
  for name in Environment.variableNames do
    if let some value ← IO.getEnv name then
      present := (name, value) :: present
  return .ofVariables fun name => present.lookup name

/-- Milliseconds as seconds with three decimals. -/
def seconds (milliseconds : Nat) : String :=
  let decimals := toString (1000 + milliseconds % 1000)
  toString (milliseconds / 1000) ++ "." ++ String.ofList (decimals.toList.drop 1)

end ClassAtlas.Command

open ClassAtlas

def main (args : List String) : IO UInt32 := do
  let env ← Command.environment
  let disk ← Command.reachableDisk args
  let start ← IO.monoMsNow
  let outcome := Command.execute env disk args
  IO.print outcome.output
  let elapsed := Command.seconds ((← IO.monoMsNow) - start)
  for event in outcome.events do
    IO.eprintln (event.line ⟨fun _ => elapsed, Fault.undecodable.message⟩)
  for (place, bytes) in outcome.disk.changedSince disk do
    IO.FS.writeBinFile (Command.fileName place) bytes
  match outcome.status with
  | .ok status => return status.toUInt32
  | .error fault =>
    IO.eprintln fault.message
    return 1
