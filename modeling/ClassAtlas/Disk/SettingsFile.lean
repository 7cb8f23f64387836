import ClassAtlas.Disk.Basic
import ClassAtlas.Json.Read
import ClassAtlas.Settings.Load

/-! Settings in a file. -/

namespace ClassAtlas.Disk

def readConfig (disk : Disk) (env : Environment) (path : String) : Except Fault Config := do
  let bytes ← disk.readBytes path
  let text ← (decode? bytes).elim (.error .undecodable) .ok
  let json ← (Json.read? text).elim (.error .malformedJson) .ok
  Config.ofOptions env (← Options.ofJson json)

def readSettings (disk : Disk) (env : Environment) (path : String) : Except Fault Settings := do
  (← disk.readConfig env path).settings

end ClassAtlas.Disk
