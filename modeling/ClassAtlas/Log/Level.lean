import ClassAtlas.Fault
import ClassAtlas.Text.Case

/-! Log levels: their names, ranks and the threshold that they set. -/

namespace ClassAtlas.Log

def levelRanks : List (String × Nat) :=
  [("CRITICAL", 50), ("FATAL", 50), ("ERROR", 40), ("WARNING", 30), ("WARN", 30), ("INFO", 20),
   ("DEBUG", 10), ("NOTSET", 0)]

/-- The rank of a level, whose name may be written in any case. -/
def rankOf (name : String) : Except Fault Nat :=
  match levelRanks.lookup (Text.upper name) with
  | some rank => .ok rank
  | none => .error (.unknownLevel name)

inductive Severity where
  | debug
  | info
  | warning
  | error
deriving DecidableEq

def Severity.rank : Severity → Nat
  | .debug => 10
  | .info => 20
  | .warning => 30
  | .error => 40

def Severity.name : Severity → String
  | .debug => "DEBUG"
  | .info => "INFO"
  | .warning => "WARNING"
  | .error => "ERROR"

/-- The least rank that is recorded. A level of rank zero sets no threshold of its own, and then
warnings are the least. -/
def threshold (rank : Nat) : Nat := if rank = 0 then Severity.warning.rank else rank

end ClassAtlas.Log
