import ClassAtlas.Command.Arguments
import ClassAtlas.Text.Case

/-! What a command line asks for. -/

namespace ClassAtlas.Command

inductive Format where
  | json
  | graphml
deriving DecidableEq

def Format.ofName? (name : String) : Option Format :=
  if name == "json" then some .json else if name == "graphml" then some .graphml else none

inductive Query where
  | scan (format : Format) (output : Option String)
  | usages (className methodName : String)
  | classUsages (className : String)
  | stats (className methodName : String)
  | summary
deriving DecidableEq

structure Request where
  settingsFile : Option String
  logLevel : Option String
  paths : List String
  query : Query
deriving DecidableEq

def globalOptions : List OptionSpec := [⟨"config", some 'c'⟩, ⟨"log-level", none⟩]

def logLevels : List String := ["DEBUG", "INFO", "WARNING", "ERROR", "CRITICAL"]

def queryOptions? (name : String) : Option (List OptionSpec) :=
  if name == "scan" then some [⟨"output", some 'o'⟩, ⟨"format", none⟩]
  else if name == "usages" || name == "stats" then some [⟨"class", none⟩, ⟨"method", none⟩]
  else if name == "class-usages" then some [⟨"class", none⟩]
  else if name == "summary" then some []
  else none

/-- Whether every value of an option is allowed. -/
def allowed (options : List (String × String)) (name : String) (valid : String → Bool) : Bool :=
  options.all fun (other, value) => other != name || valid value

/-- An empty value counts as not given. -/
def given? (options : List (String × String)) (name : String) : Option String :=
  (lastValue? options name).filter (!·.isEmpty)

def queryOf? (name : String) (options : List (String × String)) : Option Query :=
  if name == "scan" then
    if allowed options "format" fun value => (Format.ofName? value).isSome then
      some (.scan (((lastValue? options "format").bind Format.ofName?).getD .json)
        (given? options "output"))
    else none
  else if name == "usages" then do
    return .usages (← lastValue? options "class") (← lastValue? options "method")
  else if name == "class-usages" then do
    return .classUsages (← lastValue? options "class")
  else if name == "stats" then do
    return .stats (← lastValue? options "class") (← lastValue? options "method")
  else if name == "summary" then some .summary
  else none

/-- The request of a command line, unless it is misused. -/
def Request.ofArguments? (args : List String) : Option Request := do
  let (globals, rest) ← leadingOptions globalOptions none args
  let name ← rest.head?
  let specs ← queryOptions? name
  let (options, paths) ← mixedArguments specs .ahead none rest.tail
  let query ← queryOf? name options
  guard (!paths.isEmpty)
  guard (allowed globals "log-level" fun value => logLevels.contains (Text.upper value))
  return {
    settingsFile := given? globals "config"
    logLevel := (lastValue? globals "log-level").map Text.upper
    paths, query }

end ClassAtlas.Command
