import ClassAtlas.Log.Level
import ClassAtlas.Settings.Value

/-! The configuration from the options that are given and from the environment, and the settings
that a scan takes from it. -/

namespace ClassAtlas

/-- The options that the environment overrides. -/
structure Environment where
  logLevel : Option String
  maxWorkers : Option String
  callResolution : Option String
  usageAcceptance : Option String

namespace Environment

def empty : Environment := ⟨none, none, none, none⟩

def logLevelVariable : String := "STRUCTURE_MAPPER_LOG_LEVEL"

def maxWorkersVariable : String := "STRUCTURE_MAPPER_MAX_WORKERS"

def callResolutionVariable : String := "STRUCTURE_MAPPER_CALL_RESOLUTION"

def usageAcceptanceVariable : String := "STRUCTURE_MAPPER_USAGE_ACCEPTANCE"

def variableNames : List String :=
  [logLevelVariable, maxWorkersVariable, callResolutionVariable, usageAcceptanceVariable]

/-- An empty variable counts as unset. -/
def ofVariables (value? : String → Option String) : Environment :=
  let given? := fun name => (value? name).filter (!·.isEmpty)
  { logLevel := given? logLevelVariable
    maxWorkers := given? maxWorkersVariable
    callResolution := given? callResolutionVariable
    usageAcceptance := given? usageAcceptanceVariable }

end Environment

namespace Settings

def names : List String :=
  ["method_annotation_window", "field_annotation_window", "context_radius",
   "class_usage_limit", "common_parameter_count", "call_resolution", "usage_acceptance",
   "max_workers", "log_level", "java_file_suffix"]

def limitToJson : Option Int → Json := Json.ofOption Json.int

def toJson (s : Settings) : Json :=
  .object
    [("method_annotation_window", limitToJson s.methodWindow),
     ("field_annotation_window", limitToJson s.fieldWindow),
     ("context_radius", .ofNat s.contextRadius),
     ("class_usage_limit", limitToJson s.classUsageLimit),
     ("common_parameter_count", limitToJson s.commonParameterCount),
     ("call_resolution", .string s.callResolution.name),
     ("usage_acceptance", .string s.usageAcceptance.name),
     ("max_workers", .ofNat s.maxWorkers),
     ("log_level", .string s.logLevel),
     ("java_file_suffix", .string s.fileSuffix)]

/-- One of a few names. -/
def choiceOf {α : Type} (choice : Choice) (ofName? : String → Option α) (value : OptionValue) :
    Except Fault α :=
  let found :=
    match value with
    | .string name => ofName? name
    | _ => none
  match found with
  | some a => .ok a
  | none => .error (.notAChoice value.display choice)

end Settings

/-! ### The configuration -/

/-- Options by name. -/
abbrev Options := List (String × OptionValue)

namespace Options

def ofJson : Json → Except Fault Options
  | .object members => .ok (OptionValue.ofMembers [] members)
  | _ => .error .notAnObject

def defaults : Options :=
  match (Settings.default.toJson : OptionValue) with
  | .object members => members
  | _ => []

/-- The value that is given, or else the default. -/
def value (options : Options) (name : String) : OptionValue :=
  ((options.lookup name).or (defaults.lookup name)).getD .null

end Options

/-- The options as they are kept. Those of a few names stand for what they name, the level is in
capitals, and two values are not below their bounds. Nothing else is known of the values. -/
structure Config where
  methodWindow : OptionValue
  fieldWindow : OptionValue
  contextRadius : OptionValue
  classUsageLimit : OptionValue
  commonParameterCount : OptionValue
  callResolution : CallResolution
  usageAcceptance : UsageAcceptance
  maxWorkers : OptionValue
  logLevel : String
  fileSuffix : OptionValue

namespace Config

def toOptions (c : Config) : Options :=
  [("method_annotation_window", c.methodWindow),
   ("field_annotation_window", c.fieldWindow),
   ("context_radius", c.contextRadius),
   ("class_usage_limit", c.classUsageLimit),
   ("common_parameter_count", c.commonParameterCount),
   ("call_resolution", .string c.callResolution.name),
   ("usage_acceptance", .string c.usageAcceptance.name),
   ("max_workers", c.maxWorkers),
   ("log_level", .string c.logLevel),
   ("java_file_suffix", c.fileSuffix)]

/-- What is handed over itself, or else what is named. -/
def chosen {α : Type} (choice : Choice) (given? : OptionValue → Option α)
    (ofName? : String → Option α) (value : OptionValue) : Except Fault α :=
  match given? value with
  | some a => .ok a
  | none => Settings.choiceOf choice ofName? value

def callResolutionOf : OptionValue → Except Fault CallResolution :=
  chosen .callResolution (·.callResolution?) CallResolution.ofName?

def usageAcceptanceOf : OptionValue → Except Fault UsageAcceptance :=
  chosen .usageAcceptance (·.usageAcceptance?) UsageAcceptance.ofName?

/-- The level's name in capitals, if it names a level. -/
def levelOf : OptionValue → Except Fault String
  | .string name => do
    let level := Text.upper name
    let _ ← Log.rankOf level
    return level
  | _ => .error .levelNotText

/-- The worker count that the environment sets, if it sets one. -/
def workersOf (env : Environment) (value : OptionValue) : Except Fault OptionValue :=
  match env.maxWorkers with
  | none => .ok value
  | some text =>
    match Text.int? text with
    | some n => .ok (.int n)
    | none => .error (.notAnInteger text)

def overridden (value : OptionValue) : Option String → OptionValue
  | some text => .string text
  | none => value

/-- A value that can be compared with numbers and is not below `least`. -/
def notBelow (option : String) (least : Nat) (tooSmall : Fault) (value : OptionValue) :
    Except Fault OptionValue :=
  match value.below? least with
  | none => .error (.wrongType option)
  | some true => .error tooSmall
  | some false => .ok value

/-- The configuration that the options give, with the defaults for those that they leave out. -/
def ofOptions (env : Environment) (options : Options) : Except Fault Config := do
  match options.find? fun (name, _) => !Settings.names.contains name with
  | some (name, _) => throw (.unknownSetting name)
  | none => pure ()
  let workers ← workersOf env (options.value "max_workers")
  let callResolution ←
    callResolutionOf (overridden (options.value "call_resolution") env.callResolution)
  let usageAcceptance ←
    usageAcceptanceOf (overridden (options.value "usage_acceptance") env.usageAcceptance)
  let logLevel ← levelOf (overridden (options.value "log_level") env.logLevel)
  let maxWorkers ← notBelow "max_workers" 1 .tooFewWorkers workers
  let contextRadius ← notBelow "context_radius" 0 .negativeRadius (options.value "context_radius")
  return {
    methodWindow := options.value "method_annotation_window"
    fieldWindow := options.value "field_annotation_window"
    contextRadius
    classUsageLimit := options.value "class_usage_limit"
    commonParameterCount := options.value "common_parameter_count"
    callResolution
    usageAcceptance
    maxWorkers
    logLevel
    fileSuffix := options.value "java_file_suffix" }

/-! ### The settings of a scan -/

/-- A number of characters, lines or items, or nothing for no limit. -/
def limitOf (option : String) : OptionValue → Except Fault (Option Int)
  | .null => .ok none
  | value =>
    match value.whole? with
    | some n => .ok (some n)
    | none => .error (.wrongType option)

def countOf (option : String) (value : OptionValue) : Except Fault Nat :=
  match value.whole? with
  | some n => .ok n.toNat
  | none => .error (.wrongType option)

/-- How many workers a pool starts: one more as long as it has fewer than the value. -/
def workerCount : OptionValue → Except Fault Nat
  | .real x => .ok (if 1 < x then x.ceil.toUInt64.toNat else 1)
  | value => countOf "max_workers" value

/-- The settings of a scan. Where characters, lines or items are counted, only whole numbers will
do. -/
def settings (c : Config) : Except Fault Settings := do
  return {
    methodWindow := ← limitOf "method_annotation_window" c.methodWindow
    fieldWindow := ← limitOf "field_annotation_window" c.fieldWindow
    contextRadius := ← countOf "context_radius" c.contextRadius
    classUsageLimit := ← limitOf "class_usage_limit" c.classUsageLimit
    commonParameterCount := ← limitOf "common_parameter_count" c.commonParameterCount
    callResolution := c.callResolution
    usageAcceptance := c.usageAcceptance
    maxWorkers := ← workerCount c.maxWorkers
    logLevel := c.logLevel
    fileSuffix := c.fileSuffix.text }

end Config

def Settings.ofJson (env : Environment) (json : Json) : Except Fault Settings := do
  let options ← Options.ofJson json
  (← Config.ofOptions env options).settings

end ClassAtlas
