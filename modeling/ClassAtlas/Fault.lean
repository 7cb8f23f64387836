import ClassAtlas.Text.Quoted

/-! What can go wrong, and the words for it. -/

namespace ClassAtlas

/-- The settings and attributes that take one of a few names. -/
inductive Choice where
  | callResolution
  | usageAcceptance
  | relationshipKind
  | targetKind
deriving DecidableEq

def Choice.title : Choice → String
  | .callResolution => "CallResolution"
  | .usageAcceptance => "UsageAcceptance"
  | .relationshipKind => "RelationshipKind"
  | .targetKind => "TargetKind"

inductive Fault where
  | tooFewWorkers
  | negativeRadius
  | unknownLevel (name : String)
  /-- A value, as messages spell it, that is none of the names of a choice. -/
  | notAChoice (shown : String) (choice : Choice)
  | notAnInteger (text : String)
  | notAnObject
  | unknownSetting (name : String)
  | wrongType (setting : String)
  | levelNotText
  | malformedJson
  | undecodable
  | noSuchFile
  | isDirectory
  | notDirectory
deriving DecidableEq

/-- The longest spelling of a text that a message about a number quotes. -/
def quotationLimit : Nat := 200

def Fault.message : Fault → String
  | .tooFewWorkers => "max_workers must be at least 1"
  | .negativeRadius => "context_radius must not be negative"
  | .unknownLevel name => "Unknown log level: " ++ name
  | .notAChoice shown choice => shown ++ " is not a valid " ++ choice.title
  | .notAnInteger text =>
    "invalid literal for int() with base 10: " ++
      String.ofList ((Text.quoteChars text.toList).take quotationLimit)
  | .notAnObject => "the settings are not an object"
  | .unknownSetting name => "unknown setting: " ++ name
  | .wrongType setting => "value of the wrong type: " ++ setting
  | .levelNotText => "the log level is not a text"
  | .malformedJson => "malformed JSON"
  | .undecodable => "not valid UTF-8"
  | .noSuchFile => "no such file"
  | .isDirectory => "is a directory"
  | .notDirectory => "not a directory"

end ClassAtlas
