import ClassAtlas.Json.Value
import ClassAtlas.Text.Case

/-! Usages of classes and methods, found or made up. -/

namespace ClassAtlas

/-- A line of another class's source that uses a class or a method. -/
structure Usage where
  sourceFile : String
  sourceClass : String
  methodName : String
  /-- Counted from one. -/
  lineNumber : Nat
  snippet : String
  context : String
  parameters : List String
deriving DecidableEq

def Usage.toJson (u : Usage) : Json :=
  .object
    [("source_file", .string u.sourceFile), ("source_class", .string u.sourceClass),
     ("method_name", .string u.methodName), ("line_number", .ofNat u.lineNumber),
     ("code_snippet", .string u.snippet), ("context", .string u.context),
     ("parameters", .strings u.parameters)]

structure UsageStats where
  usageCount : Nat
  commonParameters : List String
deriving DecidableEq

def UsageStats.toJson (s : UsageStats) : Json :=
  .object
    [("usage_count", .ofNat s.usageCount), ("common_parameters", .strings s.commonParameters)]

/-- An example that is written from the declaration alone. -/
structure Sample where
  methodName : String
  snippet : String
  description : String
  context : String
  parameters : List String
deriving DecidableEq

def Sample.toJson (s : Sample) : Json :=
  .object
    [("method_name", .string s.methodName), ("code_snippet", .string s.snippet),
     ("description", .string s.description), ("context", .string s.context),
     ("parameters", .strings s.parameters)]

/-- Usages that were found, or samples where there are none. -/
structure Examples where
  real : List Usage
  synthetic : List Sample
deriving DecidableEq

def Examples.toJson (e : Examples) : Json :=
  .object
    [("real", .array (e.real.map Usage.toJson)),
     ("synthetic", .array (e.synthetic.map Sample.toJson))]

/-- The usual name of an instance: the class's name with a small first letter. -/
def instanceName (className : String) : String :=
  match className.toList with
  | [] => ""
  | c :: rest => String.ofList (Text.lowerChars [c] ++ rest)

end ClassAtlas
