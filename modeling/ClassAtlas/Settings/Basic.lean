/-! The settings of a scan and of the queries on it. -/

namespace ClassAtlas

/-- How a called name is resolved to a class. -/
inductive CallResolution where
  /-- The first other class that declares it. -/
  | firstMatch
  /-- The only other class that declares it. -/
  | uniqueMatch
deriving DecidableEq

namespace CallResolution

def all : List CallResolution := [.firstMatch, .uniqueMatch]

def name : CallResolution → String
  | .firstMatch => "first_match"
  | .uniqueMatch => "unique_match"

def ofName? (name : String) : Option CallResolution := all.find? (·.name == name)

end CallResolution

/-- Which lines count as calls of a method. -/
inductive UsageAcceptance where
  /-- Lines with the class's name or any member access. -/
  | permissive
  /-- Calls that the class's name, its instance's name or `this` qualifies. -/
  | strict
deriving DecidableEq

namespace UsageAcceptance

def all : List UsageAcceptance := [.permissive, .strict]

def name : UsageAcceptance → String
  | .permissive => "permissive"
  | .strict => "strict"

def ofName? (name : String) : Option UsageAcceptance := all.find? (·.name == name)

end UsageAcceptance

structure Settings where
  /-- How many characters before a method are searched for its annotations. -/
  methodWindow : Option Int
  /-- How many characters before a field are searched for its annotations. -/
  fieldWindow : Option Int
  /-- How many lines are shown on each side of a usage. -/
  contextRadius : Nat
  /-- Where the list of a class's usages is cut off; a negative limit counts from its end. -/
  classUsageLimit : Option Int
  /-- How many of the most frequent arguments are reported. -/
  commonParameterCount : Option Int
  callResolution : CallResolution
  usageAcceptance : UsageAcceptance
  maxWorkers : Nat
  logLevel : String
  fileSuffix : String
deriving DecidableEq

def Settings.default : Settings where
  methodWindow := some 500
  fieldWindow := some 200
  contextRadius := 2
  classUsageLimit := some 5
  commonParameterCount := some 3
  callResolution := .firstMatch
  usageAcceptance := .permissive
  maxWorkers := 1
  logLevel := "INFO"
  fileSuffix := ".java"

end ClassAtlas
