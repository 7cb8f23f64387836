import ClassAtlas.NameSet

/-! What is known about a scanned project: its classes, their members and roles, and the
relationships between them. -/

namespace ClassAtlas

structure Parameter where
  type : String
  name : String
deriving DecidableEq

/-- An HTTP operation that a method serves. -/
structure Endpoint where
  verb : String
  path : String
  produces : Option String
  consumes : Option String
  description : Option String
deriving DecidableEq

structure Field where
  name : String
  type : String
  visibility : String
  isStatic : Bool
  annotations : List String
deriving DecidableEq

/-- A method or a constructor; a constructor has an empty return type. The called names are not
resolved to any class. -/
structure Method where
  name : String
  returnType : String
  parameters : List Parameter
  annotations : List String
  visibility : String
  isStatic : Bool
  calls : NameSet
  endpoint : Option Endpoint
deriving DecidableEq

/-- A role that a class plays in the architecture, and the annotation that gives it the role. -/
structure RolePattern where
  role : String
  marker : String
  description : String
  layer : String
deriving DecidableEq

/-- A field that a container fills in. -/
structure Injection where
  fieldName : String
  fieldType : String
  injectionType : String
  marker : String
deriving DecidableEq

/-- The class that one source file declares. -/
structure JavaClass where
  name : String
  filePath : String
  package : String
  imports : List String
  annotations : List String
  base : Option String
  interfaces : List String
  fields : List Field
  methods : List Method
  dependencies : NameSet
  isController : Bool
  endpoints : List Endpoint
  rolePatterns : List RolePattern
  injections : List Injection
deriving DecidableEq

namespace JavaClass

def qualifiedName (c : JavaClass) : String :=
  if c.package.isEmpty then c.name else c.package ++ "." ++ c.name

def declaresMethod (c : JavaClass) (name : String) : Bool := c.methods.any (·.name == name)

end JavaClass

inductive RelationshipKind where
  | extends
  | implements
  | calls
  | injects
deriving DecidableEq

namespace RelationshipKind

def all : List RelationshipKind := [.extends, .implements, .calls, .injects]

def name : RelationshipKind → String
  | .extends => "extends"
  | .implements => "implements"
  | .calls => "calls"
  | .injects => "injects"

def ofName? (name : String) : Option RelationshipKind := all.find? (·.name == name)

theorem name_inj {a b : RelationshipKind} : a.name = b.name ↔ a = b := by
  cases a <;> cases b <;> decide

end RelationshipKind

/-- Whether the target of a relationship is one of the scanned classes. -/
inductive TargetKind where
  | internal
  | external
deriving DecidableEq

namespace TargetKind

def all : List TargetKind := [.internal, .external]

def name : TargetKind → String
  | .internal => "internal"
  | .external => "external"

def ofName? (name : String) : Option TargetKind := all.find? (·.name == name)

theorem name_inj {a b : TargetKind} : a.name = b.name ↔ a = b := by
  cases a <;> cases b <;> decide

end TargetKind

/-- A directed relationship; a call names the method it comes from. -/
structure Relationship where
  source : String
  target : String
  kind : RelationshipKind
  method : Option String
  targetKind : TargetKind
deriving DecidableEq

def Relationship.isResolved (r : Relationship) : Bool := r.targetKind == .internal

/-- The outcome of a scan. -/
structure Atlas where
  classes : List JavaClass
  relationships : List Relationship
deriving DecidableEq

namespace Atlas

def empty : Atlas := ⟨[], []⟩

def findClass? (atlas : Atlas) (name : String) : Option JavaClass :=
  atlas.classes.find? (·.name == name)

def ofKind (atlas : Atlas) (kind : RelationshipKind) : List Relationship :=
  atlas.relationships.filter (·.kind == kind)

end Atlas

end ClassAtlas
