import ClassAtlas.Model.Basic
import ClassAtlas.Settings.Basic

/-! The relationships between classes. -/

namespace ClassAtlas.Graph

def known (classes : List JavaClass) (name : String) : Bool := classes.any (·.name == name)

def targetKind (classes : List JavaClass) (name : String) : TargetKind :=
  if known classes name then .internal else .external

/-- Whether a call of the name from a class may go to another class. -/
def isCandidate (source : JavaClass) (called : String) (c : JavaClass) : Bool :=
  c.name != source.name && c.declaresMethod called

/-- The candidate that a call is resolved to. -/
def pick? {α : Type} (resolution : CallResolution) (candidates : List α) : Option α :=
  match resolution, candidates with
  | _, [] => none
  | .firstMatch, c :: _ => some c
  | .uniqueMatch, [c] => some c
  | .uniqueMatch, _ => none

def callTarget? (resolution : CallResolution) (classes : List JavaClass) (source : JavaClass)
    (called : String) : Option JavaClass :=
  pick? resolution (classes.filter (isCandidate source called))

def extensionOf (classes : List JavaClass) (c : JavaClass) : List Relationship :=
  match c.base with
  | some base =>
    if base.isEmpty then [] else [⟨c.name, base, .extends, none, targetKind classes base⟩]
  | none => []

def implementationsOf (classes : List JavaClass) (c : JavaClass) : List Relationship :=
  c.interfaces.map fun name => ⟨c.name, name, .implements, none, targetKind classes name⟩

def callsOf (resolution : CallResolution) (classes : List JavaClass) (c : JavaClass) :
    List Relationship :=
  c.methods.flatMap fun m => m.calls.toList.filterMap fun called =>
    (callTarget? resolution classes c called).map fun target =>
      ⟨c.name, target.name, .calls, some m.name, .internal⟩

def injectionsOf (classes : List JavaClass) (c : JavaClass) : List Relationship :=
  c.injections.map fun i => ⟨c.name, i.fieldType, .injects, none, targetKind classes i.fieldType⟩

def relationshipsOf (resolution : CallResolution) (classes : List JavaClass) (c : JavaClass) :
    List Relationship :=
  extensionOf classes c ++ implementationsOf classes c ++ callsOf resolution classes c ++
    injectionsOf classes c

/-- The relationships of all classes, class by class. -/
def relationships (resolution : CallResolution) (classes : List JavaClass) :
    List Relationship :=
  classes.flatMap (relationshipsOf resolution classes)

end ClassAtlas.Graph
