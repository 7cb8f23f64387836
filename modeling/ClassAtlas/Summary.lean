import ClassAtlas.Json.Value
import ClassAtlas.Model.Basic
import ClassAtlas.Tally

/-! The architecture of a project at a glance. -/

namespace ClassAtlas

inductive Group where
  | controllers
  | services
  | repositories
  | entities
  | components
deriving DecidableEq

namespace Group

def all : List Group := [controllers, services, repositories, entities, components]

def name : Group → String
  | controllers => "controllers"
  | services => "services"
  | repositories => "repositories"
  | entities => "entities"
  | components => "components"

/-- The group of a class's foremost role. Without a role, a class with more fields than methods
holds data. -/
def ofClass (c : JavaClass) : Group :=
  let plays := fun role => c.rolePatterns.any (·.role == role)
  if plays "CONTROLLER" || plays "REST_CONTROLLER" then controllers
  else if plays "SERVICE" then services
  else if plays "REPOSITORY" then repositories
  else if plays "ENTITY" then entities
  else if !c.rolePatterns.isEmpty then components
  else if c.methods.length < c.fields.length then entities
  else components

end Group

structure Summary where
  /-- The names of the classes in each group. -/
  layers : List (Group × List String)
  /-- How often each layer occurs among the roles. -/
  layerDistribution : List (String × Nat)
  totalClasses : Nat
  relationships : Nat
  relationshipsByKind : List (RelationshipKind × Nat)
  endpoints : Nat

def Atlas.summary (atlas : Atlas) : Summary where
  layers := Group.all.map fun group =>
    (group, (atlas.classes.filter (Group.ofClass · == group)).map (·.name))
  layerDistribution := tally (atlas.classes.flatMap fun c => c.rolePatterns.map (·.layer))
  totalClasses := atlas.classes.length
  relationships := atlas.relationships.length
  relationshipsByKind := RelationshipKind.all.map fun kind => (kind, (atlas.ofKind kind).length)
  endpoints := (atlas.classes.flatMap (·.endpoints)).length

def Summary.statistics (s : Summary) : Json :=
  .object <|
    [("total_classes", .ofNat s.totalClasses)] ++
    s.layers.map (fun (group, names) => (group.name, .ofNat names.length)) ++
    [("relationships", .ofNat s.relationships),
     ("relationships_by_kind",
       .object (s.relationshipsByKind.map fun (kind, count) => (kind.name, .ofNat count))),
     ("endpoints", .ofNat s.endpoints)]

def Summary.toJson (s : Summary) : Json :=
  .object
    [("layers", .object (s.layers.map fun (group, names) => (group.name, .strings names))),
     ("layer_distribution",
       .object (s.layerDistribution.map fun (layer, count) => (layer, .ofNat count))),
     ("stats", s.statistics)]

end ClassAtlas
