import ClassAtlas.Entries
import ClassAtlas.Model.Basic

/-! The graph of an atlas, built over a library of directed multigraphs: one node for each name, one
edge for each relationship. -/

namespace ClassAtlas.Graph

inductive Attribute where
  | text (s : String)
  | flag (b : Bool)
deriving DecidableEq

/-- Attributes by name, in the order in which the names were first given. -/
abbrev Attributes := List (String × Attribute)

structure Node where
  name : String
  attributes : Attributes
deriving DecidableEq

/-- The key tells apart the edges between two nodes. -/
structure Edge where
  source : String
  target : String
  key : Nat
  attributes : Attributes
deriving DecidableEq

def Attributes.update (attributes new : Attributes) : Attributes :=
  new.foldl setEntry attributes

/-- A node of the name takes new attributes, and any other stays as it is. -/
def Node.updateNamed (name : String) (attributes : Attributes) (node : Node) : Node :=
  if node.name = name then { node with attributes := node.attributes.update attributes } else node

@[simp] theorem Node.name_updateNamed (name : String) (attributes : Attributes) (node : Node) :
    (node.updateNamed name attributes).name = node.name := by
  unfold updateNamed
  split <;> rfl

/-- What a library of directed multigraphs offers to build a graph and to look at it. -/
structure Library (γ : Type) where
  empty : γ
  /-- Adds a node, or gives the attributes to the node of that name. -/
  addNode : γ → String → Attributes → γ
  hasNode : γ → String → Bool
  /-- Adds one more edge from the first node to the second. -/
  addEdge : γ → String → String → Attributes → γ
  nodes : γ → List Node
  edges : γ → List Edge

namespace Library

variable {γ : Type} (lib : Library γ)

/-- Adds a node unless there is one of that name. -/
def addMissing (g : γ) (name : String) (attributes : Attributes) : γ :=
  if lib.hasNode g name then g else lib.addNode g name attributes

/-- The edges from one node to another, in the order in which the library shows them. -/
def between (g : γ) (source target : String) : List Edge :=
  (lib.edges g).filter fun e => e.source == source && e.target == target

/-- How a library of multigraphs behaves. Nodes stand in the order in which they were added. A node
that is added again keeps its place, and its attributes are updated. An edge brings in its missing
ends, the source first, and parallel edges are numbered from zero in the order in which they were
added. -/
structure Lawful : Prop where
  nodes_empty : lib.nodes lib.empty = []
  edges_empty : lib.edges lib.empty = []
  hasNode_iff : ∀ g name, lib.hasNode g name = true ↔ name ∈ (lib.nodes g).map (·.name)
  nodes_addNode_new : ∀ g name attributes, lib.hasNode g name = false →
    lib.nodes (lib.addNode g name attributes) = lib.nodes g ++ [⟨name, attributes⟩]
  nodes_addNode_old : ∀ g name attributes, lib.hasNode g name = true →
    lib.nodes (lib.addNode g name attributes) =
      (lib.nodes g).map (Node.updateNamed name attributes)
  between_addNode : ∀ g name attributes source target,
    lib.between (lib.addNode g name attributes) source target = lib.between g source target
  nodes_addEdge : ∀ g source target attributes,
    lib.nodes (lib.addEdge g source target attributes) =
      lib.nodes (lib.addMissing (lib.addMissing g source []) target [])
  between_addEdge_same : ∀ g source target attributes,
    lib.between (lib.addEdge g source target attributes) source target =
      lib.between g source target ++
        [⟨source, target, (lib.between g source target).length, attributes⟩]
  between_addEdge_other : ∀ g source target attributes source' target',
    (source', target') ≠ (source, target) →
      lib.between (lib.addEdge g source target attributes) source' target' =
        lib.between g source' target'

end Library

/-! ### The graph of an atlas -/

def classAttributes (c : JavaClass) : Attributes :=
  [("type", .text "class"), ("package", .text c.package), ("file_path", .text c.filePath),
   ("is_controller", .flag c.isController),
   ("roles", .text (",".intercalate (c.rolePatterns.map (·.role))))]

def externalAttributes : Attributes := [("type", .text "external")]

def relationshipAttributes (r : Relationship) : Attributes :=
  [("type", .text r.kind.name), ("method", .text (r.method.getD "")),
   ("resolved", .flag r.isResolved)]

namespace Library

variable {γ : Type} (lib : Library γ)

def addClass (g : γ) (c : JavaClass) : γ := lib.addNode g c.name (classAttributes c)

/-- A target without a node is external. -/
def addRelationship (g : γ) (r : Relationship) : γ :=
  let g := lib.addMissing g r.target externalAttributes
  lib.addEdge g r.source r.target (relationshipAttributes r)

/-- All classes are added before the first relationship. -/
def ofAtlas (atlas : Atlas) : γ :=
  let classes := atlas.classes.foldl lib.addClass lib.empty
  atlas.relationships.foldl lib.addRelationship classes

end Library

end ClassAtlas.Graph
