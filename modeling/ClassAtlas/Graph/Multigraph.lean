import ClassAtlas.Graph.Library
import ClassAtlas.Json.Value

/-! Directed multigraphs whose nodes are told apart by their names. -/

namespace ClassAtlas.Graph

structure Multigraph where
  nodes : List Node
  /-- The edges in the order in which they were added. -/
  added : List Edge
  nodup : (nodes.map (·.name)).Nodup
  source_mem : ∀ e ∈ added, e.source ∈ nodes.map (·.name)

namespace Multigraph

def empty : Multigraph := ⟨[], [], List.nodup_nil, by simp⟩

def hasNode (g : Multigraph) (name : String) : Bool := decide (name ∈ g.nodes.map (·.name))

/-- A node that is there takes the attributes, and a new one stands behind the others. -/
def addNode (g : Multigraph) (name : String) (attributes : Attributes) : Multigraph :=
  if h : g.hasNode name = true then
    { g with
      nodes := g.nodes.map (Node.updateNamed name attributes)
      nodup := by simpa [Function.comp_def] using g.nodup
      source_mem := by simpa [Function.comp_def] using g.source_mem }
  else
    { g with
      nodes := g.nodes ++ [⟨name, attributes⟩]
      nodup := by
        rw [List.map_append, List.nodup_append]
        refine ⟨g.nodup, by simp, ?_⟩
        intro a ha b hb heq
        obtain rfl : b = name := List.mem_singleton.1 hb
        rw [hasNode, decide_eq_true_eq] at h
        exact h (heq ▸ ha)
      source_mem := by
        intro e he
        rw [List.map_append]
        exact List.mem_append_left _ (g.source_mem e he) }

theorem mem_addNode {g : Multigraph} {name other : String} {attributes : Attributes} :
    other ∈ (g.addNode name attributes).nodes.map (·.name) ↔
      other ∈ g.nodes.map (·.name) ∨ other = name := by
  unfold addNode
  split
  · next h =>
    rw [hasNode, decide_eq_true_eq] at h
    have hnames : (g.nodes.map (Node.updateNamed name attributes)).map (·.name) =
        g.nodes.map (·.name) := by simp [Function.comp_def]
    rw [hnames]
    exact ⟨.inl, fun hother => hother.elim id fun heq => heq ▸ h⟩
  · simp

/-- Adds a node without attributes unless there is one of that name. -/
def ensureNode (g : Multigraph) (name : String) : Multigraph :=
  if g.hasNode name then g else g.addNode name []

theorem mem_ensureNode {g : Multigraph} {name other : String} :
    other ∈ (g.ensureNode name).nodes.map (·.name) ↔
      other ∈ g.nodes.map (·.name) ∨ other = name := by
  unfold ensureNode
  split
  · next h =>
    rw [hasNode, decide_eq_true_eq] at h
    exact ⟨.inl, fun hother => hother.elim id fun heq => heq ▸ h⟩
  · exact mem_addNode

/-- The new edge is numbered by those between the same nodes. -/
def addEdge (g : Multigraph) (source target : String) (attributes : Attributes) : Multigraph :=
  let key := (g.added.filter fun e => e.source == source && e.target == target).length
  let ends := (g.ensureNode source).ensureNode target
  { ends with
    added := ends.added ++ [⟨source, target, key, attributes⟩]
    source_mem := by
      intro e he
      rcases List.mem_append.1 he with he | he
      · exact ends.source_mem e he
      · rw [List.mem_singleton.1 he]
        exact mem_ensureNode.2 (.inl (mem_ensureNode.2 (.inr rfl))) }

/-- The edges that leave a node, target by target. -/
def edgesFrom (g : Multigraph) (source : String) : List Edge :=
  let leaving := g.added.filter (·.source == source)
  (leaving.map (·.target)).eraseDups.flatMap fun target => leaving.filter (·.target == target)

/-- The edges of all nodes, node by node. -/
def edges (g : Multigraph) : List Edge := g.nodes.flatMap fun node => g.edgesFrom node.name

def library : Library Multigraph := ⟨empty, addNode, hasNode, addEdge, nodes, edges⟩

def ofAtlas (atlas : Atlas) : Multigraph := library.ofAtlas atlas

end Multigraph

/-! ### JSON -/

def Attribute.toJson : Attribute → Json
  | text s => .string s
  | flag b => .bool b

def attributesToJson (attributes : Attributes) : Json :=
  .object (attributes.map fun (name, value) => (name, value.toJson))

def Multigraph.toJson (g : Multigraph) : Json :=
  .object
    [("nodes", .array (g.nodes.map fun node =>
        .array [.string node.name, attributesToJson node.attributes])),
     ("edges", .array (g.edges.map fun edge =>
        .array [.string edge.source, .string edge.target, .ofNat edge.key,
          attributesToJson edge.attributes]))]

end ClassAtlas.Graph
