import Mathlib.Data.List.Nodup
import ClassAtlas.Graph.Multigraph

/-! The multigraph keeps the laws of a library: what it shows between two nodes are the edges that
were added between them, in the order in which they were added. -/

namespace ClassAtlas.Graph

/-! ### Lists of groups -/

theorem nodup_eraseDups (names : List String) : names.eraseDups.Nodup := by
  induction hn : names.length using Nat.strongRecOn generalizing names with
  | _ n ih =>
    cases names with
    | nil => exact List.nodup_nil
    | cons name rest =>
      have hshort : (rest.filter fun other => !other == name).length < n := by
        rw [← hn, List.length_cons]
        exact Nat.lt_succ_of_le (List.length_filter_le _ _)
      rw [List.eraseDups_cons, List.nodup_cons, List.mem_eraseDups]
      exact ⟨by simp, ih _ hshort _ rfl⟩

/-- Lists that are told apart by keys are found again by their keys. -/
theorem filter_flatMap_key {κ β : Type} [DecidableEq κ] {keys : List κ} (hkeys : keys.Nodup)
    {f : κ → List β} {key : β → κ} (hf : ∀ k, ∀ b ∈ f k, key b = k) {k : κ}
    (hnone : k ∉ keys → f k = []) : (keys.flatMap f).filter (key · == k) = f k := by
  have hself : (f k).filter (key · == k) = f k :=
    List.filter_eq_self.2 fun b hb => beq_iff_eq.2 (hf k b hb)
  have hother : ∀ keys : List κ, k ∉ keys → (keys.flatMap f).filter (key · == k) = [] := by
    intro keys hk
    refine List.filter_eq_nil_iff.2 fun b hb heq => hk ?_
    obtain ⟨k', hk', hb⟩ := List.mem_flatMap.1 hb
    rw [← beq_iff_eq.1 heq, hf k' b hb]
    exact hk'
  by_cases hk : k ∈ keys
  · obtain ⟨before, after, rfl⟩ := List.append_of_mem hk
    have hnot : k ∉ before ++ after := (List.nodup_cons.1 (List.nodup_middle.1 hkeys)).1
    obtain ⟨hbefore, hafter⟩ := not_or.1 (mt List.mem_append.2 hnot)
    rw [List.flatMap_append, List.flatMap_cons, List.filter_append, List.filter_append, hself,
      hother before hbefore, hother after hafter, List.nil_append, List.append_nil]
  · rw [hother keys hk, hnone hk]

namespace Multigraph

variable {g : Multigraph} {name : String} {attributes : Attributes}

/-! ### Nodes -/

theorem hasNode_iff : g.hasNode name = true ↔ name ∈ g.nodes.map (·.name) := decide_eq_true_iff

theorem nodes_addNode_of_old (h : g.hasNode name = true) :
    (g.addNode name attributes).nodes = g.nodes.map (Node.updateNamed name attributes) := by
  rw [addNode, dif_pos h]

theorem nodes_addNode_of_new (h : g.hasNode name = false) :
    (g.addNode name attributes).nodes = g.nodes ++ [⟨name, attributes⟩] := by
  rw [addNode, dif_neg (by simp [h])]

theorem added_addNode : (g.addNode name attributes).added = g.added := by
  unfold addNode
  split <;> rfl

theorem added_ensureNode : (g.ensureNode name).added = g.added := by
  unfold ensureNode
  split
  · rfl
  · exact added_addNode

/-! ### Edges -/

theorem source_of_mem_edgesFrom {source : String} {e : Edge} (h : e ∈ g.edgesFrom source) :
    e.source = source := by
  obtain ⟨target, _, h⟩ := List.mem_flatMap.1 h
  have hleaving := (List.mem_filter.1 (List.mem_filter.1 h).1).2
  exact beq_iff_eq.1 hleaving

theorem filter_edgesFrom (g : Multigraph) (source target : String) :
    (g.edgesFrom source).filter (·.target == target) =
      (g.added.filter (·.source == source)).filter (·.target == target) := by
  refine filter_flatMap_key (nodup_eraseDups _) (fun t e he => ?_) fun hnone => ?_
  · exact beq_iff_eq.1 (List.mem_filter.1 he).2
  · refine List.filter_eq_nil_iff.2 fun e he htarget => hnone ?_
    rw [← beq_iff_eq.1 htarget, List.mem_eraseDups]
    exact List.mem_map_of_mem he

theorem filter_edges (g : Multigraph) (source : String) :
    g.edges.filter (·.source == source) = g.edgesFrom source := by
  have hedges : g.edges = (g.nodes.map (·.name)).flatMap g.edgesFrom := by
    rw [List.flatMap_map]
    rfl
  rw [hedges]
  refine filter_flatMap_key g.nodup (fun _ _ => source_of_mem_edgesFrom) fun hnone => ?_
  -- a node that is not there has no edge that leaves it
  have hleaving : g.added.filter (·.source == source) = [] := by
    refine List.filter_eq_nil_iff.2 fun e he hsource => hnone ?_
    rw [← beq_iff_eq.1 hsource]
    exact g.source_mem e he
  rw [edgesFrom, hleaving]
  rfl

theorem between_eq (g : Multigraph) (source target : String) :
    library.between g source target =
      g.added.filter fun e => e.source == source && e.target == target := by
  have hsplit : ∀ edges : List Edge,
      edges.filter (fun e => e.source == source && e.target == target) =
        (edges.filter (·.source == source)).filter (·.target == target) := by
    intro edges
    rw [List.filter_filter]
    simp only [Bool.and_comm]
  change g.edges.filter _ = _
  rw [hsplit, hsplit, filter_edges, filter_edgesFrom]

/-- What is added between two nodes is shown there behind the others, and nowhere else. -/
theorem between_addEdge (g : Multigraph) (source target : String) (attributes : Attributes)
    (source' target' : String) :
    library.between (g.addEdge source target attributes) source' target' =
      library.between g source' target' ++ if source = source' ∧ target = target' then
        [⟨source, target, (library.between g source target).length, attributes⟩] else [] := by
  rw [between_eq, between_eq, between_eq]
  have hadded : (g.addEdge source target attributes).added = g.added ++
      [⟨source, target, (g.added.filter fun e => e.source == source && e.target == target).length,
        attributes⟩] := by
    change ((g.ensureNode source).ensureNode target).added ++ _ = _
    rw [added_ensureNode, added_ensureNode]
  rw [hadded, List.filter_append]
  by_cases h : source = source' ∧ target = target'
  · simp [h]
  · rw [if_neg h]
    simpa using h

theorem library_lawful : library.Lawful where
  nodes_empty := rfl
  edges_empty := rfl
  hasNode_iff _ _ := hasNode_iff
  nodes_addNode_new _ _ _ := nodes_addNode_of_new
  nodes_addNode_old _ _ _ := nodes_addNode_of_old
  between_addNode g name attributes source target := by
    rw [between_eq, between_eq]
    exact congrArg (List.filter _) added_addNode
  nodes_addEdge _ _ _ _ := rfl
  between_addEdge_same g source target attributes := by
    have h := between_addEdge g source target attributes source target
    rwa [if_pos ⟨rfl, rfl⟩] at h
  between_addEdge_other g source target attributes source' target' hne := by
    have h := between_addEdge g source target attributes source' target'
    rwa [if_neg (fun heq => hne (by rw [heq.1, heq.2])), List.append_nil] at h

end Multigraph

end ClassAtlas.Graph
