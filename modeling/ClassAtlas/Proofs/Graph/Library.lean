import Mathlib.Data.List.Perm.Lattice
import ClassAtlas.Proofs.Graph.Edges
import ClassAtlas.Proofs.Graph.Multigraph

/-! The graph of an atlas loses and invents nothing, whatever library of multigraphs it is built
with: its nodes are the names that the atlas mentions, in the order of first mention, and the edges
between two nodes are the relationships between the two names, numbered in their order. -/

namespace ClassAtlas.Graph

/-! ### Names in the order of first mention -/

/-- A name is added behind the others unless it is among them. -/
def addName (names : List String) (name : String) : List String :=
  if names.contains name then names else names ++ [name]

@[simp] theorem mem_addName {names : List String} {name other : String} :
    other ∈ addName names name ↔ other ∈ names ∨ other = name := by
  unfold addName
  split
  · next h =>
    rw [List.contains_iff_mem] at h
    exact ⟨.inl, fun hother => hother.elim id fun heq => heq ▸ h⟩
  · simp

theorem addName_of_mem {names : List String} {name : String} (h : name ∈ names) :
    addName names name = names := if_pos (List.contains_iff_mem.2 h)

theorem addName_of_not_mem {names : List String} {name : String} (h : name ∉ names) :
    addName names name = names ++ [name] := if_neg (mt List.contains_iff_mem.1 h)

theorem foldl_addName (names : List String) : names.foldl addName [] = names.eraseDups := by
  induction names using List.reverseRecOn with
  | nil => rfl
  | append_singleton earlier name ih =>
    rw [List.foldl_concat, ih, List.eraseDups_append]
    by_cases h : name ∈ earlier
    · rw [addName_of_mem (List.mem_eraseDups.2 h)]
      simp [List.removeAll, h]
    · rw [addName_of_not_mem (mt List.mem_eraseDups.1 h)]
      simp [List.removeAll, h, List.eraseDups_cons]

theorem Attributes.update_classAttributes (c c' : JavaClass) :
    (classAttributes c).update (classAttributes c') = classAttributes c' := rfl

/-- The edge of a relationship. -/
def edgeOf (r : Relationship) (key : Nat) : Edge :=
  ⟨r.source, r.target, key, relationshipAttributes r⟩

namespace Library

variable {γ : Type} {lib : Library γ} {g : γ}

/-- The names of the nodes of a graph. -/
def names (lib : Library γ) (g : γ) : List String := (lib.nodes g).map (·.name)

namespace Lawful

variable (laws : lib.Lawful)
include laws

/-! ### One step -/

theorem hasNode_eq_true_iff {name : String} : lib.hasNode g name = true ↔ name ∈ lib.names g :=
  laws.hasNode_iff g name

theorem hasNode_eq_false_iff {name : String} :
    lib.hasNode g name = false ↔ name ∉ lib.names g := by
  rw [← Bool.not_eq_true, laws.hasNode_eq_true_iff]

theorem names_addNode (g : γ) (name : String) (attributes : Attributes) :
    lib.names (lib.addNode g name attributes) = addName (lib.names g) name := by
  cases h : lib.hasNode g name with
  | true =>
    rw [addName_of_mem (laws.hasNode_eq_true_iff.1 h), names, laws.nodes_addNode_old g _ _ h,
      List.map_map]
    exact List.map_congr_left fun node _ => Node.name_updateNamed ..
  | false =>
    rw [addName_of_not_mem (laws.hasNode_eq_false_iff.1 h), names,
      laws.nodes_addNode_new g _ _ h, List.map_append]
    rfl

theorem names_addMissing (g : γ) (name : String) (attributes : Attributes) :
    lib.names (lib.addMissing g name attributes) = addName (lib.names g) name := by
  unfold addMissing
  split
  · next h => exact (addName_of_mem (laws.hasNode_eq_true_iff.1 h)).symm
  · exact laws.names_addNode g name attributes

theorem names_addRelationship (g : γ) (r : Relationship) :
    lib.names (lib.addRelationship g r) = addName (addName (lib.names g) r.target) r.source := by
  have hadd : lib.names (lib.addRelationship g r) =
      addName (addName (addName (lib.names g) r.target) r.source) r.target := by
    rw [← laws.names_addMissing g r.target externalAttributes,
      ← laws.names_addMissing _ r.source [], ← laws.names_addMissing _ r.target []]
    exact congrArg (List.map Node.name) (laws.nodes_addEdge _ _ _ _)
  rw [hadd, addName_of_mem (by simp)]

theorem mem_nodes_addMissing {name : String} {attributes : Attributes} {node : Node}
    (h : node ∈ lib.nodes (lib.addMissing g name attributes)) :
    node ∈ lib.nodes g ∨ node = ⟨name, attributes⟩ ∧ name ∉ lib.names g := by
  unfold addMissing at h
  split at h
  · exact .inl h
  · next hnew =>
    rw [Bool.not_eq_true] at hnew
    rw [laws.nodes_addNode_new g _ _ hnew] at h
    rcases List.mem_append.1 h with h | h
    · exact .inl h
    · exact .inr ⟨List.mem_singleton.1 h, laws.hasNode_eq_false_iff.1 hnew⟩

/-- A relationship brings in no node but its two ends. -/
theorem mem_nodes_addRelationship {r : Relationship} {node : Node}
    (h : node ∈ lib.nodes (lib.addRelationship g r)) :
    node ∈ lib.nodes g ∨ node.name ∉ lib.names g ∧
      (node = ⟨r.target, externalAttributes⟩ ∨ node = ⟨r.source, []⟩) := by
  have hnodes : lib.nodes (lib.addRelationship g r) = _ := laws.nodes_addEdge ..
  rw [hnodes] at h
  rcases laws.mem_nodes_addMissing h with h | ⟨_, hnew⟩
  · rcases laws.mem_nodes_addMissing h with h | ⟨rfl, hnew⟩
    · rcases laws.mem_nodes_addMissing h with h | ⟨rfl, hnew⟩
      · exact .inl h
      · exact .inr ⟨hnew, .inl rfl⟩
    · refine .inr ⟨fun hold => hnew ?_, .inr rfl⟩
      rw [laws.names_addMissing, mem_addName]
      exact .inl hold
  · -- the target is there since before the edge was added
    refine absurd ?_ hnew
    rw [laws.names_addMissing, laws.names_addMissing]
    simp

theorem between_addMissing (g : γ) (name : String) (attributes : Attributes)
    (source target : String) :
    lib.between (lib.addMissing g name attributes) source target = lib.between g source target := by
  unfold addMissing
  split
  · rfl
  · exact laws.between_addNode ..

theorem between_addRelationship (g : γ) (r : Relationship) (source target : String) :
    lib.between (lib.addRelationship g r) source target = lib.between g source target ++
      if r.source == source && r.target == target then
        [edgeOf r (lib.between g source target).length] else [] := by
  by_cases h : r.source = source ∧ r.target = target
  · obtain ⟨rfl, rfl⟩ := h
    rw [if_pos (by simp), addRelationship, laws.between_addEdge_same, laws.between_addMissing]
    rfl
  · rw [if_neg (by simpa using h), List.append_nil, addRelationship, laws.between_addEdge_other,
      laws.between_addMissing]
    exact fun heq => h ⟨(Prod.ext_iff.1 heq).1.symm, (Prod.ext_iff.1 heq).2.symm⟩

/-! ### The whole atlas -/

theorem names_classes (classes : List JavaClass) (g : γ) :
    lib.names (classes.foldl lib.addClass g) =
      (classes.map (·.name)).foldl addName (lib.names g) := by
  induction classes generalizing g with
  | nil => rfl
  | cons c rest ih =>
    rw [List.foldl_cons, ih, addClass, laws.names_addNode]
    rfl

theorem names_relationships (rs : List Relationship) (g : γ) :
    lib.names (rs.foldl lib.addRelationship g) =
      (rs.flatMap fun r => [r.target, r.source]).foldl addName (lib.names g) := by
  induction rs generalizing g with
  | nil => rfl
  | cons r rest ih =>
    rw [List.foldl_cons, ih, laws.names_addRelationship]
    rfl

/-- The nodes stand for the names of the classes and then for the targets and sources of the
relationships, each at the place of its first mention. -/
theorem names_ofAtlas (atlas : Atlas) :
    lib.names (lib.ofAtlas atlas) =
      (atlas.classes.map (·.name) ++
        atlas.relationships.flatMap fun r => [r.target, r.source]).eraseDups := by
  have hempty : lib.names lib.empty = [] := congrArg (List.map Node.name) laws.nodes_empty
  rw [ofAtlas, laws.names_relationships, laws.names_classes, ← List.foldl_append, hempty,
    foldl_addName]

theorem ends_mem_names {atlas : Atlas} {r : Relationship} (hr : r ∈ atlas.relationships) :
    r.source ∈ lib.names (lib.ofAtlas atlas) ∧ r.target ∈ lib.names (lib.ofAtlas atlas) := by
  have hends : ∀ name ∈ [r.target, r.source], name ∈ lib.names (lib.ofAtlas atlas) := by
    intro name hname
    rw [laws.names_ofAtlas, List.mem_eraseDups]
    exact List.mem_append_right _ (List.mem_flatMap.2 ⟨r, hr, hname⟩)
  exact ⟨hends _ (by simp), hends _ (by simp)⟩

/-- While the classes are added, each node has the attributes of a class of its name. -/
theorem mem_nodes_classes {classes : List JavaClass} {node : Node}
    (h : node ∈ lib.nodes (classes.foldl lib.addClass lib.empty)) :
    ∃ c ∈ classes, node = ⟨c.name, classAttributes c⟩ := by
  induction classes using List.reverseRecOn generalizing node with
  | nil =>
    rw [List.foldl_nil, laws.nodes_empty] at h
    exact absurd h List.not_mem_nil
  | append_singleton earlier c ih =>
    rw [List.foldl_concat, addClass] at h
    have hearlier : ∀ node ∈ lib.nodes (earlier.foldl lib.addClass lib.empty),
        ∃ c' ∈ earlier ++ [c], node = ⟨c'.name, classAttributes c'⟩ := by
      intro node hnode
      obtain ⟨c', hc', heq⟩ := ih hnode
      exact ⟨c', List.mem_append_left _ hc', heq⟩
    cases hnode : lib.hasNode (earlier.foldl lib.addClass lib.empty) c.name with
    | true =>
      rw [laws.nodes_addNode_old _ _ _ hnode] at h
      obtain ⟨old, hold, rfl⟩ := List.mem_map.1 h
      obtain ⟨c', hc', rfl⟩ := hearlier old hold
      by_cases hname : c'.name = c.name
      · refine ⟨c, by simp, ?_⟩
        rw [Node.updateNamed, if_pos hname, Attributes.update_classAttributes, hname]
      · exact ⟨c', hc', if_neg hname⟩
    | false =>
      rw [laws.nodes_addNode_new _ _ _ hnode] at h
      rcases List.mem_append.1 h with h | h
      · exact hearlier node h
      · exact ⟨c, by simp, List.mem_singleton.1 h⟩

theorem mem_nodes_relationships {rs : List Relationship} {node : Node}
    (h : node ∈ lib.nodes (rs.foldl lib.addRelationship g)) :
    node ∈ lib.nodes g ∨ node.name ∉ lib.names g ∧
      ∃ r ∈ rs, node = ⟨r.target, externalAttributes⟩ ∨ node = ⟨r.source, []⟩ := by
  induction rs generalizing g with
  | nil => exact .inl h
  | cons r rest ih =>
    rcases ih h with h | ⟨hnew, r', hr', hnode⟩
    · rcases laws.mem_nodes_addRelationship h with h | ⟨hnew, hnode⟩
      · exact .inl h
      · exact .inr ⟨hnew, r, List.mem_cons_self, hnode⟩
    · refine .inr ⟨fun hold => hnew ?_, r', List.mem_cons_of_mem _ hr', hnode⟩
      rw [laws.names_addRelationship, mem_addName, mem_addName]
      exact .inl (.inl hold)

/-- Where all relationships start at classes, a node stands for a class, or it is external and named
by a target that is no class. -/
theorem mem_nodes_ofAtlas {atlas : Atlas}
    (hsource : ∀ r ∈ atlas.relationships, r.source ∈ atlas.classes.map (·.name))
    {node : Node} (h : node ∈ lib.nodes (lib.ofAtlas atlas)) :
    (∃ c ∈ atlas.classes, node = ⟨c.name, classAttributes c⟩) ∨
      node.name ∉ atlas.classes.map (·.name) ∧
        ∃ r ∈ atlas.relationships, node = ⟨r.target, externalAttributes⟩ := by
  have hnames : lib.names (atlas.classes.foldl lib.addClass lib.empty) =
      (atlas.classes.map (·.name)).eraseDups := by
    have h := laws.names_ofAtlas ⟨atlas.classes, []⟩
    rwa [List.flatMap_nil, List.append_nil] at h
  rcases laws.mem_nodes_relationships h with h | ⟨hnew, r, hr, hnode⟩
  · exact .inl (laws.mem_nodes_classes h)
  · have hclass : node.name ∉ atlas.classes.map (·.name) := by
      rw [← List.mem_eraseDups, ← hnames]
      exact hnew
    refine .inr ⟨hclass, r, hr, ?_⟩
    rcases hnode with hnode | rfl
    · exact hnode
    · exact absurd (hsource r hr) hclass

theorem between_classes (classes : List JavaClass) (g : γ) (source target : String) :
    lib.between (classes.foldl lib.addClass g) source target = lib.between g source target := by
  induction classes generalizing g with
  | nil => rfl
  | cons c rest ih => rw [List.foldl_cons, ih, addClass, laws.between_addNode]

/-- Relationships add their edges behind those that are there, and go on with their numbers. -/
theorem between_relationships (rs : List Relationship) (g : γ) (source target : String) :
    lib.between (rs.foldl lib.addRelationship g) source target =
      lib.between g source target ++
        ((rs.filter fun r => r.source == source && r.target == target).zipIdx
          (lib.between g source target).length).map fun (r, key) => edgeOf r key := by
  induction rs generalizing g with
  | nil => simp
  | cons r rest ih =>
    rw [List.foldl_cons, ih, laws.between_addRelationship, List.filter_cons]
    split
    · rw [List.length_append, List.zipIdx_cons, List.map_cons, List.append_assoc]
      rfl
    · rw [List.append_nil]

/-- The edges between two nodes are the relationships between the two names, numbered in their
order. -/
theorem between_ofAtlas (atlas : Atlas) (source target : String) :
    lib.between (lib.ofAtlas atlas) source target =
      (atlas.relationships.filter fun r => r.source == source && r.target == target).zipIdx.map
        fun (r, key) => edgeOf r key := by
  have hempty : lib.between lib.empty source target = [] := by
    rw [between, laws.edges_empty]
    rfl
  rw [ofAtlas, laws.between_relationships, laws.between_classes, hempty]
  rfl

/-- There are as many edges from one name to another as relationships, so there are as many in
all. -/
theorem length_edges_ofAtlas (atlas : Atlas) :
    (lib.edges (lib.ofAtlas atlas)).length = atlas.relationships.length := by
  have hperm : ((lib.edges (lib.ofAtlas atlas)).map fun e => (e.source, e.target)).Perm
      (atlas.relationships.map fun r => (r.source, r.target)) := by
    refine List.perm_iff_count.2 fun ⟨source, target⟩ => ?_
    have hbetween := congrArg List.length (laws.between_ofAtlas atlas source target)
    rw [List.length_map, List.length_zipIdx, between, ← List.countP_eq_length_filter,
      ← List.countP_eq_length_filter] at hbetween
    rw [List.count_eq_countP, List.count_eq_countP, List.countP_map, List.countP_map]
    exact hbetween
  simpa only [List.length_map] using hperm.length_eq

theorem exists_relationship_of_edge {atlas : Atlas} {e : Edge}
    (h : e ∈ lib.edges (lib.ofAtlas atlas)) :
    ∃ r ∈ atlas.relationships, ∃ key, e = edgeOf r key := by
  have hbetween : e ∈ lib.between (lib.ofAtlas atlas) e.source e.target :=
    List.mem_filter.2 ⟨h, by simp⟩
  rw [laws.between_ofAtlas] at hbetween
  obtain ⟨⟨r, key⟩, hr, rfl⟩ := List.mem_map.1 hbetween
  exact ⟨r, (List.mem_filter.1 (List.fst_mem_of_mem_zipIdx hr)).1, key, rfl⟩

theorem exists_edge_of_relationship {atlas : Atlas} {r : Relationship}
    (hr : r ∈ atlas.relationships) : ∃ key, edgeOf r key ∈ lib.edges (lib.ofAtlas atlas) := by
  have hmem : r ∈ atlas.relationships.filter
      fun r' => r'.source == r.source && r'.target == r.target :=
    List.mem_filter.2 ⟨hr, by simp⟩
  obtain ⟨key, hkey⟩ := List.mem_iff_getElem?.1 hmem
  have hbetween : edgeOf r key ∈ lib.between (lib.ofAtlas atlas) r.source r.target := by
    rw [laws.between_ofAtlas]
    exact List.mem_map_of_mem (List.mk_mem_zipIdx_iff_getElem?.2 hkey)
  exact ⟨key, (List.mem_filter.1 hbetween).1⟩

end Lawful

end Library

/-! ### The graph of related classes -/

variable {resolution : CallResolution} {classes : List JavaClass}

theorem source_mem_names {r : Relationship} (hr : r ∈ relationships resolution classes) :
    r.source ∈ classes.map (·.name) := by
  obtain ⟨c, hc, hr⟩ := mem_relationships.1 hr
  rw [(mem_edgesOf hr).1]
  exact List.mem_map_of_mem hc

theorem isResolved_iff {r : Relationship} (hr : r ∈ relationships resolution classes) :
    r.isResolved = true ↔ r.target ∈ classes.map (·.name) := by
  obtain ⟨c, _, hr⟩ := mem_relationships.1 hr
  rw [Relationship.isResolved, beq_iff_eq, (mem_edgesOf hr).2.2, targetKind_eq_internal,
    List.mem_map]

theorem isResolved_of_calls {r : Relationship} (hr : r ∈ relationships resolution classes)
    (hcalls : r.kind = .calls) : r.isResolved = true := by
  obtain ⟨c, _, hr⟩ := mem_relationships.1 hr
  rw [hcalls] at hr
  obtain ⟨_, _, _, _, _, _, rfl⟩ := mem_callsOf hr
  rfl

section

variable {γ : Type} {lib : Library γ}

/-- The graph of a list of classes and their relationships. -/
def Library.ofClasses (lib : Library γ) (resolution : CallResolution) (classes : List JavaClass) :
    γ :=
  lib.ofAtlas ⟨classes, relationships resolution classes⟩

/-- A node of the graph stands for a class and says so, or it is external and stands for a target
that is no class. -/
theorem mem_nodes_ofClasses (laws : lib.Lawful) {node : Node}
    (h : node ∈ lib.nodes (lib.ofClasses resolution classes)) :
    node.name ∈ classes.map (·.name) ∧ node.attributes.lookup "type" = some (.text "class") ∨
      node.name ∉ classes.map (·.name) ∧ node.attributes.lookup "type" = some (.text "external") ∧
        ∃ r ∈ relationships resolution classes, r.target = node.name := by
  rcases laws.mem_nodes_ofAtlas (fun r hr => source_mem_names hr) h with
    ⟨c, hc, rfl⟩ | ⟨hnot, r, hr, rfl⟩
  · exact .inl ⟨List.mem_map_of_mem hc, rfl⟩
  · exact .inr ⟨hnot, rfl, r, hr, rfl⟩

theorem names_ofClasses (laws : lib.Lawful) (resolution : CallResolution)
    (classes : List JavaClass) :
    lib.names (lib.ofClasses resolution classes) = (classes.map (·.name)).eraseDups ++
      (((relationships resolution classes).map (·.target)).filter
        (!(classes.map (·.name)).contains ·)).eraseDups := by
  have hends : ∀ names : List String, (∀ r ∈ relationships resolution classes, r.source ∈ names) →
      ((relationships resolution classes).flatMap fun r => [r.target, r.source]).removeAll names =
        ((relationships resolution classes).map (·.target)).filter (!names.contains ·) := by
    intro names hsource
    rw [List.map_eq_flatMap, List.filter_flatMap, List.removeAll, List.filter_flatMap]
    refine List.flatMap_congr fun r hr => ?_
    have helem : names.elem r.source = true := List.elem_eq_true_of_mem (hsource r hr)
    simp only [List.filter_cons, helem]
    rfl
  rw [Library.ofClasses, laws.names_ofAtlas, List.eraseDups_append,
    hends _ fun r hr => source_mem_names hr]

end

/-- The graph of related classes loses and invents nothing. Its nodes are the names of the classes
and then the other targets, each once and in the order of first mention, and they say which they
are. The edges between two nodes are the relationships between the two names, numbered from zero in
their order, and there are no other edges. An edge is resolved exactly if its target is a class. An
external node has no edge leaving it and at least one arriving at it, none of which is a call. -/
theorem ofAtlas_relationships {γ : Type} (lib : Library γ) (laws : lib.Lawful)
    (resolution : CallResolution) (classes : List JavaClass) :
    let names := classes.map (·.name)
    let related := relationships resolution classes
    let g := lib.ofAtlas ⟨classes, related⟩
    (lib.nodes g).map (·.name) =
        names.eraseDups ++ ((related.map (·.target)).filter (!names.contains ·)).eraseDups ∧
      ((lib.nodes g).map (·.name)).Nodup ∧
      (∀ node ∈ lib.nodes g, node.attributes.lookup "type" =
        some (.text (if node.name ∈ names then "class" else "external"))) ∧
      (∀ source target,
        (lib.edges g).filter (fun e => e.source == source && e.target == target) =
          (related.filter fun r => r.source == source && r.target == target).zipIdx.map
            fun (r, key) => ⟨r.source, r.target, key,
              [("type", .text r.kind.name), ("method", .text (r.method.getD "")),
                ("resolved", .flag r.isResolved)]⟩) ∧
      (lib.edges g).length = related.length ∧
      (∀ e ∈ lib.edges g, ∃ node ∈ lib.nodes g, node.name = e.target ∧
        (e.attributes.lookup "resolved" = some (.flag true) ↔
          node.attributes.lookup "type" = some (.text "class"))) ∧
      ∀ node ∈ lib.nodes g, node.attributes.lookup "type" = some (.text "external") →
        (∀ e ∈ lib.edges g, e.source ≠ node.name) ∧ (∃ e ∈ lib.edges g, e.target = node.name) ∧
          ∀ e ∈ lib.edges g, e.target = node.name →
            e.attributes.lookup "type" ≠ some (.text "calls") := by
  intro names related g
  have hnodup : (lib.names g).Nodup := by
    rw [laws.names_ofAtlas]
    exact nodup_eraseDups _
  have htype : ∀ node ∈ lib.nodes g, node.attributes.lookup "type" =
      some (.text (if node.name ∈ names then "class" else "external")) := by
    intro node hnode
    rcases mem_nodes_ofClasses laws hnode with ⟨hname, htype⟩ | ⟨hname, htype, _⟩
    · rw [htype, if_pos hname]
    · rw [htype, if_neg hname]
  refine ⟨names_ofClasses laws resolution classes, hnodup, htype, laws.between_ofAtlas _,
    laws.length_edges_ofAtlas _, ?_, ?_⟩
  · intro e he
    obtain ⟨r, hr, key, rfl⟩ := laws.exists_relationship_of_edge he
    obtain ⟨node, hnode, hname⟩ := List.mem_map.1 (laws.ends_mem_names hr).2
    refine ⟨node, hnode, hname, ?_⟩
    have hresolved : (edgeOf r key).attributes.lookup "resolved" = some (.flag r.isResolved) := rfl
    have hiff : r.isResolved = true ↔ r.target ∈ names := isResolved_iff hr
    rw [htype node hnode, hname, hresolved]
    by_cases hmem : r.target ∈ names
    · simp [hmem, hiff.2 hmem]
    · simp [hmem, mt hiff.1 hmem]
  · intro node hnode hexternal
    rcases mem_nodes_ofClasses laws hnode with ⟨_, htype⟩ | ⟨hname, _, r, hr, htarget⟩
    · rw [htype] at hexternal
      exact absurd hexternal (by decide)
    · refine ⟨?_, ?_, ?_⟩
      · intro e he hsource
        obtain ⟨r, hr, key, rfl⟩ := laws.exists_relationship_of_edge he
        exact hname (hsource ▸ source_mem_names hr)
      · obtain ⟨key, he⟩ :=
          @Library.Lawful.exists_edge_of_relationship _ _ laws ⟨classes, related⟩ r hr
        exact ⟨_, he, htarget⟩
      · intro e he htarget hcalls
        obtain ⟨r, hr, key, rfl⟩ := laws.exists_relationship_of_edge he
        have hkind : (edgeOf r key).attributes.lookup "type" = some (.text r.kind.name) := rfl
        rw [hkind, Option.some_inj, Attribute.text.injEq] at hcalls
        have hresolved := isResolved_of_calls hr (RelationshipKind.name_inj.1 hcalls)
        exact hname (htarget ▸ (isResolved_iff hr).1 hresolved)

/-- Two classes of one name, two edges between the same nodes, and a superclass that is no class. -/
theorem ofAtlas_relationships_workers :
    let lib := Multigraph.library
    let threads := sketch "Pool" (some "Thread") [] :: workers
    let g := lib.ofAtlas ⟨threads, relationships .firstMatch threads⟩
    lib.Lawful ∧ (lib.nodes g).map (·.name) = ["Pool", "Job", "Task", "Thread"] ∧
      ⟨"Thread", externalAttributes⟩ ∈ lib.nodes g ∧ (∀ e ∈ lib.edges g, e.source ≠ "Thread") ∧
      (∃ e ∈ lib.edges g, e.target = "Thread") ∧
      ((lib.edges g).filter fun e => e.source == "Job" && e.target == "Task").map (·.key) =
        [0, 1] := by
  intro lib threads g
  have hthread : ⟨"Thread", externalAttributes⟩ ∈ lib.nodes g := by decide +kernel
  obtain ⟨hnames, _, _, hedges, _, _, hexternal⟩ :=
    ofAtlas_relationships lib Multigraph.library_lawful .firstMatch threads
  obtain ⟨hleaving, harriving, _⟩ := hexternal _ hthread rfl
  refine ⟨Multigraph.library_lawful, hnames.trans (by decide +kernel), hthread, hleaving, harriving,
    ?_⟩
  rw [hedges]
  decide +kernel

end ClassAtlas.Graph
