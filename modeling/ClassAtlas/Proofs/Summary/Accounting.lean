import Mathlib.Data.List.Perm.Basic
import ClassAtlas.Proofs.Role.Consistency

/-! The summary of an atlas is an exact account of it: each class is filed under one group, and what
is counted group by group, kind by kind and layer by layer sums up to what there is. -/

namespace ClassAtlas

open Source Role

/-! ### Groups and kinds -/

/-- Items grouped by their keys are the same items. -/
theorem flatMap_filter_perm {α κ : Type} [DecidableEq κ] {keys : List κ} (hkeys : keys.Nodup)
    (key : α → κ) {items : List α} (hitems : ∀ a ∈ items, key a ∈ keys) :
    (keys.flatMap fun k => items.filter (key · == k)).Perm items := by
  induction keys generalizing items with
  | nil =>
    have hnil : items = [] := List.eq_nil_iff_forall_not_mem.2 fun a ha =>
      List.not_mem_nil (hitems a ha)
    rw [hnil]
    rfl
  | cons k rest ih =>
    obtain ⟨hk, hrest⟩ := List.nodup_cons.1 hkeys
    -- the other groups do not change when the items of the first key are left out
    have hothers : (rest.flatMap fun k' => items.filter (key · == k')) =
        rest.flatMap fun k' => (items.filter (!key · == k)).filter (key · == k') := by
      refine List.flatMap_congr fun k' hk' => ?_
      rw [List.filter_filter]
      refine List.filter_congr fun a _ => ?_
      have hne : k' ≠ k := fun heq => hk (heq ▸ hk')
      by_cases ha : key a = k' <;> simp [ha, hne]
    have hleft : ∀ a ∈ items.filter (!key · == k), key a ∈ rest := by
      intro a ha
      obtain ⟨ha, hne⟩ := List.mem_filter.1 ha
      rcases List.mem_cons.1 (hitems a ha) with heq | hmem
      · simp [heq] at hne
      · exact hmem
    rw [List.flatMap_cons, hothers]
    exact ((ih hrest hleft).append_left _).trans (List.filter_append_perm _ items)

theorem Group.mem_all (group : Group) : group ∈ Group.all := by
  cases group <;> decide

theorem Group.nodup_all : Group.all.Nodup := by decide

theorem RelationshipKind.mem_all (kind : RelationshipKind) : kind ∈ RelationshipKind.all := by
  cases kind <;> decide

theorem RelationshipKind.nodup_all : RelationshipKind.all.Nodup := by decide

/-- The classes that are filed under a group, in their order. -/
def Atlas.filed (atlas : Atlas) (group : Group) : List JavaClass :=
  atlas.classes.filter (Group.ofClass · == group)

/-- Each class is filed under exactly one group. -/
theorem Atlas.filed_perm (atlas : Atlas) : (Group.all.flatMap atlas.filed).Perm atlas.classes :=
  flatMap_filter_perm Group.nodup_all Group.ofClass fun c _ => Group.mem_all (Group.ofClass c)

theorem Atlas.ofKind_perm (atlas : Atlas) :
    (RelationshipKind.all.flatMap atlas.ofKind).Perm atlas.relationships :=
  flatMap_filter_perm RelationshipKind.nodup_all Relationship.kind
    fun r _ => RelationshipKind.mem_all r.kind

theorem Atlas.layers_summary (atlas : Atlas) :
    atlas.summary.layers = Group.all.map fun group => (group, (atlas.filed group).map (·.name)) :=
  rfl

/-- The roles of all classes. -/
def Atlas.roles (atlas : Atlas) : List RolePattern := atlas.classes.flatMap (·.rolePatterns)

theorem Atlas.layerDistribution_summary (atlas : Atlas) :
    atlas.summary.layerDistribution = tally (atlas.roles.map (·.layer)) := by
  rw [roles, List.map_flatMap]
  rfl

theorem sum_tallyOne (item : String) (counts : List (String × Nat)) :
    ((tallyOne item counts).map (·.2)).sum = (counts.map (·.2)).sum + 1 := by
  induction counts with
  | nil => rfl
  | cons entry rest ih =>
    unfold tallyOne
    split
    · simp only [List.map_cons, List.sum_cons]
      omega
    · simp only [List.map_cons, List.sum_cons, ih]
      omega

theorem sum_tally (items : List String) : ((tally items).map (·.2)).sum = items.length := by
  refine tally_induction (motive := fun items counts => (counts.map (·.2)).sum = items.length) rfl
    ?_ items
  intro items item counts ih
  rw [sum_tallyOne, ih, List.length_append]
  rfl

/-! ### Endpoints -/

/-- A class that was read has as many endpoints as methods that serve one, if it is filed under the
controllers, and none otherwise. -/
theorem length_endpoints {settings : Settings} {path : String} {content : List Char} {c : JavaClass}
    (h : readClass? settings path content = some c) :
    c.endpoints.length =
      if Group.ofClass c == .controllers then c.methods.countP (·.endpoint.isSome) else 0 := by
  obtain ⟨hcontroller, hroles, _⟩ := roles_of_readClass? h
  have hgroup : (Group.ofClass c == .controllers) = c.isController := by
    rw [Bool.eq_iff_iff, beq_iff_eq, Group.ofClass_eq_controllers, hcontroller, hroles,
      isController_iff]
  rw [endpoints_of_readClass? h, hgroup]
  split
  · exact List.length_filterMap_eq_countP
  · rfl

/-- Classes as they are found in sources. -/
def Atlas.WasRead (atlas : Atlas) : Prop :=
  ∀ c ∈ atlas.classes, ∃ settings path content, readClass? settings path content = some c

theorem Atlas.WasRead.endpoints_summary {atlas : Atlas} (h : atlas.WasRead) :
    atlas.summary.endpoints =
      ((atlas.filed .controllers).flatMap (·.methods)).countP (·.endpoint.isSome) := by
  have hlength : ∀ classes : List JavaClass,
      (∀ c ∈ classes, ∃ settings path content, readClass? settings path content = some c) →
      (classes.flatMap (·.endpoints)).length =
        ((classes.filter (Group.ofClass · == .controllers)).flatMap (·.methods)).countP
          (·.endpoint.isSome) := by
    intro classes
    induction classes with
    | nil => exact fun _ => rfl
    | cons c rest ih =>
      intro hread
      obtain ⟨⟨settings, path, content, hc⟩, hrest⟩ := List.forall_mem_cons.1 hread
      rw [List.flatMap_cons, List.length_append, ih hrest, length_endpoints hc, List.filter_cons]
      split
      · rw [List.flatMap_cons, List.countP_append]
      · rw [Nat.zero_add]
  exact hlength atlas.classes h

/-! ### The account -/

/-- What it takes for a summary to account for an atlas. -/
structure Summary.Accounts (s : Summary) (atlas : Atlas) : Prop where
  groups : s.layers.map (·.1) = [.controllers, .services, .repositories, .entities, .components]
  /-- Each list holds the names of the classes that belong there. -/
  filed : ∀ e ∈ s.layers, e.2 = (atlas.filed e.1).map (·.name)
  order : ∀ e ∈ s.layers, e.2.Sublist (atlas.classes.map (·.name))
  names : (s.layers.flatMap (·.2)).Perm (atlas.classes.map (·.name))
  groupCounts : ∀ e ∈ s.layers, s.statistics.member? e.1.name = some (.ofNat e.2.length)
  total : s.statistics.member? "total_classes" = some (.ofNat atlas.classes.length)
  groupSum : (s.layers.map (·.2.length)).sum = atlas.classes.length
  kinds : s.relationshipsByKind.map (·.1) = [.extends, .implements, .calls, .injects]
  kindCounts : ∀ e ∈ s.relationshipsByKind, e.2 = atlas.relationships.countP (·.kind == e.1)
  kindSum : (s.relationshipsByKind.map (·.2)).sum = atlas.relationships.length
  /-- The statistics show these counts and their sum. -/
  kindStatistics :
    s.statistics.member? "relationships" = some (.ofNat atlas.relationships.length) ∧
      s.statistics.member? "relationships_by_kind" =
        some (.object (s.relationshipsByKind.map fun e => (e.1.name, .ofNat e.2)))
  /-- A layer is listed once, with the number of roles in it, if there are any. -/
  distribution : (s.layerDistribution.map (·.1)).Nodup ∧ ∀ layer,
    s.layerDistribution.lookup layer =
      if layer ∈ atlas.roles.map (·.layer) then
        some ((atlas.roles.map (·.layer)).count layer)
      else none
  distributionSum :
    (s.layerDistribution.map (·.2)).sum = (atlas.classes.map (·.rolePatterns.length)).sum
  distributionPos : ∀ e ∈ s.layerDistribution, e.2 ≠ 0
  /-- The endpoints of classes that were read are served by methods of the controllers. -/
  endpoints : s.statistics.member? "endpoints" = some (.ofNat s.endpoints) ∧
    (atlas.WasRead → s.endpoints =
      ((atlas.filed .controllers).flatMap (·.methods)).countP (·.endpoint.isSome))

theorem Atlas.summary_accounts (atlas : Atlas) : atlas.summary.Accounts atlas := by
  have hnames : (atlas.summary.layers.flatMap (·.2)).Perm (atlas.classes.map (·.name)) := by
    have hperm := atlas.filed_perm.map (·.name)
    rw [List.map_flatMap] at hperm
    rw [layers_summary, List.flatMap_map]
    exact hperm
  have hfiled : ∀ e ∈ atlas.summary.layers, e.2 = (atlas.filed e.1).map (·.name) := by
    intro e he
    rw [layers_summary] at he
    obtain ⟨group, _, rfl⟩ := List.mem_map.1 he
    rfl
  have hgroups : (atlas.summary.layers.map (·.2.length)).sum = atlas.classes.length := by
    rw [← List.length_flatMap, hnames.length_eq, List.length_map]
  have hkinds : (atlas.summary.relationshipsByKind.map (·.2)).sum = atlas.relationships.length := by
    have hperm := atlas.ofKind_perm.length_eq
    rw [List.length_flatMap] at hperm
    exact hperm
  refine ⟨rfl, hfiled, ?_, hnames, ?_, rfl, hgroups, rfl, ?_, hkinds, ⟨rfl, rfl⟩, ?_, ?_, ?_,
    rfl, fun hread => hread.endpoints_summary⟩
  · intro e he
    rw [hfiled e he]
    exact List.filter_sublist.map _
  · intro e he
    rw [layers_summary] at he
    obtain ⟨group, _, rfl⟩ := List.mem_map.1 he
    cases group <;> rfl
  · intro e he
    obtain ⟨kind, _, rfl⟩ := List.mem_map.1 he
    exact List.countP_eq_length_filter.symm
  · rw [layerDistribution_summary]
    exact ⟨nodup_keys_tally _, lookup_tally _⟩
  · rw [layerDistribution_summary, sum_tally, List.length_map, roles, List.length_flatMap]
  · intro e he
    rw [layerDistribution_summary] at he
    exact Nat.pos_iff_ne_zero.1 (pos_tally _ e he)

/-- Three classes of one name in two groups: a controller, given twice, and one that holds data. -/
theorem Atlas.summary_accounts_shops :
    ∃ a b, readClass? .default "Shop.java" shopSource = some a ∧
      readClass? .default "Row.java" "class Shop\x7bT f;\x7d".toList = some b ∧
      (Atlas.mk [a, b, a] []).summary.layers =
        [(.controllers, ["Shop", "Shop"]), (.services, []), (.repositories, []),
          (.entities, ["Shop"]), (.components, [])] ∧
      (Atlas.mk [a, b, a] []).summary.endpoints = 2 := by
  have hshop : (readClass? .default "Shop.java" shopSource).map
      (fun c => (c.name, Group.ofClass c, c.methods.countP (·.endpoint.isSome))) =
        some ("Shop", .controllers, 1) := by decide +kernel
  have hrow : (readClass? .default "Row.java" "class Shop\x7bT f;\x7d".toList).map
      (fun c => (c.name, Group.ofClass c)) = some ("Shop", .entities) := by decide +kernel
  obtain ⟨a, ha, hparts⟩ := Option.map_eq_some_iff.1 hshop
  obtain ⟨b, hb, hparts'⟩ := Option.map_eq_some_iff.1 hrow
  simp only [Prod.mk.injEq] at hparts hparts'
  have haccount := Atlas.summary_accounts ⟨[a, b, a], []⟩
  have hread : (Atlas.mk [a, b, a] []).WasRead := by
    intro c hc
    simp only [List.mem_cons, List.not_mem_nil, or_false] at hc
    rcases hc with rfl | rfl | rfl
    · exact ⟨_, _, _, ha⟩
    · exact ⟨_, _, _, hb⟩
    · exact ⟨_, _, _, ha⟩
  refine ⟨a, b, ha, hb, ?_, ?_⟩
  · simp [layers_summary, Group.all, filed, hparts.1, hparts.2.1, hparts'.1, hparts'.2]
  · rw [haccount.endpoints.2 hread]
    simp [filed, hparts.2.1, hparts.2.2, hparts'.2]

end ClassAtlas
