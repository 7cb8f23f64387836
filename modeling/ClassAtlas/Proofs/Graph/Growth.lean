import Mathlib.Data.List.Forall2
import ClassAtlas.Proofs.Graph.Resolution

/-! Classes added behind the others. A first match stays the first one, so no call is lost; all
other relationships stay where they are, and some of their targets become known. -/

namespace ClassAtlas.Graph

variable {resolution : CallResolution} {xs ys classes : List JavaClass}

/-! ### Calls -/

theorem callTarget?_append {source target : JavaClass} {called : String}
    (h : callTarget? .firstMatch xs source called = some target) :
    callTarget? .firstMatch (xs ++ ys) source called = some target := by
  rw [callTarget?, pick?_firstMatch] at h ⊢
  rw [List.filter_append, List.head?_append, h]
  rfl

theorem calls_sublist_append :
    (xs.flatMap (callsOf .firstMatch xs)).Sublist
      ((xs ++ ys).flatMap (callsOf .firstMatch (xs ++ ys))) := by
  have hkept : (xs.flatMap (callsOf .firstMatch xs)).Sublist
      (xs.flatMap (callsOf .firstMatch (xs ++ ys))) :=
    List.Sublist.flatMap_right _ fun c _ =>
      callsOf_sublist_of_target fun _ _ => callTarget?_append
  rw [List.flatMap_append]
  exact hkept.trans (List.sublist_append_left _ _)

/-! ### Relationships that are declared -/

/-- The relationship with its target looked up in a list of classes. -/
def retarget (classes : List JavaClass) (e : Relationship) : Relationship :=
  { e with targetKind := targetKind classes e.target }

/-- What a class declares does not depend on the other classes, up to the kinds of the targets. -/
theorem edgesOf_eq_map_retarget (xs ys : List JavaClass) (c : JavaClass) {kind : RelationshipKind}
    (h : kind ≠ .calls) :
    edgesOf resolution ys c kind = (edgesOf resolution xs c kind).map (retarget ys) := by
  cases kind with
  | «extends» =>
    simp only [edgesOf, extensionOf]
    cases c.base with
    | none => rfl
    | some base => cases hempty : base.isEmpty <;> simp [hempty, retarget]
  | implements =>
    simp only [edgesOf, implementationsOf, List.map_map]
    rfl
  | calls => exact absurd rfl h
  | injects =>
    simp only [edgesOf, injectionsOf, List.map_map]
    rfl

theorem filter_kinds_edgesOf (c : JavaClass) (kinds : List RelationshipKind)
    (kind : RelationshipKind) :
    (edgesOf resolution classes c kind).filter (kinds.contains ·.kind) =
      if kinds.contains kind then edgesOf resolution classes c kind else [] := by
  have hkind : ∀ e ∈ edgesOf resolution classes c kind,
      kinds.contains e.kind = kinds.contains kind := by
    intro e he
    rw [(mem_edgesOf he).2.1]
  rw [List.filter_congr hkind]
  cases kinds.contains kind <;> simp

/-- The relationships of some kinds, class by class and for each class kind by kind. -/
theorem filter_relationships (kinds : List RelationshipKind) :
    (relationships resolution classes).filter (kinds.contains ·.kind) =
      classes.flatMap fun c =>
        (RelationshipKind.all.filter kinds.contains).flatMap (edgesOf resolution classes c) := by
  rw [relationships, List.filter_flatMap]
  refine List.flatMap_congr fun c _ => ?_
  rw [relationshipsOf_eq_flatMap, List.filter_flatMap]
  generalize RelationshipKind.all = all
  induction all with
  | nil => rfl
  | cons kind rest ih =>
    rw [List.flatMap_cons, ih, filter_kinds_edgesOf, List.filter_cons]
    split <;> rfl

/-- Where calls are left out, the relationships of a list of classes are a part of those of a longer
one, with their targets looked up in it. -/
theorem filter_relationships_append {kinds : List RelationshipKind} (hkinds : .calls ∉ kinds) :
    (relationships resolution (xs ++ ys)).filter (kinds.contains ·.kind) =
      ((relationships resolution xs).filter (kinds.contains ·.kind)).map (retarget (xs ++ ys)) ++
        ys.flatMap fun c =>
          (RelationshipKind.all.filter kinds.contains).flatMap
            (edgesOf resolution (xs ++ ys) c) := by
  rw [filter_relationships, filter_relationships, List.flatMap_append, List.map_flatMap]
  congr 1
  refine List.flatMap_congr fun c _ => ?_
  rw [List.map_flatMap]
  refine List.flatMap_congr fun kind hkind => edgesOf_eq_map_retarget xs (xs ++ ys) c ?_
  rintro rfl
  exact hkinds (List.contains_iff_mem.1 (List.mem_filter.1 hkind).2)

/-- A relationship and what has become of it: at most its target has become known. -/
structure Upgraded (e e' : Relationship) : Prop where
  source : e'.source = e.source
  target : e'.target = e.target
  kind : e'.kind = e.kind
  method : e'.method = e.method
  targetKind : e'.targetKind = e.targetKind ∨
    e.targetKind = .external ∧ e'.targetKind = .internal

theorem targetKind_append {name : String} (h : targetKind xs name = .internal) :
    targetKind (xs ++ ys) name = .internal := by
  obtain ⟨c, hc, hname⟩ := targetKind_eq_internal.1 h
  exact targetKind_eq_internal.2 ⟨c, List.mem_append_left ys hc, hname⟩

theorem upgraded_retarget {e : Relationship} (he : e ∈ relationships resolution xs) :
    Upgraded e (retarget (xs ++ ys) e) := by
  refine ⟨rfl, rfl, rfl, rfl, ?_⟩
  obtain ⟨c, _, hc⟩ := mem_relationships.1 he
  have hkind : e.targetKind = targetKind xs e.target := (mem_edgesOf hc).2.2
  cases hbefore : e.targetKind with
  | internal => exact .inl (targetKind_append (hkind ▸ hbefore))
  | external =>
    cases hafter : targetKind (xs ++ ys) e.target with
    | internal => exact .inr ⟨rfl, hafter⟩
    | external => exact .inl hafter

/-- Classes added behind the others lose no relationship where the first match counts. The calls
stay in their order, and others may come in between. All relationships of other kinds, or of some of
them, stay in front of the added ones, and at most their targets become known. -/
theorem relationships_firstMatch_append (xs ys : List JavaClass) :
    ((Atlas.mk xs (relationships .firstMatch xs)).ofKind .calls).Sublist
        ((Atlas.mk (xs ++ ys) (relationships .firstMatch (xs ++ ys))).ofKind .calls) ∧
      ∀ kinds : List RelationshipKind, .calls ∉ kinds → ∃ kept added,
        (relationships .firstMatch (xs ++ ys)).filter (kinds.contains ·.kind) = kept ++ added ∧
          List.Forall₂ Upgraded ((relationships .firstMatch xs).filter (kinds.contains ·.kind))
            kept := by
  refine ⟨?_, ?_⟩
  · rw [ofKind_relationships, ofKind_relationships]
    exact calls_sublist_append
  · intro kinds hkinds
    refine ⟨_, _, filter_relationships_append hkinds, ?_⟩
    rw [List.forall₂_map_right_iff, List.forall₂_same]
    intro e he
    exact upgraded_retarget (List.mem_filter.1 he).1

/-- The class that comes in is the superclass of the first one and declares a name called before,
for which there is a candidate already. -/
theorem relationships_firstMatch_append_workers :
    let before := [sketch "Job" (some "Task") [("start", ["run"])],
        sketch "Pool" none [("run", ["stop"])]]
    let after := [sketch "Task" none [("run", []), ("stop", [])]]
    (∃ kept added,
      (relationships .firstMatch (before ++ after)).filter
          ([.extends, .implements, .injects].contains ·.kind) = kept ++ added ∧
        List.Forall₂ Upgraded
          ((relationships .firstMatch before).filter
            ([.extends, .implements, .injects].contains ·.kind))
          kept) ∧
      relationships .firstMatch before =
        [⟨"Job", "Task", .extends, none, .external⟩,
          ⟨"Job", "Pool", .calls, some "start", .internal⟩] ∧
      relationships .firstMatch (before ++ after) =
        [⟨"Job", "Task", .extends, none, .internal⟩,
          ⟨"Job", "Pool", .calls, some "start", .internal⟩,
          ⟨"Pool", "Task", .calls, some "run", .internal⟩] := by
  intro before after
  obtain ⟨_, hdeclared⟩ := relationships_firstMatch_append before after
  exact ⟨hdeclared [.extends, .implements, .injects] (by decide), by decide +kernel,
    by decide +kernel⟩

end ClassAtlas.Graph
