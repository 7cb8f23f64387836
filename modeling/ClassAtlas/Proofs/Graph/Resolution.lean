import Mathlib.Data.List.Flatten
import Mathlib.Data.List.Perm.Basic
import ClassAtlas.Proofs.Graph.Edges

/-! The two ways to resolve calls. The order of the classes decides between several candidates for a
first match and has no other effect; a unique match does not depend on it at all, and it gives up
exactly the calls for which there are several candidates. -/

namespace ClassAtlas.Graph

variable {resolution : CallResolution} {xs ys classes : List JavaClass}

/-! ### The order of the classes -/

theorem targetKind_perm (h : xs.Perm ys) (name : String) :
    targetKind xs name = targetKind ys name := by
  have hknown : known xs name = known ys name := h.any_eq
  rw [targetKind, targetKind, hknown]

/-- A class has the same relationships in two lists where its calls have the same targets. -/
theorem relationshipsOf_congr (h : xs.Perm ys) {c : JavaClass}
    (htarget : ∀ m ∈ c.methods, ∀ called ∈ m.calls,
      callTarget? resolution xs c called = callTarget? resolution ys c called) :
    relationshipsOf resolution xs c = relationshipsOf resolution ys c := by
  have hcalls : callsOf resolution xs c = callsOf resolution ys c := by
    refine List.flatMap_congr fun m hm => List.filterMap_congr fun called hcalled => ?_
    rw [htarget m hm called hcalled]
  unfold relationshipsOf extensionOf implementationsOf injectionsOf
  simp only [targetKind_perm h, hcalls]

theorem relationships_perm (h : xs.Perm ys)
    (htarget : ∀ c ∈ xs, ∀ m ∈ c.methods, ∀ called ∈ m.calls,
      callTarget? resolution xs c called = callTarget? resolution ys c called) :
    (relationships resolution xs).Perm (relationships resolution ys) := by
  refine List.Perm.flatMap h fun c hc => ?_
  rw [relationshipsOf_congr h (htarget c hc)]

/-- The candidates for a call are those of the declaring classes that have another name. -/
theorem filter_isCandidate (source : JavaClass) (called : String) :
    classes.filter (isCandidate source called) =
      (classes.filter (·.declaresMethod called)).filter (·.name != source.name) := by
  rw [List.filter_filter]
  rfl

/-- Where the first match counts, the order of the classes matters only among those that declare
the same called name. -/
theorem relationships_firstMatch_perm (hperm : ys.Perm xs)
    (horder : ∀ c ∈ xs, ∀ m ∈ c.methods, ∀ called ∈ m.calls,
      xs.filter (·.declaresMethod called) = ys.filter (·.declaresMethod called)) :
    (relationships .firstMatch xs).Perm (relationships .firstMatch ys) := by
  refine relationships_perm hperm.symm fun c hc m hm called hcalled => ?_
  rw [callTarget?, callTarget?, filter_isCandidate, filter_isCandidate,
    horder c hc m hm called hcalled]

/-- The two classes that declare `run` stay in their order, while the others move. -/
theorem relationships_firstMatch_perm_workers :
    let moved := [sketch "Task" none [("run", ["start"])], sketch "Job" (some "") [("stop", [])],
      sketch "Pool" none [("run", [])], sketch "Job" (some "Task") [("start", ["run", "stop"])]]
    moved.Perm workers ∧
      (relationships .firstMatch workers).Perm (relationships .firstMatch moved) ∧
      relationships .firstMatch workers ≠ relationships .firstMatch moved := by
  intro moved
  have hperm : moved.Perm workers := by decide +kernel
  refine ⟨hperm, relationships_firstMatch_perm hperm ?_, by decide +kernel⟩
  decide +kernel

/-! ### Unique matches -/

theorem pick?_uniqueMatch {α : Type} (candidates : List α) :
    pick? .uniqueMatch candidates = if candidates.length = 1 then candidates.head? else none := by
  match candidates with
  | [] => rfl
  | [c] => rfl
  | c :: d :: rest => simp [pick?]

theorem pick?_uniqueMatch_perm {α : Type} {as bs : List α} (h : as.Perm bs) :
    pick? .uniqueMatch as = pick? .uniqueMatch bs := by
  rw [pick?_uniqueMatch, pick?_uniqueMatch, h.length_eq]
  split
  · next hone =>
    obtain ⟨b, rfl⟩ := List.length_eq_one_iff.1 hone
    rw [List.perm_singleton.1 h]
  · rfl

/-- Where only a unique match counts, the order of the classes does not matter. -/
theorem relationships_uniqueMatch_perm (hperm : ys.Perm xs) :
    (relationships .uniqueMatch xs).Perm (relationships .uniqueMatch ys) := by
  refine relationships_perm hperm.symm fun c _ m _ called _ => ?_
  exact pick?_uniqueMatch_perm (hperm.symm.filter _)

theorem relationships_uniqueMatch_perm_workers :
    workers.reverse.Perm workers ∧
      (relationships .uniqueMatch workers).Perm (relationships .uniqueMatch workers.reverse) ∧
      ⟨"Task", "Job", .calls, some "run", .internal⟩ ∈ relationships .uniqueMatch workers :=
  ⟨workers.reverse_perm, relationships_uniqueMatch_perm workers.reverse_perm, by decide +kernel⟩

/-! ### From first matches to unique ones -/

theorem callTarget?_firstMatch_of_uniqueMatch {source target : JavaClass} {called : String}
    (h : callTarget? .uniqueMatch classes source called = some target) :
    callTarget? .firstMatch classes source called = some target := by
  rw [callTarget?, pick?_uniqueMatch] at h
  rw [callTarget?, pick?_firstMatch]
  split at h
  · exact h
  · cases h

/-- Where no target changes, no call is lost. -/
theorem callsOf_sublist_of_target {resolution' : CallResolution} {c : JavaClass}
    (h : ∀ called target, callTarget? resolution xs c called = some target →
      callTarget? resolution' ys c called = some target) :
    (callsOf resolution xs c).Sublist (callsOf resolution' ys c) := by
  refine List.Sublist.flatMap_right _ fun m _ => ?_
  rw [List.filterMap_eq_flatMap_toList, List.filterMap_eq_flatMap_toList]
  refine List.Sublist.flatMap_right _ fun called _ => ?_
  cases htarget : callTarget? resolution xs c called with
  | none => exact List.nil_sublist _
  | some target => rw [h called target htarget]

/-- Only calls are resolved. -/
theorem edgesOf_eq_of_ne (c : JavaClass) {kind : RelationshipKind} (h : kind ≠ .calls) :
    edgesOf .uniqueMatch classes c kind = edgesOf .firstMatch classes c kind := by
  cases kind with
  | calls => exact absurd rfl h
  | _ => rfl

theorem edgesOf_sublist (c : JavaClass) (kind : RelationshipKind) :
    (edgesOf .uniqueMatch classes c kind).Sublist (edgesOf .firstMatch classes c kind) := by
  by_cases h : kind = .calls
  · subst h
    exact callsOf_sublist_of_target fun _ _ => callTarget?_firstMatch_of_uniqueMatch
  · rw [edgesOf_eq_of_ne c h]

/-- A first match is there if there is a unique one or if there are several candidates. -/
theorem isSome_firstMatch_iff {c : JavaClass} {called : String} :
    (callTarget? .firstMatch classes c called).isSome = true ↔
      (callTarget? .uniqueMatch classes c called).isSome = true ∨
        2 ≤ classes.countP (isCandidate c called) := by
  rw [callTarget?, callTarget?, pick?_firstMatch, pick?_uniqueMatch, List.countP_eq_length_filter]
  rcases classes.filter (isCandidate c called) with _ | ⟨d, _ | ⟨e, rest⟩⟩ <;> simp

theorem not_isSome_uniqueMatch {c : JavaClass} {called : String}
    (h : 2 ≤ classes.countP (isCandidate c called)) :
    callTarget? .uniqueMatch classes c called = none := by
  rw [List.countP_eq_length_filter] at h
  rw [callTarget?, pick?_uniqueMatch, if_neg (by omega)]

/-- The places of calls with a first match are those with a unique match and those with several
candidates. -/
theorem ncard_callSites_firstMatch (classes : List JavaClass) :
    (callSites classes fun c n => (callTarget? .firstMatch classes c n).isSome = true).ncard =
      (callSites classes fun c n => (callTarget? .uniqueMatch classes c n).isSome = true).ncard +
        (callSites classes fun c n => 2 ≤ classes.countP (isCandidate c n)).ncard := by
  have hseveral : callSites classes (fun c n => 2 ≤ classes.countP (isCandidate c n)) =
      callSites classes fun c n => decide (2 ≤ classes.countP (isCandidate c n)) = true :=
    callSites_congr fun c n => by rw [decide_eq_true_eq]
  have hunion : callSites classes (fun c n => (callTarget? .firstMatch classes c n).isSome = true) =
      callSites classes (fun c n => (callTarget? .uniqueMatch classes c n).isSome = true) ∪
        callSites classes fun c n => 2 ≤ classes.countP (isCandidate c n) := by
    ext site
    constructor
    · rintro ⟨c, m, hc, hm, hn, hsome⟩
      rcases isSome_firstMatch_iff.1 hsome with h | h
      · exact .inl ⟨c, m, hc, hm, hn, h⟩
      · exact .inr ⟨c, m, hc, hm, hn, h⟩
    · rintro (⟨c, m, hc, hm, hn, h⟩ | ⟨c, m, hc, hm, hn, h⟩)
      · exact ⟨c, m, hc, hm, hn, isSome_firstMatch_iff.2 (.inl h)⟩
      · exact ⟨c, m, hc, hm, hn, isSome_firstMatch_iff.2 (.inr h)⟩
  have hdisjoint : Disjoint
      (callSites classes fun c n => (callTarget? .uniqueMatch classes c n).isSome = true)
      (callSites classes fun c n => 2 ≤ classes.countP (isCandidate c n)) := by
    rw [Set.disjoint_left]
    rintro site ⟨c, m, hc, _, _, hsome⟩ ⟨c', m', hc', _, _, h⟩
    obtain rfl : c = c' := Option.some.inj (hc.symm.trans hc')
    rw [not_isSome_uniqueMatch h] at hsome
    cases hsome
  rw [hunion]
  refine Set.ncard_union_eq hdisjoint (finite_callSites _ _) ?_
  rw [hseveral]
  exact finite_callSites _ _

/-- Counting unique matches only drops relationships. It keeps all but calls, and it drops one call
for each place whose called name at least two entries of the list declare that are not named like
the calling class. -/
theorem relationships_uniqueMatch_sublist (classes : List JavaClass) :
    (relationships .uniqueMatch classes).Sublist (relationships .firstMatch classes) ∧
      (∀ kind ∈ [RelationshipKind.extends, .implements, .injects],
        (Atlas.mk classes (relationships .uniqueMatch classes)).ofKind kind =
          (Atlas.mk classes (relationships .firstMatch classes)).ofKind kind) ∧
      ((Atlas.mk classes (relationships .firstMatch classes)).ofKind .calls).length =
        ((Atlas.mk classes (relationships .uniqueMatch classes)).ofKind .calls).length +
          (callSites classes fun c called =>
            2 ≤ classes.countP fun d => d.name != c.name && d.declaresMethod called).ncard := by
  refine ⟨?_, ?_, ?_⟩
  · refine List.Sublist.flatMap_right _ fun c _ => ?_
    rw [relationshipsOf_eq_flatMap, relationshipsOf_eq_flatMap]
    exact List.Sublist.flatMap_right _ fun kind _ => edgesOf_sublist c kind
  · intro kind hkind
    have hne : kind ≠ .calls := by
      rintro rfl
      simp at hkind
    rw [ofKind_relationships, ofKind_relationships]
    exact List.flatMap_congr fun c _ => edgesOf_eq_of_ne c hne
  · rw [ofKind_relationships, ofKind_relationships, length_calls, length_calls]
    exact ncard_callSites_firstMatch classes

theorem relationships_uniqueMatch_sublist_workers :
    (relationships .uniqueMatch workers).Sublist (relationships .firstMatch workers) ∧
      (callSites workers fun c called =>
        2 ≤ workers.countP fun d => d.name != c.name && d.declaresMethod called).ncard = 1 := by
  obtain ⟨hsublist, _, hdropped⟩ := relationships_uniqueMatch_sublist workers
  refine ⟨hsublist, ?_⟩
  have hfirst : ((Atlas.mk workers (relationships .firstMatch workers)).ofKind .calls).length =
      2 := by
    decide +kernel
  have hunique :
      ((Atlas.mk workers (relationships .uniqueMatch workers)).ofKind .calls).length = 1 := by
    decide +kernel
  omega

end ClassAtlas.Graph
