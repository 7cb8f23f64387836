import Mathlib.Data.List.Sort
import ClassAtlas.StableSort

/-! The sort is an insertion sort, and what that says of its stability: items that the order does
not tell apart are left in their order, and leaving items out does not change the order of the
others. -/

namespace ClassAtlas

variable {α : Type} {r : α → α → Prop} [DecidableRel r] {items : List α}

theorem insertBy_decide (a : α) (items : List α) :
    insertBy (fun x y => decide (r x y)) a items = items.orderedInsert r a := by
  induction items with
  | nil => rfl
  | cons b rest ih => simp only [insertBy, List.orderedInsert_cons, ih, decide_eq_true_eq]

theorem sortBy_decide (items : List α) :
    sortBy (fun x y => decide (r x y)) items = items.insertionSort r := by
  induction items with
  | nil => rfl
  | cons a rest ih =>
    rw [sortBy, List.foldr_cons, ← sortBy, insertBy_decide, ih, List.insertionSort_cons]

/-! ### Stability -/

theorem filter_insertionSort {p : α → Bool} (hp : ∀ a b, p a = true → p b = true → r a b)
    (items : List α) : (items.insertionSort r).filter p = items.filter p := by
  have hordered : (items.filter p).Pairwise r := by
    refine List.pairwise_of_forall_mem_list fun a ha b hb => ?_
    exact hp a b (List.mem_filter.1 ha).2 (List.mem_filter.1 hb).2
  have hpart := (List.sublist_insertionSort hordered List.filter_sublist).filter p
  simp only [List.filter_filter, Bool.and_self] at hpart
  exact (hpart.eq_of_length ((List.perm_insertionSort r items).filter p).length_eq.symm).symm

variable [Std.Total r] [IsTrans α r]

/-- Sorting puts the items in order, and among those that the order does not tell apart every
relation between earlier and later items is kept. -/
theorem pairwise_insertionSort_stable {R : α → α → Prop} (h : items.Pairwise R) :
    (items.insertionSort r).Pairwise fun x y => r x y ∧ (r y x → R x y) := by
  rw [List.pairwise_iff_forall_sublist]
  intro x y hxy
  have hle := List.pairwise_iff_forall_sublist.1 (List.pairwise_insertionSort r items) hxy
  refine ⟨hle, fun hge => ?_⟩
  -- the items that the order does not tell apart from `x` are left in their order
  have hself : r x x := (Std.Total.total x x).elim id id
  have hkept := @filter_insertionSort α r _ (fun z => decide (r x z ∧ r z x))
    (fun a b ha hb => trans_of r (of_decide_eq_true ha).2 (of_decide_eq_true hb).1) items
  have hboth := hxy.filter fun z => decide (r x z ∧ r z x)
  rw [hkept, List.filter_cons_of_pos (by simp [hself]),
    List.filter_cons_of_pos (by simp [hle, hge])] at hboth
  exact List.pairwise_iff_forall_sublist.1 h (hboth.trans List.filter_sublist)

theorem insertionSort_sublist {part : List α} (h : part.Sublist items) :
    (part.insertionSort r).Sublist (items.insertionSort r) := by
  induction h with
  | slnil => exact .refl _
  | cons a _ ih => exact ih.trans (List.sublist_orderedInsert a _)
  | @cons_cons _ items a _ ih =>
    exact ih.orderedInsert_sublist a (List.pairwise_insertionSort r items)

end ClassAtlas
