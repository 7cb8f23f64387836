/-! Finite sets of names, kept in increasing order by code point. -/

namespace ClassAtlas

structure NameSet where
  toList : List String
  sorted : toList.Pairwise (· < ·)
deriving DecidableEq

namespace NameSet

def empty : NameSet := ⟨[], .nil⟩

instance : EmptyCollection NameSet := ⟨empty⟩

instance : Membership String NameSet := ⟨fun s name => name ∈ s.toList⟩

instance (s : NameSet) (p : String → Prop) [DecidablePred p] : Decidable (∀ name ∈ s, p name) :=
  inferInstanceAs (Decidable (∀ name ∈ s.toList, p name))

def insertSorted (name : String) : List String → List String
  | [] => [name]
  | other :: rest =>
    if name < other then name :: other :: rest
    else if name = other then other :: rest
    else other :: insertSorted name rest

theorem mem_insertSorted {a name : String} {names : List String} :
    a ∈ insertSorted name names ↔ a = name ∨ a ∈ names := by
  induction names with
  | nil => simp [insertSorted]
  | cons other rest ih =>
    unfold insertSorted
    split
    · simp
    · split
      · next h => simp [h]
      · simp only [List.mem_cons, ih]
        constructor
        · rintro (h | h | h) <;> simp [h]
        · rintro (h | h | h) <;> simp [h]

theorem lt_of_not_lt_of_ne {a b : String} (h : ¬a < b) (hne : a ≠ b) : b < a := by
  apply Decidable.byContradiction
  intro hb
  exact hne (String.le_antisymm (String.not_lt.1 hb) (String.not_lt.1 h))

theorem pairwise_insertSorted {name : String} {names : List String}
    (h : names.Pairwise (· < ·)) : (insertSorted name names).Pairwise (· < ·) := by
  induction names with
  | nil => simp [insertSorted]
  | cons other rest ih =>
    obtain ⟨hall, hrest⟩ := List.pairwise_cons.1 h
    unfold insertSorted
    split
    · next hlt =>
      refine List.pairwise_cons.2 ⟨?_, h⟩
      intro a ha
      rcases List.mem_cons.1 ha with rfl | ha
      · exact hlt
      · exact String.lt_trans hlt (hall a ha)
    · next hlt =>
      split
      · exact h
      · next hne =>
        refine List.pairwise_cons.2 ⟨?_, ih hrest⟩
        intro a ha
        rcases mem_insertSorted.1 ha with rfl | ha
        · exact lt_of_not_lt_of_ne hlt hne
        · exact hall a ha

def insert (name : String) (s : NameSet) : NameSet :=
  ⟨insertSorted name s.toList, pairwise_insertSorted s.sorted⟩

def ofList (names : List String) : NameSet := names.foldr insert empty

@[simp] theorem mem_insert {a name : String} {s : NameSet} :
    a ∈ s.insert name ↔ a = name ∨ a ∈ s :=
  mem_insertSorted

@[simp] theorem mem_ofList {a : String} {names : List String} :
    a ∈ ofList names ↔ a ∈ names := by
  induction names with
  | nil => simp [ofList, empty, Membership.mem]
  | cons name rest ih =>
    simp only [ofList, List.foldr_cons, mem_insert, List.mem_cons]
    rw [← ih]
    rfl

theorem toList_inj {s t : NameSet} : s.toList = t.toList ↔ s = t := by
  cases s
  cases t
  simp

theorem nodup (s : NameSet) : s.toList.Nodup := by
  refine s.sorted.imp ?_
  rintro a b hlt rfl
  exact String.lt_irrefl a hlt

theorem eq_of_mem_iff {s t : NameSet} (h : ∀ a, a ∈ s ↔ a ∈ t) : s = t := by
  have hperm : s.toList.Perm t.toList := (List.perm_ext_iff_of_nodup s.nodup t.nodup).2 h
  have heq : s.toList = t.toList := by
    refine hperm.eq_of_pairwise ?_ s.sorted t.sorted
    intro a b _ _ hab hba
    exact absurd (String.lt_trans hab hba) (String.lt_irrefl a)
  exact toList_inj.1 heq

/-- A set is given by the names in it, not by their order or number. -/
theorem ofList_congr {names names' : List String} (h : ∀ a, a ∈ names ↔ a ∈ names') :
    ofList names = ofList names' := by
  refine eq_of_mem_iff fun a => ?_
  rw [mem_ofList, mem_ofList, h]

end NameSet

end ClassAtlas
