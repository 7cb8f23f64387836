import ClassAtlas.StableSort

/-! Counting how often items occur. -/

namespace ClassAtlas

/-- Counts one more occurrence of an item. -/
def tallyOne (item : String) : List (String × Nat) → List (String × Nat)
  | [] => [(item, 1)]
  | (other, count) :: rest =>
    if other == item then (other, count + 1) :: rest else (other, count) :: tallyOne item rest

/-- How often each item occurs, in the order of first occurrences. -/
def tally (items : List String) : List (String × Nat) :=
  items.foldl (fun counts item => tallyOne item counts) []

/-- All items, the most frequent first and the earlier one first among equals. -/
def byFrequency (items : List String) : List String :=
  (sortBy (fun a b => decide (b.2 ≤ a.2)) (tally items)).map (·.1)

/-! ### Lists of keys and values -/

section Lookup

variable {κ β : Type} [BEq κ] [LawfulBEq κ] {entries : List (κ × β)} {k : κ} {b : β}

theorem lookup_cons_of_ne {other : κ} (h : other ≠ k) (b : β) (rest : List (κ × β)) :
    ((k, b) :: rest).lookup other = rest.lookup other := by
  rw [List.lookup_cons, beq_eq_false_iff_ne.2 h]

theorem mem_of_lookup (h : entries.lookup k = some b) : (k, b) ∈ entries := by
  obtain ⟨front, back, rfl, _⟩ := List.lookup_eq_some_iff.1 h
  exact List.mem_append_right front List.mem_cons_self

/-- With distinct keys every value is found. -/
theorem lookup_of_mem (hkeys : (entries.map (·.1)).Nodup) (h : (k, b) ∈ entries) :
    entries.lookup k = some b := by
  induction entries with
  | nil => exact absurd h List.not_mem_nil
  | cons entry rest ih =>
    obtain ⟨hentry, hrest⟩ := List.nodup_cons.1 hkeys
    rcases List.mem_cons.1 h with rfl | h
    · exact List.lookup_cons_self
    · have hne : k ≠ entry.1 := fun heq => hentry (List.mem_map.2 ⟨(k, b), h, heq⟩)
      rw [lookup_cons_of_ne hne, ih hrest h]

end Lookup

/-! ### Counts -/

/-- One more occurrence adds one to the count of its item and leaves the other counts. -/
theorem lookup_tallyOne (item other : String) (counts : List (String × Nat)) :
    (tallyOne item counts).lookup other =
      if other = item then some ((counts.lookup other).getD 0 + 1) else counts.lookup other := by
  induction counts with
  | nil =>
    by_cases h : other = item
    · simp [tallyOne, h]
    · rw [if_neg h, tallyOne, lookup_cons_of_ne h]
  | cons entry rest ih =>
    obtain ⟨name, count⟩ := entry
    by_cases hitem : name = item
    · rw [tallyOne, if_pos (beq_iff_eq.2 hitem), hitem]
      by_cases h : other = item
      · simp [h]
      · rw [if_neg h, lookup_cons_of_ne h, lookup_cons_of_ne h]
    · rw [tallyOne, if_neg (by simpa using hitem)]
      by_cases h : other = name
      · simp [h, hitem]
      · rw [lookup_cons_of_ne h, lookup_cons_of_ne h, ih]

theorem keys_tallyOne (item : String) (counts : List (String × Nat)) :
    (tallyOne item counts).map (·.1) =
      if item ∈ counts.map (·.1) then counts.map (·.1) else counts.map (·.1) ++ [item] := by
  induction counts with
  | nil => rfl
  | cons entry rest ih =>
    obtain ⟨name, count⟩ := entry
    by_cases hitem : name = item
    · simp [tallyOne, hitem]
    · by_cases hmem : item ∈ rest.map (·.1)
      · simp [tallyOne, hitem, ih, hmem]
      · have hne : item ≠ name := Ne.symm hitem
        simp [tallyOne, hitem, ih, hmem, hne]

theorem pos_tallyOne {item : String} {counts : List (String × Nat)} (h : ∀ e ∈ counts, 0 < e.2) :
    ∀ e ∈ tallyOne item counts, 0 < e.2 := by
  induction counts with
  | nil => simp [tallyOne]
  | cons entry rest ih =>
    obtain ⟨hentry, hrest⟩ := List.forall_mem_cons.1 h
    unfold tallyOne
    split
    · exact List.forall_mem_cons.2 ⟨Nat.succ_pos _, hrest⟩
    · exact List.forall_mem_cons.2 ⟨hentry, ih hrest⟩

/-- What holds of no items and is kept by one more occurrence holds of every tally. -/
theorem tally_induction {motive : List String → List (String × Nat) → Prop} (nil : motive [] [])
    (step : ∀ items item counts, motive items counts →
      motive (items ++ [item]) (tallyOne item counts)) (items : List String) :
    motive items (tally items) := by
  have hfold : ∀ (rest done : List String) (counts : List (String × Nat)), motive done counts →
      motive (done ++ rest) (rest.foldl (fun counts item => tallyOne item counts) counts) := by
    intro rest
    induction rest with
    | nil =>
      intro done counts h
      rw [List.append_nil]
      exact h
    | cons item rest ih =>
      intro done counts h
      have hrest := ih (done ++ [item]) _ (step done item counts h)
      rw [List.append_assoc] at hrest
      exact hrest
  exact hfold items [] [] nil

theorem lookup_tally (items : List String) (item : String) :
    (tally items).lookup item = if item ∈ items then some (items.count item) else none := by
  induction items using tally_induction with
  | nil => rfl
  | step items last counts ih =>
    rw [lookup_tallyOne, ih]
    by_cases hlast : item = last
    · by_cases hmem : last ∈ items
      · simp [hlast, hmem]
      · simp [hlast, hmem, List.count_eq_zero_of_not_mem hmem]
    · have hcount : [last].count item = 0 := by simp [Ne.symm hlast]
      simp [hlast, hcount]

theorem nodup_keys_tally (items : List String) : ((tally items).map (·.1)).Nodup := by
  refine tally_induction (motive := fun _ counts => (counts.map (·.1)).Nodup)
    List.nodup_nil ?_ items
  intro _ item counts ih
  rw [keys_tallyOne]
  split
  · exact ih
  · next hnew =>
    refine List.nodup_append.2 ⟨ih, by simp, ?_⟩
    rintro name hname _ hitem rfl
    exact hnew (List.mem_singleton.1 hitem ▸ hname)

theorem count_of_mem_tally {items : List String} {e : String × Nat} (h : e ∈ tally items) :
    items.count e.1 = e.2 := by
  have hlookup := lookup_of_mem (nodup_keys_tally items) h
  rw [lookup_tally] at hlookup
  split at hlookup
  · exact Option.some.inj hlookup
  · exact absurd hlookup (by simp)

/-- Every item is counted, and the counts stand in the order of first occurrences. -/
theorem keys_tally (items : List String) :
    (∀ item, item ∈ (tally items).map (·.1) ↔ item ∈ items) ∧
      ((tally items).map (·.1)).Pairwise fun a b => items.idxOf a < items.idxOf b := by
  refine tally_induction (motive := fun items counts =>
    (∀ item, item ∈ counts.map (·.1) ↔ item ∈ items) ∧
      (counts.map (·.1)).Pairwise fun a b => items.idxOf a < items.idxOf b) (by simp) ?_ items
  rintro items last counts ⟨hkeys, horder⟩
  -- one more item does not move what was seen before
  have hkept : ∀ a ∈ counts.map (·.1), (items ++ [last]).idxOf a = items.idxOf a := by
    intro a ha
    rw [List.idxOf_append, if_pos ((hkeys a).1 ha)]
  have hseen : (counts.map (·.1)).Pairwise fun a b =>
      (items ++ [last]).idxOf a < (items ++ [last]).idxOf b := by
    refine horder.imp_of_mem fun {a b} ha hb h => ?_
    rwa [hkept a ha, hkept b hb]
  rw [keys_tallyOne]
  split
  · next hmem =>
    refine ⟨fun item => ?_, hseen⟩
    rw [hkeys, List.mem_append, List.mem_singleton]
    refine ⟨.inl, ?_⟩
    rintro (h | rfl)
    · exact h
    · exact (hkeys item).1 hmem
  · next hnew =>
    refine ⟨fun item => by rw [List.mem_append, List.mem_append, hkeys], ?_⟩
    refine List.pairwise_append.2 ⟨hseen, by simp, fun a ha b hb => ?_⟩
    obtain rfl := List.mem_singleton.1 hb
    have hlt := List.idxOf_lt_length_of_mem ((hkeys a).1 ha)
    rw [hkept a ha, List.idxOf_append, if_neg (fun h => hnew ((hkeys b).2 h))]
    omega

theorem pos_tally (items : List String) : ∀ e ∈ tally items, 0 < e.2 :=
  tally_induction (motive := fun _ counts => ∀ e ∈ counts, 0 < e.2) (by simp)
    (fun _ _ _ ih => pos_tallyOne ih) items

end ClassAtlas
