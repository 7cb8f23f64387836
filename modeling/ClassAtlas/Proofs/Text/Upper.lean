import Mathlib.Data.List.Basic
import ClassAtlas.Text.Case

/-! Upper case is reached in one step: no code point that the mapping reaches is one that it
changes. The two sets are compared as the bits of a number. -/

namespace ClassAtlas.Text

open Table

/-! ### The code points of a run -/

/-- The code points that a run moves. -/
def Table.CaseRun.points (run : CaseRun) : List Nat :=
  (List.range ((run.last - run.first) / run.step + 1)).map fun k => run.first + run.step * k

theorem Table.CaseRun.mem_points {run : CaseRun} {n : Nat} (h : run.holds n = true) :
    n ∈ run.points := by
  simp only [holds, Bool.and_eq_true, decide_eq_true_eq, beq_iff_eq] at h
  obtain ⟨⟨hfirst, hlast⟩, hstep⟩ := h
  refine List.mem_map.2 ⟨(n - run.first) / run.step, ?_, ?_⟩
  · rw [List.mem_range, Nat.lt_succ_iff]
    exact Nat.div_le_div_right (by omega)
  · have hdiv := Nat.div_add_mod (n - run.first) run.step
    omega

/-- The number whose bits are set at the given places. -/
def bitsAt (places : List Nat) : Nat := places.foldr (fun n bits => bits ||| 1 <<< n) 0

theorem testBit_bitsAt {places : List Nat} {n : Nat} (h : n ∈ places) :
    (bitsAt places).testBit n = true := by
  induction places with
  | nil => exact absurd h List.not_mem_nil
  | cons place places ih =>
    rw [bitsAt, List.foldr_cons, Nat.testBit_or, Bool.or_eq_true]
    rcases List.mem_cons.1 h with rfl | h
    · exact .inr (by simp [Nat.testBit_shiftLeft])
    · exact .inl (ih h)

/-! ### What the mapping changes and what it reaches -/

/-- The code points that are not their own upper case. -/
def changed : List Nat :=
  ((⟨0x61, 0x7a, 1, -32⟩ : CaseRun) :: upperRuns).flatMap Table.CaseRun.points ++
    upperSequences.map (·.1)

/-- The code points that stand in the upper case of another one beyond ASCII. -/
def reached : List Nat :=
  (upperRuns.flatMap fun run => run.points.map fun n : Nat => (n + run.shift).toNat) ++
    upperSequences.flatMap (·.2)

theorem not_mem_changed {n : Nat} (h : n ∈ reached) : n ∉ changed := by
  have hall : (reached.all fun n => !(bitsAt changed).testBit n) = true := by decide +kernel
  intro hchanged
  have hn := List.all_eq_true.1 hall n h
  rw [testBit_bitsAt hchanged] at hn
  exact absurd hn (by decide)

theorem find?_upperRuns {n : Nat} (h : n ∉ changed) :
    upperRuns.find? (·.holds n) = none := by
  rw [List.find?_eq_none]
  intro run hrun hholds
  refine h (List.mem_append_left _ (List.mem_flatMap.2 ⟨run, List.mem_cons_of_mem _ hrun, ?_⟩))
  exact Table.CaseRun.mem_points hholds

theorem find?_upperSequences {n : Nat} (h : n ∉ changed) :
    upperSequences.find? (·.1 == n) = none := by
  rw [List.find?_eq_none]
  intro entry hentry hkey
  refine h (List.mem_append_right _ (List.mem_map.2 ⟨entry, hentry, ?_⟩))
  exact beq_iff_eq.1 hkey

theorem forall_ascii {P : Char → Prop} (h : ∀ n < 128, P (Char.ofNat n)) {c : Char}
    (hc : c.toNat < 128) : P c := Char.ofNat_toNat c ▸ h c.toNat hc

theorem upperChar_eq_self {c : Char} (h : c.toNat ∉ changed) : upperChar c = [c] := by
  unfold upperChar
  split
  · next hascii =>
    have hupper := forall_ascii (P := fun c => (0x61 ≤ c.toNat → 0x7a < c.toNat) → c.toUpper = c)
      (by decide) hascii
    have hletter : 0x61 ≤ c.toNat → 0x7a < c.toNat := by
      intro hfirst
      by_contra hlast
      refine h (List.mem_append_left _ (List.mem_flatMap.2 ⟨_, List.mem_cons_self, ?_⟩))
      apply Table.CaseRun.mem_points
      simp [Table.CaseRun.holds, hfirst, Nat.le_of_not_lt hlast, Nat.mod_one]
    rw [hupper hletter]
  · simp only [find?_upperSequences h, shifted, find?_upperRuns h]

/-- A number that is no code point stands for the first of them, which is not changed either. -/
theorem upperChar_of_reached {n : Nat} (h : n ∈ reached) :
    upperChar (Char.ofNat n) = [Char.ofNat n] := by
  unfold Char.ofNat
  by_cases hvalid : n.isValidChar
  · rw [dif_pos hvalid]
    exact upperChar_eq_self (not_mem_changed h)
  · rw [dif_neg hvalid]
    rfl

theorem upperChar_of_mem {c y : Char} (h : y ∈ upperChar c) : upperChar y = [y] := by
  by_cases hascii : c.toNat < 128
  · have hupper :=
      forall_ascii (P := fun c => upperChar c.toUpper = [c.toUpper]) (by decide +kernel) hascii
    unfold upperChar at h
    rw [if_pos hascii, List.mem_singleton] at h
    rw [h, hupper]
  unfold upperChar at h
  rw [if_neg hascii] at h
  cases hsequence : upperSequences.find? (·.1 == c.toNat) with
  | some entry =>
    simp only [hsequence] at h
    obtain ⟨n, hn, rfl⟩ := List.mem_map.1 h
    have hentry := List.mem_of_find?_eq_some hsequence
    exact upperChar_of_reached (List.mem_append_right _ (List.mem_flatMap.2 ⟨entry, hentry, hn⟩))
  | none =>
    simp only [hsequence, List.mem_singleton, shifted] at h
    cases hrun : upperRuns.find? (·.holds c.toNat) with
    | some run =>
      simp only [hrun] at h
      have hholds := List.find?_some hrun
      rw [h]
      refine upperChar_of_reached (List.mem_append_left _ (List.mem_flatMap.2 ⟨run, ?_, ?_⟩))
      · exact List.mem_of_find?_eq_some hrun
      · exact List.mem_map.2 ⟨c.toNat, Table.CaseRun.mem_points hholds, rfl⟩
    | none =>
      -- the character itself is left as it is
      simp only [hrun] at h
      rw [h]
      unfold upperChar
      simp only [if_neg hascii, hsequence, shifted, hrun]

/-- A text in upper case is its own upper case. -/
theorem upper_upper (s : String) : upper (upper s) = upper s := by
  have hchars : upperChars (upperChars s.toList) = upperChars s.toList := by
    have hfixed : ∀ y ∈ upperChars s.toList, upperChar y = [y] := by
      intro y hy
      obtain ⟨c, _, hc⟩ := List.mem_flatMap.1 hy
      exact upperChar_of_mem hc
    nth_rewrite 1 [upperChars]
    rw [List.flatMap_congr hfixed, List.flatMap_singleton']
  rw [upper, upper, String.toList_ofList, hchars]

end ClassAtlas.Text
