import Mathlib.Data.List.Basic
import ClassAtlas.Role.Mapping

/-! Joining paths. Two paths that are not empty are joined by taking one slash from the end of the
first and putting one in front of the second where it is missing. These two steps commute on a path
in the middle, even if it is made of slashes only, and so three paths can be joined in either
order. -/

namespace ClassAtlas.Role

/-- The path without one slash at its end. -/
def trimSlash (path : List Char) : List Char :=
  if path.getLast? = some '/' then path.dropLast else path

/-- The path with a slash at its start. -/
def rootSlash (path : List Char) : List Char :=
  if path.head? = some '/' then path else '/' :: path

theorem rootSlash_slash (path : List Char) : rootSlash ('/' :: path) = '/' :: path := rfl

theorem rootSlash_of_ne {path : List Char} (h : path.head? ≠ some '/') :
    rootSlash path = '/' :: path := if_neg h

theorem rootSlash_eq_cons (path : List Char) : ∃ rest, rootSlash path = '/' :: rest := by
  by_cases h : path.head? = some '/'
  · obtain ⟨rest, rfl⟩ := List.head?_eq_some_iff.1 h
    exact ⟨rest, rootSlash_slash rest⟩
  · exact ⟨path, rootSlash_of_ne h⟩

/-- What stands before the last part is left as it is. -/
theorem trimSlash_append (a : List Char) {b : List Char} (hb : b ≠ []) :
    trimSlash (a ++ b) = a ++ trimSlash b := by
  unfold trimSlash
  rw [List.getLast?_append_of_ne_nil a hb]
  split
  · exact List.dropLast_append_of_ne_nil hb
  · rfl

theorem trimSlash_cons {b : List Char} (ch : Char) (hb : b ≠ []) :
    trimSlash (ch :: b) = ch :: trimSlash b := trimSlash_append [ch] hb

theorem trimSlash_of_ne {path : List Char} (h : path.getLast? ≠ some '/') : trimSlash path = path :=
  if_neg h

theorem trimSlash_append_slash (path : List Char) : trimSlash (path ++ ['/']) = path := by
  rw [trimSlash_append path (by simp)]
  exact List.append_nil path

/-- A path in the middle may be rooted first or trimmed first. A single slash vanishes when it is
trimmed, and then the path behind it brings its own. -/
theorem trimSlash_rootSlash {b : List Char} (hb : b ≠ []) (c : List Char) :
    trimSlash (rootSlash b) ++ rootSlash c = rootSlash (trimSlash b ++ rootSlash c) := by
  by_cases hslash : b.head? = some '/'
  · obtain ⟨rest, rfl⟩ := List.head?_eq_some_iff.1 hslash
    rw [rootSlash_slash]
    by_cases hrest : rest = []
    · subst hrest
      obtain ⟨more, hmore⟩ := rootSlash_eq_cons c
      rw [hmore]
      rfl
    · rw [trimSlash_cons '/' hrest, List.cons_append, rootSlash_slash]
  · have hhead : (trimSlash b ++ rootSlash c).head? ≠ some '/' := by
      obtain ⟨ch, rest, rfl⟩ := List.exists_cons_of_ne_nil hb
      by_cases hrest : rest = []
      · subst hrest
        have hlast : [ch].getLast? ≠ some '/' := hslash
        rw [trimSlash_of_ne hlast]
        exact hslash
      · rw [trimSlash_cons ch hrest]
        exact hslash
    rw [rootSlash_of_ne hslash, trimSlash_cons '/' hb, rootSlash_of_ne hhead, List.cons_append]

/-! ### Joined paths -/

variable {a b c : String}

theorem isPrefixOf_slash (s : List Char) :
    "/".toList.isPrefixOf s = decide (s.head? = some '/') := by
  cases s with
  | nil => rfl
  | cons ch rest =>
    have hhead : '/' = ch ↔ ch = '/' := eq_comm
    rw [Bool.eq_iff_iff]
    simp [List.isPrefixOf, hhead]

theorem startsWith_slash (s : String) :
    Text.startsWith "/" s = decide (s.toList.head? = some '/') := isPrefixOf_slash s.toList

theorem endsWith_slash (s : String) :
    Text.endsWith "/" s = decide (s.toList.getLast? = some '/') := by
  rw [← List.head?_reverse, ← isPrefixOf_slash]
  rfl

theorem combinePaths_empty_left (hb : b ≠ "") : combinePaths "" b = b := by
  simp [combinePaths, hb]

theorem combinePaths_empty_right (ha : a ≠ "") : combinePaths a "" = a := by
  simp [combinePaths, ha]

theorem toList_combinePaths (ha : a ≠ "") (hb : b ≠ "") :
    (combinePaths a b).toList = trimSlash a.toList ++ rootSlash b.toList := by
  have hparts : combinePaths a b =
      (if Text.endsWith "/" a then String.ofList a.toList.dropLast else a) ++
        (if Text.startsWith "/" b then b else "/" ++ b) := by
    simp [combinePaths, ha, hb]
  rw [hparts, String.toList_append, endsWith_slash, startsWith_slash, trimSlash, rootSlash]
  congr 1
  · split <;> simp_all
  · split <;> simp_all

theorem combinePaths_ne_empty (ha : a ≠ "") (hb : b ≠ "") : combinePaths a b ≠ "" := by
  intro h
  have hchars := toList_combinePaths ha hb
  obtain ⟨rest, hrest⟩ := rootSlash_eq_cons b.toList
  rw [h, hrest] at hchars
  simp at hchars

theorem combinePaths_assoc (ha : a ≠ "") (hb : b ≠ "") (hc : c ≠ "") :
    combinePaths (combinePaths a b) c = combinePaths a (combinePaths b c) := by
  have hchars : b.toList ≠ [] := by simpa using hb
  obtain ⟨rest, hrest⟩ := rootSlash_eq_cons b.toList
  have hroot : rootSlash b.toList ≠ [] := by simp [hrest]
  rw [← String.toList_inj]
  calc (combinePaths (combinePaths a b) c).toList
      = trimSlash (trimSlash a.toList ++ rootSlash b.toList) ++ rootSlash c.toList := by
        rw [toList_combinePaths (combinePaths_ne_empty ha hb) hc, toList_combinePaths ha hb]
    _ = trimSlash a.toList ++ (trimSlash (rootSlash b.toList) ++ rootSlash c.toList) := by
        rw [trimSlash_append _ hroot, List.append_assoc]
    _ = trimSlash a.toList ++ rootSlash (trimSlash b.toList ++ rootSlash c.toList) := by
        rw [trimSlash_rootSlash hchars]
    _ = (combinePaths a (combinePaths b c)).toList := by
        rw [toList_combinePaths ha (combinePaths_ne_empty hb hc), toList_combinePaths hb hc]

/-- An empty path drops out of a join of three. -/
theorem combinePaths_assoc_of_count (h : [a, b, c].count "" ≤ 1) :
    combinePaths (combinePaths a b) c = combinePaths a (combinePaths b c) := by
  by_cases ha : a = ""
  · subst ha
    obtain ⟨hb, hc⟩ : b ≠ "" ∧ c ≠ "" := by
      constructor <;> rintro rfl <;> simp [List.count_cons] at h
    rw [combinePaths_empty_left hb, combinePaths_empty_left (combinePaths_ne_empty hb hc)]
  · by_cases hb : b = ""
    · subst hb
      have hc : c ≠ "" := by
        rintro rfl
        simp [ha] at h
      rw [combinePaths_empty_right ha, combinePaths_empty_left hc]
    · by_cases hc : c = ""
      · subst hc
        rw [combinePaths_empty_right (combinePaths_ne_empty ha hb), combinePaths_empty_right hb]
      · exact combinePaths_assoc ha hb hc

/-- Neither a slash at the end of the base nor one at the start of the path is doubled. -/
theorem combinePaths_slashes {base path : String} (hbase : base ≠ "")
    (hend : Text.endsWith "/" base = false) (hpath : path ≠ "")
    (hstart : Text.startsWith "/" path = false) :
    ∀ first ∈ [base, base ++ "/"], ∀ second ∈ [path, "/" ++ path],
      combinePaths first second = base ++ "/" ++ path := by
  rw [endsWith_slash, decide_eq_false_iff_not] at hend
  rw [startsWith_slash, decide_eq_false_iff_not] at hstart
  have hfirst : ∀ first ∈ [base, base ++ "/"],
      first ≠ "" ∧ trimSlash first.toList = base.toList := by
    intro first hmem
    rcases List.mem_pair.1 hmem with rfl | rfl
    · exact ⟨hbase, trimSlash_of_ne hend⟩
    · refine ⟨by simp, ?_⟩
      rw [String.toList_append]
      exact trimSlash_append_slash base.toList
  have hsecond : ∀ second ∈ [path, "/" ++ path],
      second ≠ "" ∧ rootSlash second.toList = '/' :: path.toList := by
    intro second hmem
    rcases List.mem_pair.1 hmem with rfl | rfl
    · exact ⟨hpath, rootSlash_of_ne hstart⟩
    · refine ⟨by simp, ?_⟩
      rw [String.toList_append]
      exact rootSlash_slash path.toList
  intro first hmem second hmem'
  obtain ⟨hne, htrim⟩ := hfirst first hmem
  obtain ⟨hne', hroot⟩ := hsecond second hmem'
  rw [← String.toList_inj, toList_combinePaths hne hne', htrim, hroot]
  simp

/-- Joining three paths does not depend on the order as long as at most one of them is empty, and a
base and a path are joined by one slash whether or not each of them brings one. -/
theorem combinePaths_assoc_slash_insensitive :
    (∀ a b c : String, [a, b, c].count "" ≤ 1 →
      combinePaths (combinePaths a b) c = combinePaths a (combinePaths b c)) ∧
    ∀ base path : String, base ≠ "" → Text.endsWith "/" base = false →
      path ≠ "" → Text.startsWith "/" path = false →
        ∀ first ∈ [base, base ++ "/"], ∀ second ∈ [path, "/" ++ path],
          combinePaths first second = base ++ "/" ++ path :=
  ⟨fun _ _ _ h => combinePaths_assoc_of_count h,
    fun _ _ hbase hend hpath hstart => combinePaths_slashes hbase hend hpath hstart⟩

theorem combinePaths_assoc_slash_insensitive_orders :
    combinePaths (combinePaths "//" "/") "orders" = combinePaths "//" (combinePaths "/" "orders") ∧
      combinePaths (combinePaths "/" "") "/" = combinePaths "/" (combinePaths "" "/") ∧
      combinePaths ("/api" ++ "/") ("/" ++ "orders/") = "/api" ++ "/" ++ "orders/" := by
  obtain ⟨hassoc, hslash⟩ := combinePaths_assoc_slash_insensitive
  refine ⟨hassoc _ _ _ (by decide), hassoc _ _ _ (by decide), ?_⟩
  exact hslash "/api" "orders/" (by decide) (by decide) (by decide)
    (by decide) _ (by simp) _ (by simp)

/-- With two empty paths the order matters: they make the root, and the third path may lie
outside. -/
example : combinePaths (combinePaths "" "") "orders" = "/orders" ∧
    combinePaths "" (combinePaths "" "orders") = "orders" := by decide

end ClassAtlas.Role
