import ClassAtlas.Disk.Glob
import ClassAtlas.Disk.Path
import ClassAtlas.Proofs.Text.Pieces

/-! Path texts and name patterns. A path that goes on from another one has the same root and the new
steps behind the old ones, and a star before a plain text matches the names that end in the text. -/

namespace ClassAtlas.Disk

variable {suffix path : String} {way : List String}

/-! ### Roots and steps -/

/-- A component of a path that moves to another place. -/
structure IsStep (part : String) : Prop where
  nonempty : part ≠ ""
  single : '/' ∉ part.toList
  not_here : part ≠ "."

theorem isStep_of_mem_steps {part : String} (h : part ∈ steps path) : IsStep part := by
  obtain ⟨hpart, hkept⟩ := List.mem_filter.1 h
  rw [Bool.and_eq_true, Bool.not_eq_true', bne_iff_ne] at hkept
  obtain ⟨piece, hpiece, rfl⟩ := List.mem_map.1 hpart
  refine ⟨?_, ?_, hkept.2⟩
  · intro hempty
    rw [hempty] at hkept
    exact absurd hkept.1 (by decide)
  · rw [String.toList_ofList]
    exact Text.not_mem_of_mem_splitOn hpiece

theorem filter_of_isStep {parts : List String} (h : ∀ part ∈ parts, IsStep part) :
    parts.filter (fun part => !part.isEmpty && part != ".") = parts := by
  rw [List.filter_eq_self]
  intro part hpart
  rw [Bool.and_eq_true, Bool.not_eq_true', bne_iff_ne, ← Bool.not_eq_true, String.isEmpty_iff]
  exact ⟨(h part hpart).nonempty, (h part hpart).not_here⟩

theorem root_cases (path : String) : root path = "" ∨ root path = "/" ∨ root path = "//" := by
  unfold root
  split
  · exact .inr (.inr rfl)
  · split
    · exact .inr (.inl rfl)
    · exact .inl rfl

theorem isAbsolute_iff (path : String) : isAbsolute path = true ↔ root path ≠ "" := by
  unfold root
  split
  · next h =>
    rw [Bool.and_eq_true] at h
    obtain ⟨rest, hrest⟩ := List.isPrefixOf_iff_prefix.1 h.1
    refine iff_of_true (List.isPrefixOf_iff_prefix.2 ⟨'/' :: rest, ?_⟩) (by decide)
    rw [← hrest]
    rfl
  · split
    · next h => exact iff_of_true h (by decide)
    · next h => exact iff_of_false h (fun hne => hne rfl)

theorem splitAt_slash (text : String) :
    Text.splitAt '/' ("/" ++ text) = "" :: Text.splitAt '/' text := by
  have htext : ("/" ++ text).toList = '/' :: text.toList := String.toList_append
  rw [Text.splitAt, htext, List.splitOn_cons_eq_if_modifyHead, if_pos (by decide), List.map_cons]
  rfl

/-- Joined steps behind a root are cut into the steps again, with an empty part for each slash of
the root. -/
theorem splitAt_rooted (path : String) {parts : List String} (hne : parts ≠ [])
    (h : ∀ part ∈ parts, IsStep part) :
    Text.splitAt '/' (root path ++ "/".intercalate parts) =
      List.replicate (root path).length "" ++ parts := by
  have hparts : Text.splitAt '/' ("/".intercalate parts) = parts :=
    Text.splitAt_intercalate rfl hne fun part hpart => (h part hpart).single
  rcases root_cases path with hroot | hroot | hroot <;> rw [hroot]
  · rw [String.empty_append, hparts]
    rfl
  · rw [splitAt_slash, hparts]
    rfl
  · have htwo : "//" ++ "/".intercalate parts = "/" ++ ("/" ++ "/".intercalate parts) := by
      rw [← String.append_assoc]
      rfl
    rw [htwo, splitAt_slash, splitAt_slash, hparts]
    rfl

/-- Joined steps start with a character of the first of them. -/
theorem exists_toList_intercalate {parts : List String} (hne : parts ≠ [])
    (h : ∀ part ∈ parts, IsStep part) :
    ∃ c rest, ("/".intercalate parts).toList = c :: rest ∧ c ≠ '/' := by
  cases parts with
  | nil => exact absurd rfl hne
  | cons part parts =>
    have hpart := h part List.mem_cons_self
    obtain ⟨c, chars, hchars⟩ : ∃ c chars, part.toList = c :: chars := by
      cases hlist : part.toList with
      | nil => exact absurd (String.toList_eq_nil_iff.1 hlist) hpart.nonempty
      | cons c chars => exact ⟨c, chars, rfl⟩
    have hc : c ≠ '/' := by
      rintro rfl
      exact hpart.single (hchars ▸ List.mem_cons_self)
    rw [String.toList_intercalate, List.map_cons, hchars]
    cases parts with
    | nil => exact ⟨c, chars, List.intercalate_singleton, hc⟩
    | cons next parts =>
      rw [List.map_cons, List.intercalate_cons_cons]
      exact ⟨c, _, rfl, hc⟩

theorem root_rooted {text : String} {c : Char} {rest : List Char} (path : String)
    (htext : text.toList = c :: rest) (hc : c ≠ '/') : root (root path ++ text) = root path := by
  rcases root_cases path with hroot | hroot | hroot <;> rw [hroot] <;>
    simp [root, isAbsolute, Text.startsWith, htext, hc.symm]

/-- The root of a path, if it has one, and its steps. -/
def components (path : String) : List String :=
  (if root path = "" then [] else [root path]) ++ steps path

section Extend

variable (dir : String) (hne : way ≠ []) (h : ∀ part ∈ way, IsStep part)

include h in
theorem isStep_extended : ∀ part ∈ steps dir ++ way, IsStep part :=
  List.forall_mem_append.2 ⟨fun _ hpart => isStep_of_mem_steps hpart, h⟩

include hne h

/-- Going on from a path puts the new steps behind its own. -/
theorem steps_extend : steps (extend dir way) = steps dir ++ way := by
  have hparts := isStep_extended dir h
  have hblank : (List.replicate (root dir).length "").filter
      (fun part => !part.isEmpty && part != ".") = [] := by
    rw [List.filter_eq_nil_iff]
    intro part hpart
    rw [List.eq_of_mem_replicate hpart]
    decide
  rw [steps, extend, splitAt_rooted dir (List.append_ne_nil_of_right_ne_nil _ hne) hparts,
    List.filter_append, hblank, filter_of_isStep hparts, List.nil_append]

theorem root_extend : root (extend dir way) = root dir := by
  obtain ⟨c, rest, htext, hc⟩ := exists_toList_intercalate
    (List.append_ne_nil_of_right_ne_nil (steps dir) hne) (isStep_extended dir h)
  exact root_rooted dir htext hc

theorem components_extend : components (extend dir way) = components dir ++ way := by
  rw [components, components, root_extend dir hne h, steps_extend dir hne h, List.append_assoc]

theorem extend_ne_empty : extend dir way ≠ "" := by
  intro hempty
  have hsteps := steps_extend dir hne h
  rw [hempty] at hsteps
  exact hne (List.append_eq_nil_iff.1 hsteps.symm).2

end Extend

/-! ### Name patterns -/

/-- A suffix without slashes and wildcards. -/
def PlainSuffix (suffix : String) : Prop := ∀ ch ∈ suffix.toList, ch ∉ ['/', '*', '?', '[']

theorem toList_star (suffix : String) : ("*" ++ suffix).toList = '*' :: suffix.toList :=
  String.toList_append

theorem steps_star (plain : PlainSuffix suffix) : steps ("*" ++ suffix) = ["*" ++ suffix] := by
  have hslash : '/' ∉ ("*" ++ suffix).toList := by
    rw [toList_star, List.mem_cons, not_or]
    exact ⟨by decide, fun hmem => plain _ hmem (by decide)⟩
  have hne : ∀ s : String, s.toList.head? ≠ some '*' → "*" ++ suffix ≠ s := by
    intro s hs heq
    rw [← heq, toList_star] at hs
    exact hs rfl
  have hstep : IsStep ("*" ++ suffix) := ⟨hne "" (by decide), hslash, hne "." (by decide)⟩
  have hsplit : Text.splitAt '/' ("/".intercalate ["*" ++ suffix]) = ["*" ++ suffix] :=
    Text.splitAt_intercalate rfl (List.cons_ne_nil _ _) (List.forall_mem_singleton.2 hslash)
  rw [String.intercalate_singleton] at hsplit
  rw [steps, hsplit, filter_of_isStep (List.forall_mem_singleton.2 hstep)]

/-- A text without wildcards stands for itself. -/
theorem globItems_plain {text : List Char} (h : ∀ ch ∈ text, ch ∉ ['*', '?', '[']) {fuel : Nat}
    (hfuel : text.length ≤ fuel) : globItems fuel text = text.map GlobItem.char := by
  induction text generalizing fuel with
  | nil => cases fuel <;> rfl
  | cons ch text ih =>
    obtain ⟨hch, htext⟩ := List.forall_mem_cons.1 h
    cases fuel with
    | zero => simp at hfuel
    | succ fuel =>
      have hrest := ih htext (by simpa using hfuel)
      rw [globItems, hrest, List.map_cons]
      all_goals
        rintro rfl
        simp at hch

theorem globMatches_chars {text name : List Char} :
    globMatches (text.map GlobItem.char) name = true ↔ name = text := by
  induction text generalizing name with
  | nil => simp [globMatches]
  | cons ch text ih =>
    cases name with
    | nil => simp [globMatches]
    | cons c name => simp [globMatches, GlobItem.accepts, ih]

theorem someTail_iff {accepted : List Char → Bool} {text : List Char} :
    someTail accepted text = true ↔ ∃ tail, tail <:+ text ∧ accepted tail = true := by
  induction text with
  | nil => simp [someTail]
  | cons ch text ih =>
    rw [someTail, Bool.or_eq_true, ih]
    constructor
    · rintro (h | ⟨tail, hle, h⟩)
      · exact ⟨ch :: text, List.suffix_refl _, h⟩
      · exact ⟨tail, hle.trans (List.suffix_cons ch text), h⟩
    · rintro ⟨tail, hle, h⟩
      rcases List.suffix_cons_iff.1 hle with rfl | hle
      · exact .inl h
      · exact .inr ⟨tail, hle, h⟩

/-- A star before a text without wildcards stands for the names that end in the text. -/
theorem matchesGlob_star (plain : PlainSuffix suffix) {name : String} :
    matchesGlob ("*" ++ suffix) name = true ↔ suffix.toList <:+ name.toList := by
  have hlength : ("*" ++ suffix).length = suffix.toList.length + 1 := by
    rw [← String.length_toList, toList_star, List.length_cons]
  have hitems : globItems suffix.toList.length suffix.toList = suffix.toList.map GlobItem.char :=
    globItems_plain (fun ch hch hmem => plain ch hch (List.mem_cons_of_mem _ hmem)) (Nat.le_refl _)
  rw [matchesGlob, hlength, toList_star, globItems, hitems, globMatches, someTail_iff]
  simp only [globMatches_chars]
  constructor
  · rintro ⟨_, hle, rfl⟩
    exact hle
  · exact fun hle => ⟨_, hle, rfl⟩

end ClassAtlas.Disk
