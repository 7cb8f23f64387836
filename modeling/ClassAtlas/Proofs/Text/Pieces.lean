import ClassAtlas.Proofs.Pattern.Preference
import ClassAtlas.Text.Pieces
import Mathlib.Data.List.Basic

/-! Trimming a text and cutting it at a separator. What is joined with a separator that no piece
holds is cut into the same pieces. -/

namespace ClassAtlas.Text

open Pattern

variable {ind core gap line s : List Char}

theorem trimStart_append (hind : ∀ ch ∈ ind, isBlank ch = true) (hcore : Stops isBlank core) :
    trimStart (ind ++ core) = core := by
  rw [trimStart, List.dropWhile_append_of_pos hind, dropWhile_of_stops hcore]

theorem trimEnd_append (hgap : ∀ ch ∈ gap, isBlank ch = true) (hcore : Stops isBlank core.reverse) :
    trimEnd (core ++ gap) = core := by
  have hrev : ∀ ch ∈ gap.reverse, isBlank ch = true :=
    fun ch hch => hgap ch (List.mem_reverse.1 hch)
  rw [trimEnd, List.reverse_append, List.dropWhile_append_of_pos hrev, dropWhile_of_stops hcore,
    List.reverse_reverse]

/-- Blanks on both sides are trimmed. -/
theorem trimChars_append (hind : ∀ ch ∈ ind, isBlank ch = true)
    (hgap : ∀ ch ∈ gap, isBlank ch = true) (hne : core ≠ []) (hfirst : Stops isBlank core)
    (hlast : Stops isBlank core.reverse) : trimChars (ind ++ (core ++ gap)) = core := by
  have hstart : Stops isBlank (core ++ gap) := by
    cases core with
    | nil => exact absurd rfl hne
    | cons ch core => exact stops_cons (hfirst ch (by simp))
  rw [trimChars, trimStart_append hind hstart, trimEnd_append hgap hlast]

theorem trimChars_eq_nil (h : ∀ ch ∈ s, isBlank ch = true) : trimChars s = [] := by
  have hstart := trimStart_append h stops_nil
  rw [List.append_nil] at hstart
  rw [trimChars, hstart]
  rfl

theorem mem_of_mem_splitOn {sep ch : Char} {text piece : List Char}
    (hpiece : piece ∈ text.splitOn sep) (hch : ch ∈ piece) : ch ∈ text := by
  induction text generalizing piece with
  | nil =>
    obtain rfl : piece = [] := by simpa using hpiece
    exact hch
  | cons x text ih =>
    obtain ⟨first, pieces, hpieces⟩ := List.exists_cons_of_ne_nil (List.splitOn_ne_nil sep text)
    rw [List.splitOn_cons_eq_if_modifyHead, hpieces, List.modifyHead_cons] at hpiece
    rw [hpieces] at ih
    split at hpiece
    · rcases List.mem_cons.1 hpiece with rfl | hpiece
      · exact absurd hch List.not_mem_nil
      · exact List.mem_cons_of_mem _ (ih hpiece hch)
    · rcases List.mem_cons.1 hpiece with rfl | hpiece
      · exact List.mem_cons.2 ((List.mem_cons.1 hch).imp_right (ih List.mem_cons_self))
      · exact List.mem_cons_of_mem _ (ih (List.mem_cons_of_mem _ hpiece) hch)

theorem stops_trimStart (text : List Char) : Stops isBlank (trimStart text) :=
  stops_dropWhile isBlank text

/-- What trimming the end takes away is blank. -/
theorem exists_trimStart_eq (text : List Char) :
    ∃ gap, (∀ ch ∈ gap, isBlank ch = true) ∧ trimStart text = trimChars text ++ gap := by
  refine ⟨((trimStart text).reverse.takeWhile isBlank).reverse, ?_, ?_⟩
  · exact fun ch hch => List.mem_takeWhile_imp (List.mem_reverse.1 hch)
  · rw [trimChars, trimEnd, ← List.reverse_append, List.takeWhile_append_dropWhile,
      List.reverse_reverse]

theorem mem_of_mem_trimChars {ch : Char} {text : List Char} (h : ch ∈ trimChars text) :
    ch ∈ text := by
  obtain ⟨gap, _, hsplit⟩ := exists_trimStart_eq text
  have hmem : ch ∈ trimStart text := by
    rw [hsplit]
    exact List.mem_append_left _ h
  exact (List.dropWhile_suffix isBlank).subset hmem

/-- Trimming the end keeps the first character that is not blank. -/
theorem head_trimChars {ch : Char} (h : (trimStart line).head? = some ch) :
    (trimChars line).head? = some ch := by
  obtain ⟨gap, hgap, hsplit⟩ := exists_trimStart_eq line
  have hfirst := stops_trimStart line ch h
  rw [hsplit] at h
  cases hcore : trimChars line with
  | nil =>
    rw [hcore, List.nil_append] at h
    have hblank := hgap ch (List.mem_of_mem_head? h)
    simp [hfirst] at hblank
  | cons x rest =>
    rw [hcore] at h
    exact h

/-- No blank stands at either end. -/
structure Trimmed (text : List Char) : Prop where
  first : Stops isBlank text
  last : Stops isBlank text.reverse

theorem trimmed_trimChars (text : List Char) : Trimmed (trimChars text) := by
  constructor
  · -- what is left at the start is the first character behind the blanks
    intro ch hch
    obtain ⟨gap, _, hsplit⟩ := exists_trimStart_eq text
    apply stops_trimStart text ch
    rw [hsplit]
    exact List.mem_head?_append_of_mem_head? hch
  · rw [trimChars, trimEnd, List.reverse_reverse]
    exact stops_dropWhile isBlank _

/-- What trimming takes away is blank. -/
theorem exists_trimChars_eq (text : List Char) :
    ∃ ind gap, (∀ ch ∈ ind, isBlank ch = true) ∧ (∀ ch ∈ gap, isBlank ch = true) ∧
      text = ind ++ (trimChars text ++ gap) := by
  obtain ⟨gap, hgap, hsplit⟩ := exists_trimStart_eq text
  refine ⟨text.takeWhile isBlank, gap, fun ch hch => List.mem_takeWhile_imp hch, hgap, ?_⟩
  rw [← hsplit, trimStart, List.takeWhile_append_dropWhile]

theorem Trimmed.trimChars_eq {text : List Char} (h : Trimmed text) : trimChars text = text := by
  rw [trimChars, trimStart, dropWhile_of_stops h.first, trimEnd, dropWhile_of_stops h.last,
    List.reverse_reverse]

theorem not_mem_of_mem_splitOn {sep : Char} {text piece : List Char}
    (h : piece ∈ text.splitOn sep) : sep ∉ piece := by
  induction text generalizing piece with
  | nil =>
    obtain rfl : piece = [] := by simpa using h
    exact List.not_mem_nil
  | cons ch text ih =>
    rw [List.splitOn_cons_eq_if_modifyHead] at h
    split at h
    · rcases List.mem_cons.1 h with rfl | h
      · exact List.not_mem_nil
      · exact ih h
    · next hch =>
      obtain ⟨first, pieces, hpieces⟩ := List.exists_cons_of_ne_nil (List.splitOn_ne_nil sep text)
      rw [hpieces, List.modifyHead_cons] at h
      rw [hpieces] at ih
      rcases List.mem_cons.1 h with rfl | h
      · rw [List.mem_cons, not_or]
        exact ⟨fun heq => hch (beq_iff_eq.2 heq.symm), ih List.mem_cons_self⟩
      · exact ih (List.mem_cons_of_mem _ h)

/-- A piece of a list without the blanks around it, unless it is blank. -/
def part? (piece : List Char) : Option String :=
  match trimChars piece with
  | [] => none
  | chars => some (String.ofList chars)

/-- A part of a list with commas: it is not empty, and it has no blank at its ends and no comma. -/
structure Part (part : List Char) : Prop where
  nonempty : part ≠ []
  trimmed : Trimmed part
  single : ',' ∉ part

theorem part_of_mem {text : List Char} {part : String}
    (h : part ∈ (text.splitOn ',').filterMap part?) : Part part.toList := by
  obtain ⟨piece, hpiece, hpart⟩ := List.mem_filterMap.1 h
  unfold part? at hpart
  split at hpart
  · simp at hpart
  · next hne =>
    obtain rfl := Option.some.inj hpart
    rw [String.toList_ofList]
    refine ⟨hne, trimmed_trimChars piece, ?_⟩
    exact fun hcomma => not_mem_of_mem_splitOn hpiece (mem_of_mem_trimChars hcomma)

theorem Part.part?_eq {part t : List Char} (h : Part part) (hs : ∀ ch ∈ s, ch = ' ')
    (ht : ∀ ch ∈ t, ch = ' ') : part? (s ++ (part ++ t)) = some (String.ofList part) := by
  have hblank : ∀ u : List Char, (∀ ch ∈ u, ch = ' ') → ∀ ch ∈ u, isBlank ch = true := by
    intro u hu ch hch
    rw [hu ch hch]
    decide
  have hne := h.nonempty
  rw [part?, trimChars_append (hblank s hs) (hblank t ht) hne h.trimmed.first h.trimmed.last]
  cases part with
  | nil => exact absurd rfl hne
  | cons ch part => rfl

/-- Pieces that are joined are the pieces of the joined text. -/
theorem splitAt_intercalate {sep : Char} {joint : String} (hjoint : joint.toList = [sep])
    {pieces : List String} (hne : pieces ≠ []) (h : ∀ s ∈ pieces, sep ∉ s.toList) :
    splitAt sep (joint.intercalate pieces) = pieces := by
  have hsplit : ([sep].intercalate (pieces.map String.toList)).splitOn sep =
      pieces.map String.toList := by
    apply List.splitOn_intercalate
    · intro piece hpiece
      obtain ⟨s, hs, rfl⟩ := List.mem_map.1 hpiece
      exact h s hs
    · simpa using hne
  rw [splitAt, String.toList_intercalate, hjoint, hsplit, List.map_map]
  simp

theorem lines_intercalate {pieces : List String} (hne : pieces ≠ [])
    (h : ∀ s ∈ pieces, '\n' ∉ s.toList) : lines ("\n".intercalate pieces) = pieces :=
  splitAt_intercalate rfl hne h

theorem not_mem_of_mem_lines {line text : String} (h : line ∈ lines text) : '\n' ∉ line.toList := by
  obtain ⟨piece, hpiece, rfl⟩ := List.mem_map.1 h
  rw [String.toList_ofList]
  exact not_mem_of_mem_splitOn hpiece

end ClassAtlas.Text
