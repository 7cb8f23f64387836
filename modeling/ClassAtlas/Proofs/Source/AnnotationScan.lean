import Mathlib.Data.List.DropRight
import Mathlib.Data.List.Forall2
import ClassAtlas.Proofs.Source.AnnotationGrammar

/-! Reading the annotations above a declaration backwards, line by line, finds what can be said
without any order of reading: the annotations of the longest block of annotated lines right above,
where blank lines and comments do not count, and then those on the declaration's own line. -/

namespace ClassAtlas.Cursor

/-- The lines above that of a place, in their order. -/
def linesAbove (c : Cursor) : List (List Char) := (c.before.reverse.splitOn '\n').dropLast

theorem splitOn_before (c : Cursor) :
    c.before.reverse.splitOn '\n' = c.linesAbove ++ [c.lineHead] := by
  have hhead : '\n' ∉ c.lineHead := by
    intro hmem
    have hnot := List.mem_takeWhile_imp (List.mem_reverse.1 hmem)
    simp at hnot
  have hlines : ∃ above, c.before.reverse.splitOn '\n' = above ++ [c.lineHead] := by
    have hbefore : c.before.reverse =
        (c.before.dropWhile (· != '\n')).reverse ++ c.lineHead := by
      rw [lineHead, ← List.reverse_append, List.takeWhile_append_dropWhile]
    cases hd : c.before.dropWhile (· != '\n') with
    | nil =>
      rw [hbefore, hd, List.reverse_nil, List.nil_append, List.splitOn_eq_singleton hhead]
      exact ⟨[], rfl⟩
    | cons x rest =>
      obtain rfl : x = '\n' := by
        have hstops := Pattern.stops_dropWhile (· != '\n') c.before
        rw [hd] at hstops
        simpa using hstops x rfl
      rw [hbefore, hd, List.reverse_cons, List.append_assoc, List.singleton_append,
        List.splitOn_append_cons_self, List.splitOn_eq_singleton hhead]
      exact ⟨_, rfl⟩
  obtain ⟨above, habove⟩ := hlines
  rw [linesAbove, habove, List.dropLast_concat]

end ClassAtlas.Cursor

namespace ClassAtlas.Source

open Pattern

/-! ### Kinds of lines -/

/-- A blank line or a comment. -/
def isIdle (line : List Char) : Bool :=
  (Text.trimChars line).isEmpty || isComment (Text.trimChars line)

def isMarked (line : List Char) : Bool := "@".toList.isPrefixOf (Text.trimChars line)

theorem isIdle_of_isMarked {line : List Char} (h : isMarked line = true) : isIdle line = false := by
  obtain ⟨more, hmore⟩ := List.isPrefixOf_iff_prefix.1 h
  rw [isIdle, ← hmore]
  rfl

/-- The lines that count, in their order: all but blank lines and comments. -/
def countedLines (lines : List (List Char)) : List (List Char) := lines.filter (!isIdle ·)

theorem annotationsAbove_cons (line : List Char) (further : List (List Char)) :
    annotationsAbove (line :: further) =
      if isMarked line then annotationsAbove further ++ splitAnnotations (Text.trimChars line)
      else if isIdle line then annotationsAbove further else [] := rfl

/-- Going up from line to line, the annotations of the marked lines that come first are found. -/
theorem annotationsAbove_eq (lines : List (List Char)) :
    annotationsAbove lines = ((countedLines lines).takeWhile isMarked).reverse.flatMap fun line =>
      splitAnnotations (Text.trimChars line) := by
  induction lines with
  | nil => rfl
  | cons line further ih =>
    rw [annotationsAbove_cons]
    cases hmarked : isMarked line with
    | true =>
      simp [countedLines, isIdle_of_isMarked hmarked, hmarked, ih]
    | false =>
      cases hidle : isIdle line with
      | true => simpa [countedLines, hidle] using ih
      | false => simp [countedLines, hidle, hmarked]

theorem annotationsAbove_reverse (lines : List (List Char)) :
    annotationsAbove lines.reverse = ((countedLines lines).rtakeWhile isMarked).flatMap fun line =>
      splitAnnotations (Text.trimChars line) := by
  rw [annotationsAbove_eq, countedLines, List.filter_reverse]
  rfl

/-! ### The line of the declaration -/

theorem annotationsIn_of_trailingRun {text line rest : List Char} {above own : List (List Char)}
    (hlines : text.splitOn '\n' = above ++ [line]) (h : TrailingRun line own rest) :
    annotationsIn text =
      (if isIdle rest then annotationsAbove above.reverse else []) ++ own.map String.ofList := by
  have hfound := trailingRun_search line
  have hread : ∀ (rest : List Char) (own : List String),
      (if (Text.trimChars rest).isEmpty || isComment (Text.trimChars rest) then
        annotationsAbove above.reverse ++ own else own) =
        (if isIdle rest then annotationsAbove above.reverse else []) ++ own := by
    intro rest own
    unfold isIdle
    split <;> rfl
  unfold annotationsIn
  rw [hlines, List.reverse_concat]
  dsimp only
  cases hm : trailingAnnotations.search line with
  | some m =>
    rw [hm] at hfound
    obtain ⟨ts, hrun, hsplit⟩ := hfound
    obtain ⟨rfl, rfl⟩ := hrun.unique h
    rw [← hsplit]
    exact hread _ _
  | none =>
    rw [hm] at hfound
    obtain ⟨rfl, rfl⟩ := hfound.unique h
    exact hread _ _

theorem exists_trailingRun (line : List Char) : ∃ own rest, TrailingRun line own rest := by
  have hfound := trailingRun_search line
  split at hfound
  · obtain ⟨ts, hrun, _⟩ := hfound
    exact ⟨ts, _, hrun⟩
  · exact ⟨[], line, hfound⟩

theorem annotationsBefore_of_trailingRun {c : Cursor} {own : List (List Char)} {rest : List Char}
    (h : TrailingRun c.lineHead own rest) :
    annotationsBefore c none =
      (if isIdle rest then annotationsAbove c.linesAbove.reverse else []) ++
        own.map String.ofList :=
  annotationsIn_of_trailingRun c.splitOn_before h

/-! ### The reference -/

/-- The annotations of what is declared at a place. Those on its line are the last ones; where only
blanks or a comment stand before them, the lines above count too. -/
inductive Collected (c : Cursor) : List (List Char) → Prop where
  | ownLine {own : List (List Char)} {rest : List Char} (h : TrailingRun c.lineHead own rest)
      (hrest : isIdle rest = false) : Collected c own
  | allLines {own : List (List Char)} {rest : List Char} {above : List (List (List Char))}
      (h : TrailingRun c.lineHead own rest) (hrest : isIdle rest = true)
      (habove : List.Forall₂ (fun line out => LineAnnotations (Text.trimChars line) out)
        ((countedLines c.linesAbove).rtakeWhile isMarked) above) :
      Collected c (above.flatten ++ own)

theorem flatMap_splitAnnotations {lines : List (List Char)} {outs : List (List (List Char))}
    (h : List.Forall₂ (fun line out => LineAnnotations (Text.trimChars line) out) lines outs) :
    (lines.flatMap fun line => splitAnnotations (Text.trimChars line)) =
      outs.flatten.map String.ofList := by
  induction h with
  | nil => rfl
  | cons hline _ ih =>
    rw [List.flatMap_cons, List.flatten_cons, List.map_append, ih, splitAnnotations_eq_iff.2 hline]

theorem exists_lineAnnotations (lines : List (List Char)) :
    ∃ outs, List.Forall₂ (fun line out => LineAnnotations (Text.trimChars line) out) lines
      outs := by
  induction lines with
  | nil => exact ⟨[], .nil⟩
  | cons line lines ih =>
    obtain ⟨outs, houts⟩ := ih
    obtain ⟨ts, hts⟩ := exists_annotations (Text.trimChars line)
    exact ⟨_ :: outs, .cons ⟨ts, hts, rfl⟩ houts⟩

theorem Collected.annotationsBefore_eq {c : Cursor} {out : List (List Char)} (h : Collected c out) :
    annotationsBefore c none = out.map String.ofList := by
  cases h with
  | ownLine h hrest =>
    rw [annotationsBefore_of_trailingRun h, hrest]
    rfl
  | allLines h hrest habove =>
    rw [annotationsBefore_of_trailingRun h, hrest, if_pos rfl, annotationsAbove_reverse,
      flatMap_splitAnnotations habove, List.map_append]

theorem exists_collected (c : Cursor) : ∃ out, Collected c out := by
  obtain ⟨own, rest, h⟩ := exists_trailingRun c.lineHead
  cases hrest : isIdle rest with
  | false => exact ⟨own, .ownLine h hrest⟩
  | true =>
    obtain ⟨above, habove⟩ :=
      exists_lineAnnotations ((countedLines c.linesAbove).rtakeWhile isMarked)
    exact ⟨_, .allLines h hrest habove⟩

/-- Reading backwards collects exactly the annotations of the reference, and blank lines and
comments above the line of the declaration, however many and wherever they stand, make no
difference. -/
theorem annotationsBefore_eq_reference (c : Cursor) :
    (∀ out, annotationsBefore c none = out.map String.ofList ↔ Collected c out) ∧
      ∀ c' : Cursor, c'.lineHead = c.lineHead →
        countedLines c'.linesAbove = countedLines c.linesAbove →
        annotationsBefore c' none = annotationsBefore c none := by
  refine ⟨fun out => ⟨fun h => ?_, Collected.annotationsBefore_eq⟩, ?_⟩
  · obtain ⟨out', hout'⟩ := exists_collected c
    rw [hout'.annotationsBefore_eq] at h
    rw [← (List.map_inj_right fun _ _ => String.ofList_inj.1).1 h]
    exact hout'
  · intro c' hhead habove
    obtain ⟨own, rest, h⟩ := exists_trailingRun c.lineHead
    rw [annotationsBefore_of_trailingRun h, annotationsBefore_of_trailingRun (hhead ▸ h),
      annotationsAbove_reverse, annotationsAbove_reverse, habove]

theorem annotationsBefore_eq_reference_spread :
    let c : Cursor := ⟨"int x;\n@A\n@B(x = 1) @C\n@D ".toList.reverse, "int y;".toList⟩
    let c' : Cursor :=
      ⟨"int x;\n// one\n@A\n\n * two\n@B(x = 1) @C\n /* three */\n@D ".toList.reverse,
        "int y;".toList⟩
    annotationsBefore c none = ["@A", "@B(x = 1)", "@C", "@D"] ∧
      annotationsBefore c' none = annotationsBefore c none :=
  ⟨by decide, (annotationsBefore_eq_reference _).2 _ (by decide) (by decide)⟩

end ClassAtlas.Source
