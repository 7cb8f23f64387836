import Mathlib.Data.List.DropRight
import ClassAtlas.Proofs.Plain.Members
import ClassAtlas.Proofs.Source.AnnotationText

/-! Fields on one line with their annotation. Such a line starts like a line of annotations, so the
reading for the field below goes on through it: a field is read with the annotations of all the
fields in the unbroken run of annotated ones right above it, as far as the window shows them. -/

namespace ClassAtlas.Plain

open Source Pattern

variable {n : Name} {rest : List Char}

/-- A private field on one line, maybe with an annotation before it. -/
structure InlineField where
  marker : Option Name
  type : PlainType
  name : Name

namespace InlineField

/-- The field without its annotation. -/
def plain (f : InlineField) : PlainField where
  visibility := some ⟨"private", private_mem_visibilities⟩
  kind := .ordinary
  type := f.type
  name := f.name

def markerText (f : InlineField) : List Char :=
  match f.marker with
  | some a => '@' :: (a.chars ++ [' '])
  | none => []

def line (f : InlineField) : List Char :=
  "    ".toList ++ (f.markerText ++ (f.plain.declaration ++ ['\n']))

/-- The annotations that are written on the field. -/
def annotations (f : InlineField) : List String :=
  match f.marker with
  | some a => [String.ofList ('@' :: a.chars)]
  | none => []

/-- What the fields above, nearest first, add to the annotations of a field when so many characters
of their lines are shown. Only the indentation of a line may be hidden. -/
def passedOn (width : Nat) : List InlineField → List String
  | [] => []
  | f :: above =>
    if f.marker.isSome ∧ f.line.length ≤ width + 4 then
      passedOn (width - f.line.length) above ++ f.annotations
    else []

/-- The annotations that are read for a field below others when so many characters before its
declaration are shown. -/
def readBelow (width : Nat) (above : List InlineField) (f : InlineField) : List String :=
  if f.markerText.length ≤ width then
    passedOn (width - (f.markerText.length + 4)) above ++ f.annotations
  else []

/-- The fields as they are read, one below the other. -/
def readFrom (width : Nat) : List InlineField → List InlineField → List Field
  | _, [] => []
  | above, f :: fields =>
    { f.plain.field with annotations := readBelow width above f } ::
      readFrom width (f :: above) fields

/-- The first line of the class. -/
def opening (n : Name) : List Char := "class ".toList ++ (n.chars ++ [' ', '{', '\n'])

/-- The first line of the class and the fields, nearest first. -/
def lead (n : Name) (above : List InlineField) : List Char :=
  opening n ++ above.reverse.flatMap line

def source (n : Name) (fields : List InlineField) : List Char :=
  opening n ++ (fields.flatMap line ++ ['}', '\n'])

end InlineField

/-! ### What the window shows -/

theorem rtake_append (a b : List Char) (width : Nat) :
    (a ++ b).rtake width = a.rtake (width - b.length) ++ b.rtake width := by
  rw [List.rtake_eq_reverse_take_reverse, List.rtake_eq_reverse_take_reverse,
    List.rtake_eq_reverse_take_reverse, List.reverse_append, List.take_append, List.reverse_append,
    List.length_reverse]

theorem rtake_of_length_le {s : List Char} {width : Nat} (h : s.length ≤ width) :
    s.rtake width = s := by
  rw [List.rtake, Nat.sub_eq_zero_of_le h, List.drop_zero]

theorem rtake_suffix (s : List Char) (width : Nat) : s.rtake width <:+ s := List.drop_suffix _ _

theorem lookBack_eq_rtake (text after : List Char) (width : Nat) :
    (⟨text.reverse, after⟩ : Cursor).lookBack (some width) = text.rtake width := by
  rw [List.rtake_eq_reverse_take_reverse]
  rfl

theorem wholeLines_rtake {text : List Char} (h : WholeLines text) (width : Nat) :
    WholeLines (text.rtake width) := by
  rcases h.suffix (rtake_suffix text width) with hs | ⟨s, hs, _⟩
  · rw [hs]
    simp [WholeLines]
  · rw [hs]
    exact wholeLines_append_newline s

/-- Below a fence nothing is read, however much is shown. -/
theorem annotationsIn_rtake_fenced {text : List Char} (h : Fenced text) (width : Nat) :
    annotationsIn (text.rtake width) = [] := by
  have hnone := annotationsBefore_fenced h (show ∀ ch ∈ ([] : List Char), ch = ' ' by simp) []
    (some width)
  rw [List.append_nil, annotationsBefore, lookBack_eq_rtake] at hnone
  exact hnone

namespace InlineField

/-! ### The lines of the fields -/

theorem markerText_eq {f : InlineField} {a : Name} (h : f.marker = some a) :
    f.markerText = '@' :: (a.chars ++ [' ']) := by
  simp [markerText, h]

theorem opening_eq (n : Name) :
    opening n = "class ".toList ++ (n.chars ++ [' ']) ++ ['{', '\n'] := by
  unfold opening
  simp

theorem line_eq (f : InlineField) :
    f.line = "    ".toList ++ (f.markerText ++ f.plain.declaration ++ ['\n']) := by
  unfold line
  simp

theorem declaration_eq (f : InlineField) :
    ∃ s, (∀ ch ∈ s, isInline ch = true) ∧ f.plain.declaration = s ++ [';'] := by
  refine ⟨f.plain.modifiers.chars ++ (f.plain.type.chars ++ ' ' :: f.plain.name.chars), ?_, ?_⟩
  · exact List.forall_mem_append.2 ⟨f.plain.modifiers.inline,
      inline_named f.plain.type f.plain.name⟩
  · simp [PlainField.declaration]

theorem wholeLines_lead (n : Name) (above : List InlineField) : WholeLines (lead n above) := by
  refine WholeLines.append ?_ (WholeLines.flatMap fun f _ => ?_)
  · have h := wholeLines_append_newline ("class ".toList ++ (n.chars ++ [' ']) ++ ['{'])
    rw [opening_eq]
    simpa using h
  · rw [line_eq, ← List.append_assoc]
    exact wholeLines_append_newline _

theorem lead_cons (n : Name) (f : InlineField) (above : List InlineField) :
    lead n (f :: above) = lead n above ++ f.line := by
  simp [lead]

theorem fenced_opening (n : Name) : Fenced (opening n) := by
  have hinline : ∀ ch ∈ "class ".toList ++ (n.chars ++ [' ']), isInline ch = true :=
    List.forall_mem_append.2 ⟨by decide, List.forall_mem_append.2 ⟨n.asType.inline, by decide⟩⟩
  have hfence := fence_inline hinline (show Text.isBlank '{' = false ∧ _ by decide)
  refine ⟨[], _, by simp [WholeLines], hfence, ?_⟩
  simp [opening_eq]

/-- Without an annotation the line of a field is a fence. -/
theorem fenced_line {f : InlineField} (h : f.marker = none) (above : List InlineField) :
    Fenced (lead n (f :: above)) := by
  obtain ⟨s, hs, hdeclaration⟩ := f.declaration_eq
  have hinline : ∀ ch ∈ "    ".toList ++ s, isInline ch = true :=
    List.forall_mem_append.2 ⟨by decide, hs⟩
  have hfence := fence_inline hinline (show Text.isBlank ';' = false ∧ _ by decide)
  refine ⟨lead n above, _, wholeLines_lead n above, hfence, ?_⟩
  have htext : f.markerText = [] := by simp [markerText, h]
  rw [lead_cons, line_eq, htext, hdeclaration]
  simp

/-- The line of an annotated field behind its indentation. -/
theorem marking {f : InlineField} {a : Name} (h : f.marker = some a) :
    Marking (f.markerText ++ f.plain.declaration) ∧
      splitAnnotations (f.markerText ++ f.plain.declaration) = f.annotations := by
  obtain ⟨s, hs, hdeclaration⟩ := f.declaration_eq
  have hinline : ∀ ch ∈ ' ' :: (s ++ [';']), isInline ch = true :=
    List.forall_mem_cons.2 ⟨by decide, List.forall_mem_append.2 ⟨hs, by decide⟩⟩
  have htext : f.markerText ++ f.plain.declaration = ('@' :: a.chars) ++ ' ' :: (s ++ [';']) := by
    rw [markerText_eq h, hdeclaration]
    simp
  rw [htext]
  refine ⟨⟨⟨_, rfl⟩, ?_, ?_⟩, ?_⟩
  · rw [List.reverse_append, List.reverse_cons, List.reverse_append]
    exact stops_cons (by decide)
  · have hname : '\n' ∉ a.chars := a.not_mem (by decide)
    have hline := not_mem_of_inline hinline (show isInline '\n' = false by decide)
    intro hmem
    rcases List.mem_append.1 hmem with hmem | hmem
    · rcases List.mem_cons.1 hmem with hmem | hmem
      · exact absurd hmem (by decide)
      · exact hname hmem
    · exact hline hmem
  · have htoken := annotationToken_marker a.worded.1 a.worded.dotted
      (show Stops isDotted (' ' :: (s ++ [';'])) from stops_cons (by decide))
      (not_mem_of_inline hinline (by decide)) []
    have hsplit : splitAnnotations (('@' :: a.chars) ++ ' ' :: (s ++ [';'])) = _ :=
      splitAnnotations_eq (by simp) (.of_eq (by simpa using htoken))
        (not_mem_of_inline hinline (by decide))
    rw [hsplit, annotations, h]

/-- Where the window starts inside an annotated line, behind its first character, that line ends the
reading. -/
theorem annotationsIn_cut {f : InlineField} {a : Name} (h : f.marker = some a)
    {width : Nat} (hcut : width + 4 < f.line.length) : annotationsIn (f.line.rtake width) = [] := by
  obtain ⟨s, hs, hdeclaration⟩ := f.declaration_eq
  have hinline : ∀ ch ∈ a.chars ++ ' ' :: s, isInline ch = true :=
    List.forall_mem_append.2 ⟨a.asType.inline, List.forall_mem_cons.2 ⟨by decide, hs⟩⟩
  have hfence := fence_inline hinline (show Text.isBlank ';' = false ∧ _ by decide)
  have hfenced : Fenced (a.chars ++ ' ' :: s ++ [';'] ++ ['\n']) :=
    ⟨[], _, by simp [WholeLines], hfence, by simp⟩
  have hline : f.line = ("    ".toList ++ ['@']) ++ (a.chars ++ ' ' :: s ++ [';'] ++ ['\n']) := by
    rw [line_eq, markerText_eq h, hdeclaration]
    simp
  have hlen : width - (a.chars ++ ' ' :: s ++ [';'] ++ ['\n']).length = 0 := by
    rw [hline, List.length_append] at hcut
    have hhead : ("    ".toList ++ ['@']).length = 5 := rfl
    omega
  rw [hline, rtake_append, hlen, List.rtake_zero, List.nil_append]
  exact annotationsIn_rtake_fenced hfenced width

/-- The end of an annotated line that is shown from its annotation on. -/
theorem rtake_line {f : InlineField} {width : Nat} (h : f.line.length ≤ width + 4) :
    ∃ ind, (∀ ch ∈ ind, ch = ' ') ∧
      f.line.rtake width = ind ++ (f.markerText ++ f.plain.declaration ++ ['\n']) := by
  have hlen : (f.markerText ++ f.plain.declaration ++ ['\n']).length ≤ width := by
    rw [line_eq, List.length_append] at h
    have hind : "    ".toList.length = 4 := rfl
    omega
  refine ⟨"    ".toList.rtake (width - (f.markerText ++ f.plain.declaration ++ ['\n']).length), ?_,
    ?_⟩
  · intro ch hch
    have hspaces : ∀ ch ∈ "    ".toList, ch = ' ' := by decide
    exact hspaces ch ((rtake_suffix _ _).subset hch)
  · rw [line_eq, rtake_append, rtake_of_length_le hlen]

/-- What is read from the lines above: one step for each line, until one ends the reading. -/
theorem annotationsIn_lead (n : Name) (above : List InlineField) (width : Nat) :
    annotationsIn ((lead n above).rtake width) = passedOn width above := by
  induction above generalizing width with
  | nil =>
    have hlead : lead n [] = opening n := by simp [lead]
    rw [hlead, annotationsIn_rtake_fenced (fenced_opening n)]
    rfl
  | cons f above ih =>
    cases hmarker : f.marker with
    | none =>
      rw [annotationsIn_rtake_fenced (fenced_line hmarker above)]
      simp [passedOn, hmarker]
    | some a =>
      rw [lead_cons, rtake_append]
      by_cases hfit : f.line.length ≤ width + 4
      · obtain ⟨ind, hind, hline⟩ := rtake_line hfit
        obtain ⟨hmarking, hsplit⟩ := marking hmarker
        rw [hline, annotationsIn_marking (wholeLines_rtake (wholeLines_lead n above) _)
          hind hmarking, hsplit, ih]
        simp [passedOn, hmarker, hfit]
      · have hzero : width - f.line.length = 0 := by omega
        rw [hzero, List.rtake_zero, List.nil_append, annotationsIn_cut hmarker (by omega)]
        simp [passedOn, hfit]

/-- What is read for a field. -/
theorem annotationsBefore_eq (n : Name) (above : List InlineField) (f : InlineField)
    (width : Nat) (after : List Char) :
    annotationsBefore ⟨(lead n above ++ ("    ".toList ++ f.markerText)).reverse,
      after⟩ (some width) = readBelow width above f := by
  have hspaces : ∀ k, ∀ ch ∈ "    ".toList.rtake k, ch = ' ' := by
    intro k ch hch
    have hall : ∀ ch ∈ "    ".toList, ch = ' ' := by decide
    exact hall ch ((rtake_suffix _ _).subset hch)
  have hlen : ("    ".toList ++ f.markerText).length = f.markerText.length + 4 := by
    rw [List.length_append, Nat.add_comm]
    rfl
  have hlead := wholeLines_rtake (wholeLines_lead n above) (width - (f.markerText.length + 4))
  rw [annotationsBefore, lookBack_eq_rtake, rtake_append, hlen, rtake_append]
  cases hmarker : f.marker with
  | none =>
    have htext : f.markerText = [] := by simp [markerText, hmarker]
    have hown : f.annotations = [] := by simp [annotations, hmarker]
    rw [htext] at hlead ⊢
    rw [List.rtake_nil, List.append_nil, annotationsIn_wholeLines hlead (hspaces _),
      annotationsIn_lead]
    simp [readBelow, htext, hown]
  | some a =>
    have htext := markerText_eq hmarker
    by_cases hfit : f.markerText.length ≤ width
    · have hown : f.annotations = [String.ofList ('@' :: a.chars)] := by simp [annotations, hmarker]
      have hline := annotationsIn_trailing hlead (hspaces (width - f.markerText.length)) a.worded
        (show ∀ ch ∈ [' '], ch = ' ' by simp)
      rw [← htext, annotationsIn_lead] at hline
      rw [rtake_of_length_le hfit, hline, readBelow, if_pos hfit, hown]
    · -- the first character of the annotation is hidden
      have hcut : width ≤ (a.chars ++ [' ']).length := by
        rw [htext, List.length_cons] at hfit
        omega
      have hmark : f.markerText.rtake width = (a.chars ++ [' ']).rtake width := by
        rw [htext, ← List.singleton_append, rtake_append, Nat.sub_eq_zero_of_le hcut,
          List.rtake_zero, List.nil_append]
      have hinline : ∀ ch ∈ a.chars ++ [' '], isInline ch = true :=
        List.forall_mem_append.2 ⟨a.asType.inline, by decide⟩
      have hsub := (rtake_suffix (a.chars ++ [' ']) width).subset
      have hnone : annotationsIn ((a.chars ++ [' ']).rtake width) = [] :=
        annotationsIn_of_not_mem fun h => not_mem_of_inline hinline (by decide) (hsub h)
      have hfirst : width - f.markerText.length = 0 := by omega
      have hzero : width - (f.markerText.length + 4) = 0 := by omega
      rw [hzero, hfirst, List.rtake_zero, List.rtake_zero, List.nil_append, List.nil_append, hmark,
        hnone, readBelow, if_neg hfit]

/-! ### The fields that are read -/

/-- On the line of a field nothing starts a comment. -/
theorem inCommentLine_eq (n : Name) (above : List InlineField) (f : InlineField)
    (after : List Char) :
    inCommentLine ⟨(lead n above ++ ("    ".toList ++ f.markerText)).reverse, after⟩ = false := by
  have hclear : ∀ ch ∈ "    ".toList ++ f.markerText,
      ch ≠ '"' ∧ ch ≠ '\'' ∧ ch ≠ '/' ∧ ch ≠ '*' ∧ ch ≠ '\n' := by
    refine List.forall_mem_append.2 ⟨by decide, ?_⟩
    unfold markerText
    split
    · next a _ =>
      refine List.forall_mem_cons.2 ⟨by decide, List.forall_mem_append.2 ⟨?_, by decide⟩⟩
      intro ch hch
      refine ⟨?_, ?_, ?_, ?_, ?_⟩ <;> rintro rfl <;> exact a.not_mem (by decide) hch
    · simp
  have hline : '\n' ∉ "    ".toList ++ f.markerText := fun h => (hclear _ h).2.2.2.2 rfl
  refine inCommentLine_eq_false fun ch hch => ?_
  rw [List.reverse_append, Cursor.lineHead_eq hline (wholeLines_lead n above).head_reverse] at hch
  obtain ⟨hdouble, hsingle, hslash, hstar, _⟩ := hclear ch hch
  exact ⟨hdouble, hsingle, hslash, hstar⟩

/-- The annotation of a field is read before its declaration. -/
theorem prefers_field (f : InlineField) (before rest : List Char) :
    ∃ head, fieldPattern.Prefers ⟨' ' :: before, f.markerText ++ (f.plain.declaration ++ rest)⟩ head
      ⟨f.plain.declaration.reverse ++ (f.markerText.reverse ++ ' ' :: before), rest⟩ ∧
      head.start = ⟨f.markerText.reverse ++ ' ' :: before, f.plain.declaration ++ rest⟩ ∧
      f.plain.Heads head := by
  cases hmarker : f.marker with
  | none =>
    have htext : f.markerText = [] := by simp [markerText, hmarker]
    rw [htext]
    exact prefers_declaration f.plain (startsFree_space before (f.plain.declaration ++ rest))
  | some a =>
    have hstart := f.plain.declaration_starts rest
    have hitem : annotationItem.Prefers
        ⟨' ' :: before, '@' :: (a.chars ++ ([' '] ++ (f.plain.declaration ++ rest)))⟩ () _ :=
      prefers_annotationItem a.worded.1 a.worded.dotted (by decide)
        (stops_cons (by decide)) (by simp) (stops_blank_of_head hstart)
    obtain ⟨head, ⟨others, hread⟩, hhead⟩ := prefers_declaration f.plain
      (startsFree_space (a.chars.reverse ++ '@' :: ' ' :: before) (f.plain.declaration ++ rest))
    have heq := (fieldPattern_of_item hitem).trans hread
    have htext : f.markerText ++ (f.plain.declaration ++ rest) =
        '@' :: (a.chars ++ ([' '] ++ (f.plain.declaration ++ rest))) := by
      simp [markerText_eq hmarker]
    have hbefore : f.markerText.reverse ++ ' ' :: before =
        ' ' :: (a.chars.reverse ++ '@' :: ' ' :: before) := by
      simp [markerText_eq hmarker]
    rw [htext, hbefore]
    exact ⟨head, ⟨others, heq⟩, hhead⟩

/-- The scan for fields finds a field in its line, with the annotations that are read for it. -/
theorem finds_field (n : Name) (above : List InlineField) (f : InlineField)
    (width : Nat) (rest : List Char) :
    Finds fieldPattern (fun m => (fieldOfHead? [] (some width) m.value).map (·.field))
      (lead n above).reverse f.line rest
      [{ f.plain.field with annotations := readBelow width above f }] := by
  obtain ⟨head, hprefers, hstart, hhead⟩ :=
    f.prefers_field ("   ".toList.reverse ++ (lead n above).reverse) ('\n' :: rest)
  have hplace : head.start = ⟨(lead n above ++ ("    ".toList ++ f.markerText)).reverse,
      f.plain.declaration ++ '\n' :: rest⟩ := by
    rw [hstart]
    simp
  have htype := f.plain.type.text_not_mem statementKeywords_words
  have hname : f.plain.name.text ∉ statementKeywords :=
    f.plain.name.asType.text_not_mem statementKeywords_words
  have hfield : (fieldOfHead? [] (some width) head).map (·.field) =
      some { f.plain.field with annotations := readBelow width above f } := by
    have hkept : ¬(statementKeywords.contains head.type.text ||
        statementKeywords.contains head.name.text || inCommentLine head.start) = true := by
      rw [hhead.type, hhead.name, hplace, inCommentLine_eq]
      simp [htype, hname]
    simp only [fieldOfHead?, List.any_nil, Bool.false_or]
    rw [if_neg hkept, Option.map_some, hhead.type, hhead.name, hhead.visibility,
      hhead.isStatic, hplace, annotationsBefore_eq]
    rfl
  have hindent : Misses fieldPattern "    ".toList := by
    have h : Misses fieldPattern ("    ".toList ++ []) :=
      fieldPattern_leadsOnly.misses_spaces (by decide) misses_nil
    rwa [List.append_nil] at h
  have hline : Misses fieldPattern ['\n'] :=
    fieldPattern_leadsOnly.misses_mark (by decide) (by decide)
  have hne : f.markerText ++ f.plain.declaration ≠ [] := by simp [PlainField.declaration]
  have hfound := hprefers.finds
    (g := fun m => (fieldOfHead? [] (some width) m.value).map (·.field))
    (f.markerText ++ f.plain.declaration) hne (by simp) (by simp)
  rw [hfield] at hfound
  have hall := hindent.finds.append (Finds.append hfound hline.finds)
  rw [List.append_assoc] at hall
  exact hall

theorem finds_fields (n : Name) (fields above : List InlineField) (width : Nat)
    (rest : List Char) :
    Finds fieldPattern (fun m => (fieldOfHead? [] (some width) m.value).map (·.field))
      (lead n above).reverse (fields.flatMap line) rest (readFrom width above fields) := by
  induction fields generalizing above with
  | nil => exact misses_nil.finds
  | cons f fields ih =>
    have hrest := ih (f :: above)
    rw [lead_cons, List.reverse_append] at hrest
    exact (f.finds_field n above width _).append hrest

theorem fields_source (n : Name) (fields : List InlineField) (width : Nat) :
    Source.fields (source n fields) [] (some width) = readFrom width [] fields := by
  have hopening : Misses fieldPattern (opening n) := by
    have hphrase : ∀ ch ∈ "class ".toList ++ (n.chars ++ [' ']), isPhrase ch = true :=
      phrase_append (by decide) (phrase_append n.asType.phrase (by decide))
    have hline : Misses fieldPattern ['\n'] :=
      fieldPattern_leadsOnly.misses_mark (by decide) (by decide)
    have h := fieldPattern_leadsOnly.misses_phrase semicolon_proper hphrase
      (show Breaks [';', '='] '{' by decide) hline
    rw [opening_eq]
    exact h
  have hend : Misses fieldPattern ['}', '\n'] :=
    Misses.cons (fieldPattern_leadsOnly.misses_mark (by decide) (by decide))
      (fieldPattern_leadsOnly.misses_mark (by decide) (by decide))
  have hfields := finds_fields n fields [] width (['}', '\n'] ++ [])
  have hlead : lead n [] = opening n := by simp [lead]
  rw [hlead, ← List.append_nil (opening n).reverse] at hfields
  have hall := Finds.append hopening.finds (Finds.append hfields hend.finds)
  have hfound := hall.matchesIn (fieldPattern_requires.progress.eq_nil_at_end _)
  rw [Source.fields, locatedFields, List.map_filterMap, source, hfound]
  simp

/-! ### The class that is read -/

theorem header_opening (n : Name) (rest : List Char) :
    GenericHeader.text ⟨[], n, none, none, []⟩ ++ '\n' :: rest = opening n ++ rest := by
  have htext : GenericHeader.text ⟨[], n, none, none, []⟩ =
      "class ".toList ++ (n.chars ++ [' ', '{']) :=
    rfl
  unfold opening
  simp only [htext, List.append_assoc, List.cons_append, List.nil_append]

theorem not_mem_source (n : Name) (fields : List InlineField) : '(' ∉ source n fields := by
  have hopening : '(' ∉ opening n := by
    have hname : '(' ∉ n.chars := n.not_mem (by decide)
    simp [opening_eq, hname]
  have hline : ∀ f ∈ fields, '(' ∉ line f := by
    intro f _
    have hdeclaration : '(' ∉ f.plain.declaration := not_mem_of_inline f.plain.inline (by decide)
    have hmarker : '(' ∉ f.markerText := by
      unfold markerText
      split
      · next a _ =>
        have hname : '(' ∉ a.chars := a.not_mem (by decide)
        simp [hname]
      · simp
    simp [line_eq, hdeclaration, hmarker]
  simp only [source, List.mem_append, List.mem_flatMap, not_or, not_exists, not_and]
  exact ⟨hopening, hline, by decide⟩

theorem readClass?_source (settings : Settings) {width : Nat}
    (hwidth : settings.fieldWindow = some (width : Int)) (path : String) (n : Name)
    (fields : List InlineField) :
    ∃ c, readClass? settings path (source n fields) = some c ∧ c.name = n.text ∧
      c.fields = readFrom width [] fields := by
  have hfirst : WholeLines [] := by simp [WholeLines]
  have h := GenericHeader.exists_classHeader? ⟨[], n, none, none, []⟩ misses_nil hfirst
    ('\n' :: (fields.flatMap line ++ ['}', '\n']))
  rw [header_opening, ← source] at h
  obtain ⟨header, hheader, _, hname, _⟩ := h
  rw [List.nil_append] at hheader
  rw [readClass?, hheader, Option.map_some]
  refine ⟨_, rfl, hname, ?_⟩
  have hmethods := locatedMethods_eq_nil (source n fields) settings.methodWindow header.name
    (not_mem_source n fields)
  have hfields := fields_source n fields width
  simp only
  rw [hmethods, hwidth, List.map_nil, hfields]

/-! ### Whose annotations a field gets -/

/-- The annotation of the field is shown as a whole, and the field right above has none, or none
that is shown. -/
def Undisturbed (width : Nat) (above : List InlineField) (f : InlineField) : Prop :=
  f.markerText.length ≤ width ∧
    ∀ g ∈ above.head?, g.marker = none ∨ width - (f.markerText.length + 4) + 4 < g.line.length

theorem annotations_ne_nil {f : InlineField} (h : f.marker.isSome = true) : f.annotations ≠ [] := by
  obtain ⟨a, ha⟩ := Option.isSome_iff_exists.1 h
  simp [annotations, ha]

theorem passedOn_eq_nil_iff (width : Nat) (above : List InlineField) :
    passedOn width above = [] ↔
      ∀ g ∈ above.head?, g.marker = none ∨ width + 4 < g.line.length := by
  cases above with
  | nil => simp [passedOn]
  | cons g above =>
    rw [passedOn]
    split
    · next h =>
      have hne := annotations_ne_nil h.1
      have hsome : g.marker ≠ none := Option.isSome_iff_ne_none.1 h.1
      simp [hne, hsome]
      omega
    · next h =>
      simp only [List.head?_cons, Option.mem_def, Option.some.injEq, forall_eq', true_iff]
      by_cases hmarker : g.marker = none
      · exact .inl hmarker
      · refine .inr ?_
        by_contra hle
        exact h ⟨Option.isSome_iff_ne_none.2 hmarker, by omega⟩

theorem readBelow_eq_iff (width : Nat) (above : List InlineField) (f : InlineField) :
    readBelow width above f = f.annotations ↔ Undisturbed width above f := by
  unfold readBelow Undisturbed
  by_cases hfit : f.markerText.length ≤ width
  · rw [if_pos hfit, List.append_left_eq_self, passedOn_eq_nil_iff]
    simp [hfit]
  · have hsome : f.marker.isSome = true := by
      rw [Option.isSome_iff_ne_none]
      intro hnone
      simp [markerText, hnone] at hfit
    have hne := annotations_ne_nil hsome
    rw [if_neg hfit]
    simp [hfit, Ne.symm hne]

theorem getElem?_readFrom (width : Nat) (above : List InlineField) (f : InlineField)
    (earlier below : List InlineField) :
    (readFrom width earlier (above ++ f :: below))[above.length]? =
      some { f.plain.field with annotations := readBelow width (above.reverse ++ earlier) f } := by
  induction above generalizing earlier with
  | nil => simp [readFrom]
  | cons g above ih =>
    have hrest := ih (g :: earlier)
    rw [List.cons_append, readFrom, List.length_cons, List.getElem?_cons_succ, hrest]
    simp

theorem length_readFrom (width : Nat) (earlier fields : List InlineField) :
    (readFrom width earlier fields).length = fields.length := by
  induction fields generalizing earlier with
  | nil => rfl
  | cons f fields ih => rw [readFrom, List.length_cons, List.length_cons, ih]

/-- A field on one line gets the annotations of the run of annotated fields right above it and then
its own, as far as they are shown; so it gets exactly its own ones where nothing disturbs it. -/
theorem fields_of_inline_source (path : String) (n : Name) (above : List InlineField)
    (f : InlineField) (below : List InlineField) :
    ∃ c, readClass? .default path (source n (above ++ f :: below)) = some c ∧ c.name = n.text ∧
      c.fields.length = (above ++ f :: below).length ∧
      c.fields[above.length]? =
        some { f.plain.field with annotations := readBelow 200 above.reverse f } ∧
      (readBelow 200 above.reverse f = f.annotations ↔ Undisturbed 200 above.reverse f) := by
  obtain ⟨c, hread, hname, hfields⟩ := readClass?_source .default rfl path n (above ++ f :: below)
  have hfield := getElem?_readFrom 200 above f [] below
  rw [List.append_nil] at hfield
  refine ⟨c, hread, hname, ?_, ?_, readBelow_eq_iff 200 above.reverse f⟩
  · rw [hfields, length_readFrom]
  · rw [hfields, hfield]

/-- A field with an annotation, and one without below it. -/
def leaking : List InlineField :=
  [⟨some (.of "A"), ⟨.of "T", .none⟩, .of "f"⟩, ⟨none, ⟨.of "U", .none⟩, .of "g"⟩]

theorem leaking_not_own :
    source .sample leaking =
        "class N \x7b\n    @A private T f;\n    private U g;\n\x7d\n".toList ∧
      ∃ c, readClass? .default "N.java" (source .sample leaking) = some c ∧
        c.fields.map (·.annotations) = [["@A"], ["@A"]] ∧
        leaking.map annotations = [["@A"], []] := by
  obtain ⟨c, hread, _, hfields⟩ := readClass?_source .default rfl "N.java" .sample leaking
  refine ⟨by decide +kernel, c, hread, ?_, by decide +kernel⟩
  rw [hfields]
  decide +kernel

end InlineField

end ClassAtlas.Plain
