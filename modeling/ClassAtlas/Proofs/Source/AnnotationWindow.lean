import ClassAtlas.Proofs.Source.AnnotationScan

/-! What a window over the text before a declaration does to its annotations. On the line of the
declaration it can only lose some. Above it, the window may show no more than the end of a line,
which is then read as a line of its own: exactly there annotations can come in that nobody wrote. -/

namespace ClassAtlas.Source

open Pattern

/-! ### A run inside of a run

Two runs that end together are made of the same annotations, as far as the shorter one goes. While a
run is read, each character takes the reading from one mode to another, and never from two modes to
the same one. So readings that end in one mode have been in the same mode all along, and a run
cannot start in the arguments of an annotation of the other. -/

/-- Where a reading stands: outside of arguments, in them, in a literal or a list there. -/
inductive Mode where
  | outside
  | arguments
  | double
  | single
  | nested
deriving DecidableEq

namespace Mode

def next : Mode → Char → Option Mode
  | outside, ch =>
    if ch = '(' then some arguments else if ch ∈ [')', '"', '\''] then none else some outside
  | arguments, ch =>
    if ch = '(' then some nested else if ch = ')' then some outside
    else if ch = '"' then some double else if ch = '\'' then some single else some arguments
  | double, ch => if ch = '"' then some arguments else some double
  | single, ch => if ch = '\'' then some arguments else some single
  | nested, ch => if ch = '(' then none else if ch = ')' then some arguments else some nested

/-- The mode behind a text. -/
def after : Mode → List Char → Option Mode
  | m, [] => some m
  | m, ch :: s => (m.next ch).bind fun m' => m'.after s

theorem next_injective {m m' x : Mode} {ch : Char} (h : m.next ch = some x)
    (h' : m'.next ch = some x) : m = m' := by
  have heq : m.next ch = m'.next ch := h.trans h'.symm
  have hsome : m.next ch ≠ none := by simp [h]
  clear h h'
  by_cases hopen : ch = '('
  · subst hopen
    cases m <;> cases m' <;> simp_all [next]
  by_cases hclose : ch = ')'
  · subst hclose
    cases m <;> cases m' <;> simp_all [next]
  by_cases hdouble : ch = '"'
  · subst hdouble
    cases m <;> cases m' <;> simp_all [next]
  by_cases hsingle : ch = '\''
  · subst hsingle
    cases m <;> cases m' <;> simp_all [next]
  · -- any other character stays in its mode
    have hstay : ∀ n : Mode, n.next ch = some n := by
      intro n
      cases n <;> simp [next, hopen, hclose, hdouble, hsingle]
    rw [hstay, hstay] at heq
    exact Option.some.inj heq

theorem after_injective {m m' x : Mode} {s : List Char} (h : m.after s = some x)
    (h' : m'.after s = some x) : m = m' := by
  induction s generalizing m m' with
  | nil => exact Option.some.inj (h.trans h'.symm)
  | cons ch s ih =>
    obtain ⟨n, hn, hs⟩ := Option.bind_eq_some_iff.1 h
    obtain ⟨n', hn', hs'⟩ := Option.bind_eq_some_iff.1 h'
    obtain rfl := ih hs hs'
    exact next_injective hn hn'

theorem after_append (m : Mode) (s t : List Char) :
    m.after (s ++ t) = (m.after s).bind fun m' => m'.after t := by
  induction s generalizing m with
  | nil => rfl
  | cons ch s ih =>
    rw [List.cons_append, after, after, Option.bind_assoc]
    exact Option.bind_congr fun n _ => ih n

theorem after_eq_self {m : Mode} {s : List Char} (h : ∀ ch ∈ s, m.next ch = some m) :
    m.after s = some m := by
  induction s with
  | nil => rfl
  | cons ch s ih =>
    rw [after, h ch List.mem_cons_self]
    exact ih fun x hx => h x (List.mem_cons_of_mem _ hx)

theorem next_outside {ch : Char} (h : ch ∉ ['(', ')', '"', '\'']) :
    outside.next ch = some outside := by
  simp only [List.mem_cons, not_or] at h
  simp [next, h]

theorem next_arguments {ch : Char} (h : ch ∉ ['(', ')', '"', '\'']) :
    arguments.next ch = some arguments := by
  simp only [List.mem_cons, not_or] at h
  simp [next, h]

/-- A literal or a list has a mode of its own, from its first character to its last. -/
theorem exists_enclosed {opening closing : Char} (h : (opening, closing) ∈ enclosures) :
    ∃ m, m ≠ outside ∧ arguments.next opening = some m ∧ m.next closing = some arguments ∧
      ∀ ch, ch ≠ opening → ch ≠ closing → m.next ch = some m := by
  simp only [enclosures, List.mem_cons, Prod.mk.injEq, List.not_mem_nil, or_false] at h
  rcases h with ⟨rfl, rfl⟩ | ⟨rfl, rfl⟩ | ⟨rfl, rfl⟩
  · exact ⟨double, by decide, by decide, by decide, fun ch hne _ => by simp [next, hne]⟩
  · exact ⟨single, by decide, by decide, by decide, fun ch hne _ => by simp [next, hne]⟩
  · exact ⟨nested, by decide, by decide, by decide, fun ch hne hne' => by simp [next, hne, hne']⟩

end Mode

open Mode

theorem Arguments.after_eq {args : List Char} (h : Arguments args) :
    arguments.after args = some arguments := by
  induction h with
  | nil => rfl
  | plain hch _ ih =>
    rw [Mode.after, next_arguments hch]
    exact ih
  | @enclosed opening closing inside s hpair hin _ ih =>
    obtain ⟨m, _, hopen, hclose, hstay⟩ := exists_enclosed hpair
    have hinside : m.after inside = some m := after_eq_self fun ch hch =>
      hstay ch (ne_of_mem_of_not_mem hch hin.1) (ne_of_mem_of_not_mem hch hin.2)
    rw [Mode.after, hopen, Option.bind_some, after_append, hinside, Option.bind_some,
      Mode.after, hclose]
    exact ih

/-- Inside of the arguments the reading is never outside. -/
theorem Arguments.after_inside {args v w : List Char} (h : Arguments args)
    (hsplit : args = v ++ w) : ∃ m, m ≠ outside ∧ arguments.after v = some m := by
  induction h generalizing v with
  | nil =>
    obtain ⟨rfl, _⟩ := List.append_eq_nil_iff.1 hsplit.symm
    exact ⟨arguments, by decide, rfl⟩
  | @plain ch s hch _ ih =>
    cases v with
    | nil => exact ⟨arguments, by decide, rfl⟩
    | cons x v =>
      obtain ⟨rfl, hrest⟩ := List.cons.inj hsplit
      rw [Mode.after, next_arguments hch]
      exact ih hrest
  | @enclosed opening closing inside s hpair hin _ ih =>
    obtain ⟨m, hm, hopen, hclose, hstay⟩ := exists_enclosed hpair
    have hinside : ∀ u, u <+: inside → m.after u = some m := fun u hu => after_eq_self fun ch hch =>
      hstay ch (ne_of_mem_of_not_mem (hu.subset hch) hin.1)
        (ne_of_mem_of_not_mem (hu.subset hch) hin.2)
    cases v with
    | nil => exact ⟨arguments, by decide, rfl⟩
    | cons x v =>
      obtain ⟨rfl, hrest⟩ := List.cons.inj hsplit
      rw [Mode.after, hopen, Option.bind_some]
      rcases List.append_eq_append_iff.1 hrest with ⟨u, rfl, hu⟩ | ⟨u, rfl, _⟩
      · -- the cut lies behind the text that is enclosed
        rw [after_append, hinside _ (List.prefix_refl _), Option.bind_some]
        cases u with
        | nil => exact ⟨m, hm, rfl⟩
        | cons y u =>
          obtain ⟨rfl, hrest'⟩ := List.cons.inj hu
          rw [Mode.after, hclose, Option.bind_some]
          exact ih hrest'
      · exact ⟨m, hm, hinside v (List.prefix_append v u)⟩

/-- A name and blanks leave the reading outside. -/
theorem after_name_gap {name gap : List Char} (hname : ∀ ch ∈ name, isDotted ch = true)
    (hgap : ∀ ch ∈ gap, Text.isBlank ch = true) :
    outside.after ('@' :: (name ++ gap)) = some outside := by
  refine after_eq_self fun ch hch => next_outside ?_
  intro hmem
  rcases List.mem_cons.1 hch with rfl | hch
  · exact absurd hmem (by decide)
  rcases List.mem_append.1 hch with hch | hch
  · have hnone : ∀ x ∈ ['(', ')', '"', '\''], isDotted x = false := by decide
    exact absurd (hname ch hch) (by simp [hnone ch hmem])
  · have hnone : ∀ x ∈ ['(', ')', '"', '\''], Text.isBlank x = false := by decide
    exact absurd (hgap ch hch) (by simp [hnone ch hmem])

theorem Annotation.after_eq {t : List Char} (h : Annotation t) :
    outside.after t = some outside := by
  cases h with
  | marker _ hname =>
    have h : outside.after ('@' :: (_ ++ [])) = some outside := after_name_gap hname (by simp)
    simpa using h
  | @call name gap args _ hname hgap hargs =>
    have htext : '@' :: (name ++ (gap ++ '(' :: (args ++ [')']))) =
        ('@' :: (name ++ gap)) ++ '(' :: (args ++ [')']) := by simp
    rw [htext, after_append, after_name_gap hname hgap, Option.bind_some, Mode.after]
    change arguments.after (args ++ [')']) = _
    rw [after_append, hargs.after_eq]
    rfl

theorem Run.after_eq {ts : List (List Char)} {r : List Char} (h : Run ts r) :
    outside.after r = some outside := by
  induction h with
  | nil => rfl
  | @cons t gap rest ts ht hgap _ ih =>
    have hblank : outside.after gap = some outside := by
      refine after_eq_self fun ch hch => next_outside ?_
      intro hmem
      have hnone : ∀ x ∈ ['(', ')', '"', '\''], Text.isBlank x = false := by decide
      exact absurd (hgap ch hch) (by simp [hnone ch hmem])
    rw [after_append, ht.after_eq, Option.bind_some, after_append, hblank]
    exact ih

/-- A sign in an annotation, its first one apart, stands in the arguments. -/
theorem Annotation.after_inside {t v w : List Char} (h : Annotation t) (hsplit : t = v ++ '@' :: w)
    (hv : v ≠ []) : ∃ m, m ≠ outside ∧ outside.after v = some m := by
  obtain ⟨x, v, rfl⟩ := List.exists_cons_of_ne_nil hv
  have hname_at : ∀ name : List Char, (∀ ch ∈ name, isDotted ch = true) → '@' ∉ name := by
    intro name hname hmem
    exact absurd (hname '@' hmem) (by decide)
  cases h with
  | @marker name _ hname =>
    obtain ⟨rfl, hrest⟩ := List.cons.inj hsplit
    exact absurd (by simp [hrest]) (hname_at name hname)
  | @call name gap args _ hname hgap hargs =>
    obtain ⟨rfl, hrest⟩ := List.cons.inj hsplit
    have hhead : '@' ∉ name ++ gap ++ ['('] := by
      have hgap_at : '@' ∉ gap := fun hmem => absurd (hgap '@' hmem) (by decide)
      simp [hname_at name hname, hgap_at]
    have hcut : (name ++ gap ++ ['(']) ++ (args ++ [')']) = v ++ '@' :: w := by
      rw [← show _ = v ++ '@' :: w from hrest]
      simp
    obtain ⟨u, rfl, hu⟩ : ∃ u, v = name ++ gap ++ ['('] ++ u ∧ args ++ [')'] = u ++ '@' :: w := by
      rcases List.append_eq_append_iff.1 hcut with hbehind | ⟨u, hu, hw⟩
      · exact hbehind
      · cases u with
        | nil => exact ⟨[], by simpa using hu.symm, hw.symm⟩
        | cons y u =>
          obtain ⟨rfl, _⟩ := List.cons.inj hw
          exact absurd (by simp [hu]) hhead
    obtain ⟨w', hw'⟩ : ∃ w', args = u ++ w' := by
      rcases List.append_eq_append_iff.1 hu with ⟨z, rfl, hz⟩ | ⟨z, hz, _⟩
      · cases z with
        | nil => exact ⟨[], by simp⟩
        | cons y z => simp at hz
      · exact ⟨z, hz⟩
    obtain ⟨m, hm, hinside⟩ := hargs.after_inside hw'
    refine ⟨m, hm, ?_⟩
    have htext : '@' :: (name ++ gap ++ ['('] ++ u) = ('@' :: (name ++ gap)) ++ '(' :: u := by simp
    rw [htext, after_append, after_name_gap hname hgap]
    exact hinside

/-- Of two runs that end together, the shorter one has the last annotations of the longer one. -/
theorem Run.suffix {ts ts' : List (List Char)} {r r' : List Char} (h : Run ts r) (h' : Run ts' r')
    (hsuffix : r' <:+ r) : ts' <:+ ts := by
  induction h with
  | nil =>
    obtain rfl := List.suffix_nil.1 hsuffix
    obtain rfl := h'.unique .nil
    exact List.suffix_refl _
  | @cons t gap rest ts ht hgap hrest ih =>
    have hbehind : r' <:+ gap ++ rest → ts' <:+ t :: ts := by
      intro hsuffix
      have hrest' : r' <:+ rest := by
        rcases suffix_append_cases hsuffix with hs | ⟨g, rfl, hg⟩
        · exact hs
        · cases g with
          | nil => exact List.suffix_refl _
          | cons x g =>
            have hx := h'.head x rfl
            have hblank := hgap x (hg.subset List.mem_cons_self)
            rw [hx] at hblank
            exact absurd hblank (by decide)
      exact (ih hrest').trans (List.suffix_cons t ts)
    rcases suffix_append_cases hsuffix with hs | ⟨u, rfl, v, hv⟩
    · exact hbehind hs
    · cases u with
      | nil => exact hbehind (List.suffix_refl _)
      | cons x u =>
        obtain rfl : x = '@' := h'.head x rfl
        by_cases hvne : v = []
        · subst hvne
          have hwhole : Run (t :: ts) ('@' :: u ++ (gap ++ rest)) := by
            rw [← hv] at ht ⊢
            exact .cons ht hgap hrest
          obtain rfl := h'.unique hwhole
          exact List.suffix_refl _
        · -- both readings end outside, so they were both outside where the second one starts
          exfalso
          obtain ⟨m, hm, hafter⟩ := ht.after_inside hv.symm hvne
          have hlong : outside.after (v ++ ('@' :: u ++ (gap ++ rest))) = some outside := by
            rw [← List.append_assoc, hv]
            exact Run.after_eq (.cons ht hgap hrest)
          rw [after_append, hafter] at hlong
          exact hm (after_injective hlong h'.after_eq)

theorem TrailingRun.suffix {line line' rest rest' : List Char} {ts ts' : List (List Char)}
    (h : TrailingRun line ts rest) (h' : TrailingRun line' ts' rest') (hline : line' <:+ line) :
    ts' <:+ ts := by
  obtain ⟨r, hr, hrun⟩ := h.written
  obtain ⟨r', hr', hrun'⟩ := h'.written
  have hs : r' <:+ line := List.IsSuffix.trans ⟨rest', hr'.symm⟩ hline
  have hle := h.longest r' ts' hs hrun'
  have hlen := congrArg List.length hr
  rw [List.length_append] at hlen
  exact hrun.suffix hrun' (List.suffix_of_suffix_length_le hs ⟨rest, hr.symm⟩ (by omega))

/-! ### The lines that a window shows -/

/-- A text without a line end is the end of the last line, whatever stands before it. -/
theorem exists_lastLine {tail : List Char} (htail : '\n' ∉ tail) (pre : List Char) :
    ∃ upper line, (pre ++ tail).splitOn '\n' = upper ++ [line] ∧ tail <:+ line := by
  have hlines := Cursor.splitOn_before ⟨(pre ++ tail).reverse, []⟩
  rw [List.reverse_reverse] at hlines
  refine ⟨_, _, hlines, ?_⟩
  have hpos : ∀ ch ∈ tail.reverse, (ch != '\n') = true := by
    intro ch hch
    rw [bne_iff_ne]
    exact ne_of_mem_of_not_mem (List.mem_reverse.1 hch) htail
  rw [Cursor.lineHead, List.reverse_append, List.takeWhile_append_of_pos hpos, List.reverse_append,
    List.reverse_reverse]
  exact List.suffix_append _ _

/-- Of the lines above a place, a window shows the end of one and all lines below that one. -/
structure Cuts (c : Cursor) (width : Nat) (upper : List (List Char)) (line tail : List Char)
    (lower : List (List Char)) : Prop where
  lines : c.linesAbove = upper ++ line :: lower
  ending : tail <:+ line
  shown : (c.lookBack (some width)).splitOn '\n' = tail :: (lower ++ [c.lineHead])

/-- A window starts on the line of the place or on a line above it. -/
theorem lookBack_cases (c : Cursor) (width : Nat) :
    '\n' ∉ c.lookBack (some width) ∧ c.lookBack (some width) <:+ c.lineHead ∨
      ∃ upper line tail lower, Cuts c width upper line tail lower := by
  obtain ⟨pre, hpre⟩ := c.lookBack_suffix (some width)
  have hall := c.splitOn_before
  rw [← hpre] at hall
  by_cases hmem : '\n' ∈ c.lookBack (some width)
  · refine .inr ?_
    obtain ⟨tail, shown, hshown, htail⟩ := List.eq_append_cons_of_mem hmem
    obtain ⟨upper, line, hlines, hsuffix⟩ := exists_lastLine htail pre
    have hlast := Cursor.splitOn_before ⟨shown.reverse, []⟩
    rw [List.reverse_reverse] at hlast
    rw [hshown, ← List.append_assoc, List.splitOn_append_cons_self, hlines, hlast,
      ← List.append_assoc] at hall
    obtain ⟨habove, hhead⟩ := List.append_inj' hall rfl
    obtain ⟨hhead, _⟩ := List.cons.inj hhead
    refine ⟨upper, line, tail, Cursor.linesAbove ⟨shown.reverse, []⟩, ?_, hsuffix, ?_⟩
    · rw [← habove, List.append_assoc]
      rfl
    · rw [hshown, List.splitOn_append_cons_self, List.splitOn_eq_singleton htail, hlast, hhead]
      rfl
  · refine .inl ⟨hmem, ?_⟩
    obtain ⟨upper, line, hlines, hsuffix⟩ := exists_lastLine hmem pre
    rw [hlines] at hall
    obtain ⟨_, hhead⟩ := List.append_inj' hall rfl
    obtain ⟨hhead, _⟩ := List.cons.inj hhead
    rw [← hhead]
    exact hsuffix

/-- The annotations of some lines and of those above them, as far as the reading gets. -/
theorem annotationsAbove_append (lower upper : List (List Char)) :
    annotationsAbove (lower ++ upper) =
      (if ∀ line ∈ lower, isMarked line = true ∨ isIdle line = true then annotationsAbove upper
        else []) ++ annotationsAbove lower := by
  induction lower with
  | nil => simp [annotationsAbove]
  | cons line lower ih =>
    rw [List.cons_append, annotationsAbove_cons, annotationsAbove_cons, ih]
    cases hmarked : isMarked line with
    | true => simp [hmarked]
    | false =>
      cases hidle : isIdle line with
      | true => simp [hidle]
      | false => simp [hmarked, hidle]

/-! ### What a window finds -/

/-- The reading of a place goes on above these lines, which stand right above it. -/
structure ReadsPast (c : Cursor) (lower : List (List Char)) : Prop where
  ownLine : ∃ own rest, TrailingRun c.lineHead own rest ∧ isIdle rest = true
  lines : ∀ line ∈ lower, isMarked line = true ∨ isIdle line = true

/-- The reading comes to a line of which the window shows only the end, and takes that end for a
line of annotations. -/
structure CutsMark (c : Cursor) (width : Nat) (upper : List (List Char)) (line tail : List Char)
    (lower : List (List Char)) : Prop extends Cuts c width upper line tail lower where
  partly : tail ≠ line
  marked : isMarked tail = true
  reached : ReadsPast c lower

theorem annotationsAbove_single (line : List Char) :
    annotationsAbove [line] =
      if isMarked line then splitAnnotations (Text.trimChars line) else [] := by
  rw [annotationsAbove_cons]
  simp [annotationsAbove]

theorem annotationsAbove_single_suffix (line : List Char) (upper : List (List Char)) :
    annotationsAbove [line] <:+ annotationsAbove (line :: upper) := by
  rw [annotationsAbove_single, annotationsAbove_cons]
  split
  · exact List.suffix_append _ _
  · exact List.nil_suffix

/-- On the line of the place itself a window only loses annotations. -/
theorem annotationsBefore_suffix_ownLine {c : Cursor} {width : Nat}
    (hno : '\n' ∉ c.lookBack (some width)) (hsuffix : c.lookBack (some width) <:+ c.lineHead) :
    annotationsBefore c (some width) <:+ annotationsBefore c none := by
  obtain ⟨own, rest, h⟩ := exists_trailingRun c.lineHead
  obtain ⟨own', rest', h'⟩ := exists_trailingRun (c.lookBack (some width))
  have hlines : (c.lookBack (some width)).splitOn '\n' = [] ++ [c.lookBack (some width)] :=
    List.splitOn_eq_singleton hno
  have hwindow : annotationsBefore c (some width) = own'.map String.ofList := by
    rw [annotationsBefore, annotationsIn_of_trailingRun hlines h']
    simp [annotationsAbove]
  rw [hwindow, annotationsBefore_of_trailingRun h]
  exact ((h.suffix h' hsuffix).map _).trans (List.suffix_append _ _)

/-- With and without a window the reading is the same below the line that the window cuts. -/
theorem Cuts.exists_kept {c : Cursor} {width : Nat} {upper lower : List (List Char)}
    {line tail : List Char} (h : Cuts c width upper line tail lower) :
    ∃ kept,
      (ReadsPast c lower →
        annotationsBefore c (some width) = annotationsAbove [tail] ++ kept ∧
          annotationsBefore c none = annotationsAbove (line :: upper.reverse) ++ kept) ∧
      (¬ReadsPast c lower →
        annotationsBefore c (some width) = kept ∧ annotationsBefore c none = kept) := by
  obtain ⟨own, rest, hrun⟩ := exists_trailingRun c.lineHead
  have hshown : (c.lookBack (some width)).splitOn '\n' = (tail :: lower) ++ [c.lineHead] := h.shown
  have hwindow := annotationsIn_of_trailingRun hshown hrun
  have hfull := annotationsBefore_of_trailingRun hrun
  rw [List.reverse_cons, annotationsAbove_append] at hwindow
  rw [h.lines, List.reverse_append, List.reverse_cons, List.append_assoc, List.singleton_append,
    annotationsAbove_append] at hfull
  simp only [List.mem_reverse] at hwindow hfull
  refine ⟨(if isIdle rest then annotationsAbove lower.reverse else []) ++ own.map String.ofList, ?_,
    ?_⟩
  · rintro ⟨⟨own', rest', hrun', hidle⟩, hlower⟩
    obtain ⟨rfl, rfl⟩ := hrun'.unique hrun
    rw [if_pos hlower, if_pos hidle, List.append_assoc] at hwindow hfull
    rw [if_pos hidle]
    exact ⟨hwindow, hfull⟩
  · intro hnot
    cases hidle : isIdle rest with
    | false =>
      rw [hidle] at hwindow hfull
      exact ⟨hwindow, hfull⟩
    | true =>
      have hlower : ¬∀ line ∈ lower, isMarked line = true ∨ isIdle line = true :=
        fun hlower => hnot ⟨⟨own, rest, hrun, hidle⟩, hlower⟩
      rw [if_neg hlower, hidle, List.nil_append] at hwindow hfull
      exact ⟨hwindow, hfull⟩

theorem Cuts.suffix_iff {c : Cursor} {width : Nat} {upper lower : List (List Char)}
    {line tail : List Char} (h : Cuts c width upper line tail lower) :
    annotationsBefore c (some width) <:+ annotationsBefore c none ↔
      (ReadsPast c lower →
        annotationsAbove [tail] <:+ annotationsAbove (line :: upper.reverse)) := by
  obtain ⟨kept, hpast, hstop⟩ := h.exists_kept
  by_cases hreach : ReadsPast c lower
  · obtain ⟨hwindow, hfull⟩ := hpast hreach
    rw [hwindow, hfull, List.suffix_append_self_iff]
    exact ⟨fun hs _ => hs, fun hs => hs hreach⟩
  · obtain ⟨hwindow, hfull⟩ := hstop hreach
    rw [hwindow, hfull]
    exact ⟨fun _ hpast => absurd hpast hreach, fun _ => List.suffix_refl _⟩

/-- A window that starts where a line starts shows that line whole. -/
theorem Cuts.tail_eq {c : Cursor} {width : Nat} {upper lower : List (List Char)}
    {line tail pre : List Char} (h : Cuts c width upper line tail lower)
    (hpre : c.before.reverse = pre ++ c.lookBack (some width))
    (hstart : pre = [] ∨ ['\n'] <:+ pre) :
    tail = line := by
  have hall := c.splitOn_before
  rw [h.lines, hpre] at hall
  have hlines : ∃ more, more ++ tail :: (lower ++ [c.lineHead]) =
      upper ++ line :: (lower ++ [c.lineHead]) := by
    rcases hstart with rfl | ⟨pre', rfl⟩
    · refine ⟨[], ?_⟩
      rw [List.nil_append, h.shown] at hall
      simpa using hall
    · refine ⟨pre'.splitOn '\n', ?_⟩
      rw [List.append_assoc, List.singleton_append, List.splitOn_append_cons_self, h.shown] at hall
      simpa using hall
  obtain ⟨more, hmore⟩ := hlines
  obtain ⟨_, htail⟩ := List.append_inj' hmore (by simp)
  exact (List.cons.inj htail).1

/-- What a window finds ends with annotations that are found without it. In front of them nothing
can stand but what is read from the end of a line that the window cuts, and only if that is no end
of what is found above does the window show annotations that are not there. A window that starts
where a line starts, or on the line of the place, shows none of these. -/
theorem annotationsBefore_window (c : Cursor) (width : Nat) :
    (∃ invented kept, annotationsBefore c (some width) = invented ++ kept ∧
      kept <:+ annotationsBefore c none ∧
      (invented = [] ∨ ∃ upper line tail lower, CutsMark c width upper line tail lower ∧
        invented = splitAnnotations (Text.trimChars tail))) ∧
    (annotationsBefore c (some width) <:+ annotationsBefore c none ↔
      ∀ upper line tail lower, CutsMark c width upper line tail lower →
        splitAnnotations (Text.trimChars tail) <:+ annotationsAbove (line :: upper.reverse)) ∧
    ∀ pre, c.before.reverse = pre ++ c.lookBack (some width) →
      pre = [] ∨ ['\n'] <:+ pre ∨ '\n' ∉ c.lookBack (some width) →
      annotationsBefore c (some width) <:+ annotationsBefore c none := by
  have hexact : annotationsBefore c (some width) <:+ annotationsBefore c none ↔
      ∀ upper line tail lower, CutsMark c width upper line tail lower →
        splitAnnotations (Text.trimChars tail) <:+ annotationsAbove (line :: upper.reverse) := by
    constructor
    · intro hs upper line tail lower h
      have htail := h.toCuts.suffix_iff.1 hs h.reached
      rwa [annotationsAbove_single, if_pos h.marked] at htail
    · intro hmark
      rcases lookBack_cases c width with ⟨hno, hsuffix⟩ | ⟨upper, line, tail, lower, h⟩
      · exact annotationsBefore_suffix_ownLine hno hsuffix
      refine h.suffix_iff.2 fun hreach => ?_
      by_cases hwhole : tail = line
      · subst hwhole
        exact annotationsAbove_single_suffix _ _
      rw [annotationsAbove_single]
      split
      · next hmarked => exact hmark upper line tail lower ⟨h, hwhole, hmarked, hreach⟩
      · exact List.nil_suffix
  refine ⟨?_, hexact, ?_⟩
  · by_cases hs : annotationsBefore c (some width) <:+ annotationsBefore c none
    · exact ⟨[], _, rfl, hs, .inl rfl⟩
    -- the window invents, so it cuts a line that is read
    rw [hexact] at hs
    push Not at hs
    obtain ⟨upper, line, tail, lower, h, _⟩ := hs
    obtain ⟨kept, hpast, _⟩ := h.toCuts.exists_kept
    obtain ⟨hwindow, hfull⟩ := hpast h.reached
    rw [annotationsAbove_single, if_pos h.marked] at hwindow
    exact ⟨_, kept, hwindow, ⟨_, hfull.symm⟩, .inr ⟨upper, line, tail, lower, h, rfl⟩⟩
  · intro pre hpre hstart
    refine hexact.2 fun upper line tail lower h => ?_
    rw [← or_assoc] at hstart
    rcases hstart with hstart | hno
    · exact absurd (h.toCuts.tail_eq hpre hstart) h.partly
    · have hshown := h.shown
      rw [List.splitOn_eq_singleton hno] at hshown
      simp at hshown

/-- A window over the last one of three lines loses an annotation above it. -/
theorem annotationsBefore_window_whole_line :
    let c : Cursor := ⟨"@A\n// see @B\n@C\n".toList.reverse, "int x;".toList⟩
    annotationsBefore c (some 3) = ["@C"] ∧ annotationsBefore c none = ["@A", "@C"] ∧
      annotationsBefore c (some 3) <:+ annotationsBefore c none :=
  ⟨by decide, by decide, (annotationsBefore_window _ 3).2.2 "@A\n// see @B\n".toList (by decide)
    (.inr (.inl (by decide)))⟩

/-- A window over the last two characters of `// see @A` reads an annotation from a comment. -/
theorem window_reads_comment :
    let c : Cursor := ⟨"// see @A\n".toList.reverse, "int x;".toList⟩
    annotationsBefore c (some 3) = ["@A"] ∧ annotationsBefore c none = [] ∧
      ¬annotationsBefore c (some 3) <:+ annotationsBefore c none := by
  decide

end ClassAtlas.Source
