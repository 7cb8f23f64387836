import ClassAtlas.Proofs.Text.Pieces
import ClassAtlas.Source.Annotations

/-! Reading backwards from a declaration. A line that is neither blank, a comment nor an annotation
ends the reading, and it does so as well when the window cuts it in two. -/

namespace ClassAtlas

/-- The window shows at least so many characters. -/
def Shows (window : Option Int) (count : Nat) : Prop := ∀ width ∈ window, (count : Int) ≤ width

/-- A window cuts what stands before a place, but not behind what it is sure to show. -/
theorem Cursor.exists_lookBack {window : Option Int} {t : List Char} (h : Shows window t.length)
    (pre after : List Char) :
    ∃ s, s <:+ pre ∧ (⟨(pre ++ t).reverse, after⟩ : Cursor).lookBack window = s ++ t := by
  cases window with
  | none => exact ⟨pre, List.suffix_refl _, by simp [Cursor.lookBack]⟩
  | some width =>
    have hle : t.length ≤ width.toNat := by
      have hw : (t.length : Int) ≤ width := h width rfl
      omega
    refine ⟨(pre.reverse.take (width.toNat - t.length)).reverse, ?_, ?_⟩
    · have hpre := List.reverse_suffix.2 (List.take_prefix (width.toNat - t.length) pre.reverse)
      simpa using hpre
    · have htake : t.reverse.take width.toNat = t.reverse :=
        List.take_of_length_le (by simpa using hle)
      simp [Cursor.lookBack, List.take_append, htake]

theorem Cursor.lookBack_suffix (c : Cursor) (window : Option Int) :
    c.lookBack window <:+ c.before.reverse := by
  cases window with
  | none => exact List.suffix_refl _
  | some width => exact List.reverse_suffix.2 (List.take_prefix _ _)

end ClassAtlas

namespace ClassAtlas.Source

open Pattern

/-! ### Lines that end the reading -/

/-- What stands first on the line is no annotation and no comment. -/
def Barrier (line : List Char) : Prop :=
  ∃ ch ∈ (Text.trimStart line).head?, ch ≠ '@' ∧ ch ≠ '/' ∧ ch ≠ '*'

theorem annotationsAbove_barrier {line : List Char} (h : Barrier line) (more : List (List Char)) :
    annotationsAbove (line :: more) = [] := by
  obtain ⟨ch, hch, hat, hslash, hstar⟩ := h
  have htrim := Text.head_trimChars hch
  cases hl : Text.trimChars line with
  | nil => simp [hl] at htrim
  | cons x rest =>
    obtain rfl : x = ch := by simpa [hl] using htrim
    have hno : ∀ a : Char, x ≠ a → (a == x) = false := by
      intro a ha
      rw [beq_eq_false_iff_ne]
      exact ha.symm
    simp [annotationsAbove, hl, isComment, List.isPrefixOf, hno _ hat, hno _ hslash, hno _ hstar]

theorem barrier_cons {ch : Char} (hblank : Text.isBlank ch = false)
    (h : ch ≠ '@' ∧ ch ≠ '/' ∧ ch ≠ '*') (rest : List Char) : Barrier (ch :: rest) := by
  refine ⟨ch, ?_, h⟩
  rw [Text.trimStart, dropWhile_of_stops (stops_cons hblank)]
  rfl

theorem barrier_of_forall {line : List Char} (hex : ∃ ch ∈ line, Text.isBlank ch = false)
    (hall : ∀ ch ∈ line, ch ≠ '@' ∧ ch ≠ '/' ∧ ch ≠ '*') : Barrier line := by
  cases hl : Text.trimStart line with
  | nil =>
    obtain ⟨ch, hch, hblank⟩ := hex
    have := List.dropWhile_eq_nil_iff.1 hl ch hch
    simp [hblank] at this
  | cons ch rest =>
    refine ⟨ch, by simp [hl], hall ch ?_⟩
    exact (List.dropWhile_suffix _).subset (hl ▸ List.mem_cons_self)

/-- A line that ends the reading wherever it is cut. -/
structure Fence (line : List Char) : Prop where
  ends : ∃ body last, line = body ++ [last] ∧ Text.isBlank last = false
  clear : ∀ ch ∈ line, ch ≠ '@' ∧ ch ≠ '/' ∧ ch ≠ '*' ∧ ch ≠ '\n'

theorem Fence.barrier {line s : List Char} (h : Fence line) (hs : s <:+ line) (hne : s ≠ []) :
    Barrier s := by
  refine barrier_of_forall ?_ ?_
  · obtain ⟨body, last, rfl, hlast⟩ := h.ends
    obtain ⟨t, ht⟩ := hs
    obtain rfl | ⟨s', z, rfl⟩ := List.eq_nil_or_concat s
    · exact absurd rfl hne
    · obtain rfl : z = last := by simpa using congrArg List.getLast? ht
      exact ⟨z, by simp, hlast⟩
  · intro ch hch
    obtain ⟨hat, hslash, hstar, _⟩ := h.clear ch (hs.subset hch)
    exact ⟨hat, hslash, hstar⟩

theorem Fence.not_mem {line s : List Char} (h : Fence line) (hs : s <:+ line) : '\n' ∉ s :=
  fun hmem => (h.clear _ (hs.subset hmem)).2.2.2 rfl

/-- Every line of the text is complete. -/
def WholeLines (text : List Char) : Prop := ∀ ch ∈ text.getLast?, ch = '\n'

/-- The text is made of whole lines, and the last one of them is a fence. -/
def Fenced (text : List Char) : Prop :=
  ∃ pre line, WholeLines pre ∧ Fence line ∧ text = pre ++ (line ++ ['\n'])

theorem wholeLines_append_newline (text : List Char) : WholeLines (text ++ ['\n']) := by
  simp [WholeLines]

theorem WholeLines.append {a b : List Char} (ha : WholeLines a) (hb : WholeLines b) :
    WholeLines (a ++ b) := by
  intro ch hch
  rw [List.getLast?_append] at hch
  cases hl : b.getLast? with
  | none =>
    rw [hl] at hch
    exact ha ch (by simpa using hch)
  | some x =>
    rw [hl] at hch
    obtain rfl : x = ch := by simpa using hch
    exact hb x (by simp [hl])

theorem WholeLines.flatMap {ι : Type} {items : List ι} {line : ι → List Char}
    (h : ∀ i ∈ items, WholeLines (line i)) : WholeLines (items.flatMap line) := by
  induction items with
  | nil => simp [WholeLines]
  | cons i items ih =>
    rw [List.flatMap_cons]
    exact (h i List.mem_cons_self).append (ih fun j hj => h j (List.mem_cons_of_mem _ hj))

theorem WholeLines.fenced {text line : List Char} (h : WholeLines text) (hline : Fence line) :
    Fenced (text ++ (line ++ ['\n'])) := ⟨text, line, h, hline, rfl⟩

theorem Fenced.wholeLines {text : List Char} (h : Fenced text) : WholeLines text := by
  obtain ⟨pre, line, _, _, rfl⟩ := h
  rw [← List.append_assoc]
  exact wholeLines_append_newline _

/-- Where a text of whole lines ends, a line starts. -/
theorem WholeLines.head_reverse {text : List Char} (h : WholeLines text) :
    ∀ ch ∈ text.reverse.head?, ch = '\n' := by
  rw [List.head?_reverse]
  exact h

theorem WholeLines.startsWord {text : List Char} (h : WholeLines text) :
    Pattern.startsWord text.reverse = false := by
  have hhead := h.head_reverse
  cases hr : text.reverse with
  | nil => rfl
  | cons ch rest =>
    obtain rfl : ch = '\n' := hhead ch (by simp [hr])
    exact (by decide : Text.isWord '\n' = false)

/-- The end of a text of whole lines is empty or stands behind the end of a line. -/
theorem WholeLines.suffix {text s : List Char} (h : WholeLines text) (hs : s <:+ text) :
    s = [] ∨ ∃ s', s = s' ++ ['\n'] ∧ s' <:+ text.dropLast := by
  obtain rfl | ⟨s', z, rfl⟩ := List.eq_nil_or_concat s
  · exact .inl rfl
  · obtain ⟨t, rfl⟩ := hs
    obtain rfl : z = '\n' := h z (by simp)
    exact .inr ⟨s', by simp, ⟨t, by simp⟩⟩

theorem suffix_append_cases {a b s : List Char} (h : s <:+ a ++ b) :
    s <:+ b ∨ ∃ s', s = s' ++ b ∧ s' <:+ a := by
  obtain ⟨t, ht⟩ := h
  rcases List.append_eq_append_iff.1 ht with ⟨u, hu, hs⟩ | ⟨u, hu, hb⟩
  · exact .inr ⟨u, hs, ⟨t, hu.symm⟩⟩
  · exact .inl ⟨u, hb.symm⟩

/-- Above a fence nothing is read. -/
theorem annotationsAbove_fence {pre line s : List Char} (hpre : WholeLines pre) (hline : Fence line)
    (hs : s <:+ pre ++ line) : annotationsAbove (s.splitOn '\n').reverse = [] := by
  rcases suffix_append_cases hs with hs | ⟨s', rfl, hs'⟩
  · rw [List.splitOn_eq_singleton (hline.not_mem hs)]
    by_cases hne : s = []
    · rw [hne]
      rfl
    · exact annotationsAbove_barrier (hline.barrier hs hne) []
  · have hne : line ≠ [] := by
      obtain ⟨body, last, rfl, _⟩ := hline.ends
      simp
    have hbar := hline.barrier (List.suffix_refl line) hne
    have hline' := hline.not_mem (List.suffix_refl line)
    rcases hpre.suffix hs' with rfl | ⟨s'', rfl, _⟩
    · rw [List.nil_append, List.splitOn_eq_singleton hline']
      exact annotationsAbove_barrier hbar []
    · rw [List.append_assoc, List.singleton_append, List.splitOn_append_cons_self,
        List.splitOn_eq_singleton hline', List.reverse_append]
      exact annotationsAbove_barrier hbar _

/-! ### Lines with annotations -/

theorem lit_at_of_ne {before rest : List Char} {ch : Char} (h : ch ≠ '@') :
    lit "@" ⟨before, ch :: rest⟩ = [] := by
  simp [lit, chars, h]

theorem trailingAnnotations_misses {line : List Char} (h : '@' ∉ line) :
    Misses trailingAnnotations line := by
  refine misses_of_forall_mem fun ch hch before rest => ?_
  refine bind_eq_nil (bind_eq_nil (lit_at_of_ne ?_))
  rintro rfl
  exact h hch

theorem not_mem_of_spaces {tail : List Char} (h : ∀ ch ∈ tail, ch = ' ') {ch : Char}
    (hch : ch ≠ ' ') : ch ∉ tail := fun hmem => hch (h ch hmem)

theorem isBlank_of_spaces {tail : List Char} (h : ∀ ch ∈ tail, ch = ' ') :
    ∀ ch ∈ tail, Text.isBlank ch = true := by
  intro ch hch
  rw [h ch hch]
  decide

/-- A last line of spaces leaves the annotations to the lines above it. -/
theorem annotationsIn_append_spaces {tail : List Char} (htail : ∀ ch ∈ tail, ch = ' ')
    (text : List Char) :
    annotationsIn (text ++ '\n' :: tail) = annotationsAbove (text.splitOn '\n').reverse := by
  have hsearch : trailingAnnotations.search tail = none :=
    (trailingAnnotations_misses (not_mem_of_spaces htail (by decide))).search_eq_none rfl
  unfold annotationsIn
  rw [List.splitOn_append_cons_self,
    List.splitOn_eq_singleton (not_mem_of_spaces htail (by decide)), List.reverse_append]
  simp [hsearch, Text.trimChars_eq_nil (isBlank_of_spaces htail)]

theorem annotationsAbove_of_not_mem {lines : List (List Char)} (h : ∀ line ∈ lines, '@' ∉ line) :
    annotationsAbove lines = [] := by
  induction lines with
  | nil => rfl
  | cons line further ih =>
    have hplain : ¬['@'] <+: Text.trimChars line := fun hstart =>
      h line List.mem_cons_self (Text.mem_of_mem_trimChars (hstart.subset List.mem_cons_self))
    have hfurther := ih fun l hl => h l (List.mem_cons_of_mem _ hl)
    unfold annotationsAbove
    simp [hplain, hfurther]

/-- Without an at sign there are no annotations. -/
theorem annotationsIn_of_not_mem {text : List Char} (h : '@' ∉ text) : annotationsIn text = [] := by
  unfold annotationsIn
  cases hcut : (text.splitOn '\n').reverse with
  | nil => rfl
  | cons last earlier =>
    have hmem : ∀ line ∈ last :: earlier, '@' ∉ line := by
      intro line hline
      rw [← hcut, List.mem_reverse] at hline
      exact fun hat => h (Text.mem_of_mem_splitOn hline hat)
    have hsearch : trailingAnnotations.search last = none :=
      (trailingAnnotations_misses (hmem last List.mem_cons_self)).search_eq_none rfl
    have habove : annotationsAbove earlier = [] :=
      annotationsAbove_of_not_mem fun line hline => hmem line (List.mem_cons_of_mem _ hline)
    simp [hsearch, habove]

theorem annotationsIn_spaces {tail : List Char} (htail : ∀ ch ∈ tail, ch = ' ') :
    annotationsIn tail = [] := annotationsIn_of_not_mem (not_mem_of_spaces htail (by decide))

/-- Without a window it is enough that the line above is a barrier as a whole. -/
theorem annotationsIn_barrier {pre line tail : List Char} (hpre : WholeLines pre)
    (hline : Barrier line) (hno : '\n' ∉ line) (htail : ∀ ch ∈ tail, ch = ' ') :
    annotationsIn (pre ++ (line ++ '\n' :: tail)) = [] := by
  rw [← List.append_assoc, annotationsIn_append_spaces htail]
  rcases hpre.suffix (List.suffix_refl pre) with rfl | ⟨s, rfl, _⟩
  · rw [List.nil_append, List.splitOn_eq_singleton hno]
    exact annotationsAbove_barrier hline []
  · rw [List.append_assoc, List.singleton_append, List.splitOn_append_cons_self,
      List.splitOn_eq_singleton hno, List.reverse_append]
    exact annotationsAbove_barrier hline _

/-- A line that starts with an annotation, without the spaces before it. -/
structure Marking (core : List Char) : Prop where
  starts : ∃ more, core = '@' :: more
  ends : Stops Text.isBlank core.reverse
  line : '\n' ∉ core

theorem annotationsAbove_marking {ind core : List Char} (hind : ∀ ch ∈ ind, ch = ' ')
    (hcore : Marking core) (more : List (List Char)) :
    annotationsAbove ((ind ++ core) :: more) = annotationsAbove more ++ splitAnnotations core := by
  obtain ⟨rest, hrest⟩ := hcore.starts
  have htrim : Text.trimChars (ind ++ core) = core := by
    have h : Text.trimChars (ind ++ (core ++ [])) = core :=
      Text.trimChars_append (isBlank_of_spaces hind) (by simp) (by simp [hrest])
        (hrest ▸ stops_cons (by decide)) hcore.ends
    simpa using h
  rw [annotationsAbove, htrim]
  simp [hrest]

/-- Spaces behind whole lines change nothing. -/
theorem annotationsIn_wholeLines {text tail : List Char} (h : WholeLines text)
    (htail : ∀ ch ∈ tail, ch = ' ') : annotationsIn (text ++ tail) = annotationsIn text := by
  rcases h.suffix (List.suffix_refl text) with rfl | ⟨s, rfl, _⟩
  · exact annotationsIn_spaces htail
  · rw [List.append_assoc, List.singleton_append, annotationsIn_append_spaces htail]
    exact (annotationsIn_append_spaces (by simp) s).symm

/-- One more line with annotations adds them to those of the lines before it. -/
theorem annotationsIn_marking {text ind core : List Char} (h : WholeLines text)
    (hind : ∀ ch ∈ ind, ch = ' ') (hcore : Marking core) :
    annotationsIn (text ++ (ind ++ (core ++ ['\n']))) =
      annotationsIn text ++ splitAnnotations core := by
  have hno : '\n' ∉ ind ++ core := by
    intro hmem
    rcases List.mem_append.1 hmem with hmem | hmem
    · exact absurd (hind _ hmem) (by decide)
    · exact hcore.line hmem
  have hcut : text ++ (ind ++ (core ++ ['\n'])) = (text ++ (ind ++ core)) ++ ['\n'] := by simp
  rw [hcut, annotationsIn_append_spaces (by simp)]
  rcases h.suffix (List.suffix_refl text) with rfl | ⟨s, rfl, _⟩
  · rw [List.nil_append, List.splitOn_eq_singleton hno]
    exact annotationsAbove_marking hind hcore []
  · rw [List.append_assoc, List.singleton_append, List.splitOn_append_cons_self,
      List.splitOn_eq_singleton hno, List.reverse_append, List.reverse_singleton,
      List.singleton_append, annotationsAbove_marking hind hcore,
      annotationsIn_append_spaces (by simp)]

/-- Behind a fence and spaces there are no annotations, however wide the window is. -/
theorem annotationsBefore_fenced {text tail : List Char} (h : Fenced text)
    (htail : ∀ ch ∈ tail, ch = ' ') (after : List Char) (window : Option Int) :
    annotationsBefore ⟨(text ++ tail).reverse, after⟩ window = [] := by
  have hsuffix := Cursor.lookBack_suffix ⟨(text ++ tail).reverse, after⟩ window
  rw [List.reverse_reverse] at hsuffix
  rw [annotationsBefore]
  rcases suffix_append_cases hsuffix with hs | ⟨s, hs, hsub⟩
  · exact annotationsIn_spaces fun ch hch => htail ch (hs.subset hch)
  · rw [hs]
    rcases h.wholeLines.suffix hsub with rfl | ⟨s', rfl, hs'⟩
    · exact annotationsIn_spaces htail
    · obtain ⟨pre, line, hpre, hline, rfl⟩ := h
      rw [List.append_assoc, List.singleton_append, annotationsIn_append_spaces htail]
      refine annotationsAbove_fence hpre hline ?_
      rw [← List.append_assoc, List.dropLast_concat] at hs'
      exact hs'

/-- Between a fence and the declaration there is a single line, and it holds annotations. -/
theorem annotationsBefore_marking {text ind core tail : List Char} {window : Option Int}
    (h : Fenced text) (hind : ∀ ch ∈ ind, ch = ' ') (hcore : Marking core)
    (htail : ∀ ch ∈ tail, ch = ' ') (hshow : Shows window (core ++ '\n' :: tail).length)
    (after : List Char) :
    annotationsBefore ⟨(text ++ ind ++ (core ++ '\n' :: tail)).reverse, after⟩ window =
      splitAnnotations core := by
  obtain ⟨s, hs, hlook⟩ := Cursor.exists_lookBack hshow (text ++ ind) after
  rw [annotationsBefore, hlook, ← List.append_assoc, annotationsIn_append_spaces htail]
  have hno : ∀ l : List Char, (∀ ch ∈ l, ch = ' ') → '\n' ∉ l ++ core := by
    intro l hl hmem
    rcases List.mem_append.1 hmem with hmem | hmem
    · exact absurd (hl _ hmem) (by decide)
    · exact hcore.line hmem
  have halone : ∀ l : List Char, (∀ ch ∈ l, ch = ' ') →
      annotationsAbove ((l ++ core).splitOn '\n').reverse = splitAnnotations core := by
    intro l hl
    rw [List.splitOn_eq_singleton (hno l hl)]
    exact annotationsAbove_marking hl hcore []
  rcases suffix_append_cases hs with hs | ⟨s', rfl, hs'⟩
  · exact halone s fun ch hch => hind ch (hs.subset hch)
  · rcases h.wholeLines.suffix hs' with rfl | ⟨s'', rfl, hs''⟩
    · exact halone ind hind
    · obtain ⟨pre, line, hpre, hline, rfl⟩ := h
      rw [← List.append_assoc, List.dropLast_concat] at hs''
      have habove := annotationsAbove_fence hpre hline hs''
      have hcut : s'' ++ ['\n'] ++ ind ++ core = s'' ++ '\n' :: (ind ++ core) := by simp
      rw [hcut, List.splitOn_append_cons_self, List.splitOn_eq_singleton (hno ind hind),
        List.reverse_append, List.reverse_singleton, List.singleton_append,
        annotationsAbove_marking hind hcore, habove, List.nil_append]

/-! ### Comments -/

theorem Cursor.lineHead_eq {head before after : List Char} (hhead : '\n' ∉ head)
    (hbefore : ∀ ch ∈ before.head?, ch = '\n') :
    (⟨head.reverse ++ before, after⟩ : Cursor).lineHead = head := by
  have hpos : ∀ ch ∈ head.reverse, (ch != '\n') = true := by
    intro ch hch
    rw [bne_iff_ne]
    rintro rfl
    exact hhead (List.mem_reverse.1 hch)
  have hstop : Stops (· != '\n') before := by
    intro ch hch
    simp [hbefore ch hch]
  rw [Cursor.lineHead, List.takeWhile_append_of_pos hpos, takeWhile_of_stops hstop, List.append_nil,
    List.reverse_reverse]

theorem inCommentLine_eq_false {c : Cursor}
    (h : ∀ ch ∈ c.lineHead, ch ≠ '"' ∧ ch ≠ '\'' ∧ ch ≠ '/' ∧ ch ≠ '*') :
    inCommentLine c = false := by
  have hlit : Misses stringLiteral c.lineHead := by
    refine misses_of_forall_mem fun ch hch before rest => ?_
    obtain ⟨hdouble, hsingle, _⟩ := h ch hch
    exact orElse_eq_nil (bind_eq_nil (one_eq_nil (stops_cons (by simpa using hdouble))))
      (bind_eq_nil (one_eq_nil (stops_cons (by simpa using hsingle))))
  have hslash : Text.occursInChars "//".toList c.lineHead = false := by
    generalize c.lineHead = head at h
    induction head with
    | nil => rfl
    | cons ch head ih =>
      have hne : ('/' == ch) = false := by
        rw [beq_eq_false_iff_ne]
        exact (h ch List.mem_cons_self).2.2.1.symm
      rw [Text.occursInChars, ih fun x hx => h x (List.mem_cons_of_mem _ hx)]
      simp [List.isPrefixOf, hne]
  have htrim : ∀ ch ∈ Text.trimChars c.lineHead, ch ≠ '/' ∧ ch ≠ '*' := by
    intro ch hch
    exact (h ch (Text.mem_of_mem_trimChars hch)).2.2
  rw [inCommentLine, hlit.replace, hslash]
  cases hl : Text.trimChars c.lineHead with
  | nil => rfl
  | cons x rest =>
    have hx := htrim x (by simp [hl])
    have hno : ∀ a : Char, x ≠ a → (a == x) = false := by
      intro a ha
      rw [beq_eq_false_iff_ne]
      exact ha.symm
    simp [List.isPrefixOf, hno _ hx.1, hno _ hx.2]

end ClassAtlas.Source
