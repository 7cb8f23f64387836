import ClassAtlas.Proofs.Plain.Header
import ClassAtlas.Proofs.Source.Spans

/-! The members of a plain file are read back: each field and each method with all that its head
says, and where it stands. -/

namespace ClassAtlas.Plain

open Source Pattern

variable {α : Type} {text before rest : List Char}

/-! ### Modifiers -/

theorem declarationStart_eq_single {c : Cursor} (h : StartsFree c) :
    declarationStart c = [((), c)] := by
  obtain ⟨before, after⟩ := c
  cases before with
  | nil => rfl
  | cons ch before =>
    obtain ⟨hword, hat, hdot⟩ := h ch rfl
    simp [declarationStart, notAfter, require, hword, hat, hdot]

/-- A word that is none of the keywords is not taken for one of them. -/
theorem blanks1_behind_oneOf {names : List String} (hnames : ∀ s ∈ names, Worded s.toList)
    {w : List Char} (hw : Worded w) (hrest : Stops Text.isWord rest)
    (hother : ∀ s ∈ names, s.toList ≠ w) :
    ∀ r ∈ oneOf names ⟨before, w ++ rest⟩, blanks1 r.2 = [] := by
  intro r hr
  obtain ⟨s, hs, hread⟩ := mem_oneOf hr
  exact run1_eq_nil (stops_behind_keyword (hnames s hs) hw.2 hrest (hother s hs) hread)

theorem flagWord_eq_false {k : String} (hk : Worded k.toList) {w : List Char} (hw : Worded w)
    (hrest : Stops Text.isWord rest) (hother : k.toList ≠ w) :
    flagWord k ⟨before, w ++ rest⟩ = [(false, ⟨before, w ++ rest⟩)] := by
  have hnil : (do lit k; blanks1; return true : Pattern Bool) ⟨before, w ++ rest⟩ = [] := by
    refine bind_eq_nil_of_forall fun r hr => bind_eq_nil ?_
    exact run1_eq_nil (stops_behind_keyword hk hw.2 hrest hother (mem_lit hr))
  rw [flagWord, orElse_apply, hnil]
  rfl

theorem prefers_flagWord {k : String} (hrest : Stops Text.isBlank rest) :
    (flagWord k).Prefers ⟨before, k.toList ++ ' ' :: rest⟩ true
      ⟨' ' :: (k.toList.reverse ++ before), rest⟩ := by
  have hgap : blanks1 ⟨k.toList.reverse ++ before, [' '] ++ rest⟩ = _ :=
    run1_append (by simp) (by decide) hrest
  refine Prefers.orElse (Prefers.bind (.of_eq (lit_append k before _)) ?_)
  exact Prefers.bind (.of_eq hgap) (prefers_pure _ _)

theorem visibilities_worded : ∀ s ∈ visibilities, Worded s.toList := by decide

/-- The visibility is read when there is one. -/
theorem prefers_visibility (m : Modifiers) {w : List Char} (hw : Worded w)
    (hrest : Stops Text.isWord rest) (hother : ∀ s ∈ visibilities, s.toList ≠ w)
    (before : List Char) :
    ∃ visibility, (optional visibilityWord).Prefers ⟨before, m.visibilityText ++ (w ++ rest)⟩
      visibility ⟨m.visibilityText.reverse ++ before, w ++ rest⟩ ∧
      (visibility.map (·.text)).getD "package" = m.visibilityName := by
  unfold Modifiers.visibilityText Modifiers.visibilityName
  cases m.visibility with
  | none =>
    have hnil : visibilityWord ⟨before, w ++ rest⟩ = [] := by
      refine bind_eq_nil_of_forall fun r hr => bind_eq_nil ?_
      exact blanks1_behind_oneOf visibilities_worded hw hrest hother _ (mem_captured.1 hr).1
    exact ⟨none, .of_eq (optional_eq_single hnil), rfl⟩
  | some v =>
    have hgap : blanks1 ⟨v.val.toList.reverse ++ before, [' '] ++ (w ++ rest)⟩ = _ :=
      run1_append (by simp) (by decide) (stops_blank_of_head (hw.head rest))
    have hstops : Stops Text.isWord (' ' :: (w ++ rest)) := stops_cons (by decide)
    have hclear : ∀ v ∈ visibilities, ∀ s ∈ visibilities, s.toList <+: v.toList → s = v := by decide
    have hread := prefers_oneOf v.property visibilities_worded (hclear v.val v.property)
        hstops before
    have h : visibilityWord.Prefers ⟨before, v.val.toList ++ ' ' :: (w ++ rest)⟩
        ⟨⟨before, v.val.toList ++ ' ' :: (w ++ rest)⟩,
          ⟨v.val.toList.reverse ++ before, ' ' :: (w ++ rest)⟩⟩
        ⟨' ' :: (v.val.toList.reverse ++ before), w ++ rest⟩ :=
      Prefers.bind hread.captured
        (Prefers.bind (.of_eq hgap) (prefers_pure _ _))
    have htext : (v.val.toList ++ [' ']) ++ (w ++ rest) =
        v.val.toList ++ ' ' :: (w ++ rest) := by simp
    have hbefore : (v.val.toList ++ [' ']).reverse ++ before =
        ' ' :: (v.val.toList.reverse ++ before) := by simp
    simp only [htext, hbefore]
    refine ⟨_, h.optional, ?_⟩
    simp only [Option.map_some, Excerpt.text_append, Option.getD_some, String.ofList_toList]

/-- The words that a modifier may be, with the given ones besides the common ones. -/
def modifierNames (words : List String) : List String :=
  visibilities ++ "static" :: "final" :: words

/-- The flag is read when it is there. -/
theorem prefers_staticFlag (m : Modifiers) {w : List Char} (hw : Worded w)
    (hrest : Stops Text.isWord rest) (hother : "static".toList ≠ w) (before : List Char) :
    (flagWord "static").Prefers ⟨before, m.staticText ++ (w ++ rest)⟩ m.isStatic
      ⟨m.staticText.reverse ++ before, w ++ rest⟩ := by
  unfold Modifiers.staticText
  cases m.isStatic with
  | false =>
    have h : flagWord "static" ⟨before, w ++ rest⟩ = _ :=
      flagWord_eq_false (by decide) hw hrest hother
    exact .of_eq h
  | true =>
    have h : (flagWord "static").Prefers ⟨before, "static".toList ++ ' ' :: (w ++ rest)⟩ true _ :=
      prefers_flagWord (stops_blank_of_head (hw.head rest))
    simpa using h

/-- Behind the visibility stands a word that is none. -/
theorem Modifiers.staticText_starts (m : Modifiers) {w : List Char} (hw : Worded w)
    (hrest : Stops Text.isWord rest) (hother : ∀ s ∈ visibilities, s.toList ≠ w) :
    ∃ w' rest', m.staticText ++ (w ++ rest) = w' ++ rest' ∧ Worded w' ∧ Stops Text.isWord rest' ∧
      ∀ s ∈ visibilities, s.toList ≠ w' := by
  unfold Modifiers.staticText
  cases m.isStatic with
  | false => exact ⟨w, rest, rfl, hw, hrest, hother⟩
  | true =>
    exact ⟨"static".toList, ' ' :: (w ++ rest), by simp, by decide,
      stops_cons (by decide), by decide⟩

/-- Behind the modifiers stands a word that is none of them. -/
theorem prefers_memberHead {words : List String} (hwords : ∀ s ∈ words, Worded s.toList)
    (m : Modifiers) {w : List Char} (hw : Worded w)
    (hother : ∀ s ∈ modifierNames words, s.toList ≠ w)
    (hrest : Stops Text.isWord rest) (hfree : StartsFree ⟨before, m.chars ++ (w ++ rest)⟩) :
    ∃ visibility, (memberHead words).Prefers ⟨before, m.chars ++ (w ++ rest)⟩
      ⟨⟨before, m.chars ++ (w ++ rest)⟩, visibility, m.isStatic⟩
      ⟨m.chars.reverse ++ before, w ++ rest⟩ ∧
      (visibility.map (·.text)).getD "package" = m.visibilityName := by
  have hat := ne_at_of_head (m.starts hw rest)
  have hvis : ∀ s ∈ visibilities, s.toList ≠ w :=
    fun s hs => hother s (List.mem_append_left _ hs)
  have hstatic : "static".toList ≠ w := hother _ (by simp [modifierNames])
  have hfinal : "final".toList ≠ w := hother _ (by simp [modifierNames])
  have hmods : ∀ b, (do oneOf words; blanks1 : Pattern Unit) ⟨b, w ++ rest⟩ = [] := by
    refine fun b => bind_eq_nil_of_forall fun r hr => ?_
    exact blanks1_behind_oneOf hwords hw hrest
      (fun s hs => hother s (by simp [modifierNames, hs])) r hr
  obtain ⟨w', rest', htext, hw', hrest', hvis'⟩ := m.staticText_starts hw hrest hvis
  obtain ⟨visibility, hvisibility, hname⟩ := prefers_visibility m hw' hrest' hvis' before
  rw [← htext] at hvisibility
  refine ⟨visibility, ?_, hname⟩
  have hstart := declarationStart_eq_single hfree
  rw [Modifiers.chars, List.append_assoc] at hat hstart ⊢
  rw [List.reverse_append, List.append_assoc]
  refine Prefers.bind (.of_eq (annotationRun_of_ne hat)) (Prefers.bind (prefers_here _) ?_)
  refine Prefers.bind (.of_eq hstart) (Prefers.bind hvisibility ?_)
  refine Prefers.bind (prefers_staticFlag m hw hrest hstatic _) ?_
  refine Prefers.bind (.of_eq (flagWord_eq_false (by decide) hw hrest hfinal)) ?_
  exact Prefers.bind (.of_eq (repeated_eq_single (hmods _))) (prefers_pure _ _)

/-! ### Types -/

theorem TypeName.word_eq (t : TypeName) (hrest : Stops Text.isWord rest) (before : List Char) :
    word ⟨before, t.chars ++ rest⟩ = [((), ⟨t.chars.reverse ++ before, rest⟩)] :=
  run1_append t.worded.1 t.worded.2 hrest

theorem TypeName.not_mem (t : TypeName) {ch : Char} (h : Text.isWord ch = false) :
    ch ∉ t.chars := by
  intro hmem
  rw [t.worded.2 ch hmem] at h
  simp at h

theorem prefers_genericArguments (t : TypeName) (before rest : List Char) :
    genericArguments.Prefers ⟨before, '<' :: (t.chars ++ '>' :: rest)⟩ ()
      ⟨'>' :: (t.chars.reverse ++ '<' :: before), rest⟩ := by
  have hopen : ∀ ch ∈ t.chars, (ch != '>') = true := by
    intro ch hch
    rw [bne_iff_ne]
    rintro rfl
    exact t.not_mem (by decide) hch
  refine Prefers.bind (.of_eq (lit_append "<" before _)) ?_
  refine Prefers.bind (.of_eq (run1_append t.worded.1 hopen (stops_cons (by decide)))) ?_
  exact .of_eq (lit_append ">" _ rest)

theorem genericArguments_eq_nil {ch : Char} (h : ch ≠ '<') (before rest : List Char) :
    (maybe genericArguments) ⟨before, ch :: rest⟩ = [((), ⟨before, ch :: rest⟩)] := by
  refine maybe_eq_single (bind_eq_nil (lit_eq_nil ?_))
  simpa using h.symm

/-- A method's type is read as a whole. A type with brackets is first tried without them. -/
theorem methodType_eq (t : PlainType) (before rest : List Char) :
    ∃ skipped others, methodType ⟨before, t.chars ++ ' ' :: rest⟩ =
      skipped ++ ((), ⟨t.chars.reverse ++ before, ' ' :: rest⟩) :: others ∧
      ∀ r ∈ skipped, Stops Text.isBlank r.2.after := by
  obtain ⟨base, suffix⟩ := t
  cases suffix with
  | none =>
    have htext : (⟨base, .none⟩ : PlainType).chars =
        base.chars := by simp [PlainType.chars, Suffix.chars]
    have h : methodType.Prefers ⟨before, base.chars ++ ' ' :: rest⟩ ()
        ⟨base.chars.reverse ++ before, ' ' :: rest⟩ :=
      Prefers.orElse (Prefers.bind (.of_eq (base.word_eq (stops_cons (by decide)) before))
        (.of_eq (genericArguments_eq_nil (by decide) _ _)))
    obtain ⟨others, h⟩ := h
    rw [htext]
    exact ⟨[], others, h, by simp⟩
  | argument type =>
    have h : methodType.Prefers ⟨before, base.chars ++ '<' :: (type.chars ++ '>' :: ' ' :: rest)⟩ ()
        ⟨'>' :: (type.chars.reverse ++ '<' :: (base.chars.reverse ++ before)), ' ' :: rest⟩ := by
      have hword : word ⟨before, base.chars ++ '<' :: (type.chars ++ '>' :: ' ' :: rest)⟩ = _ :=
        base.word_eq (stops_cons (by decide)) before
      exact Prefers.orElse (Prefers.bind (.of_eq hword) (prefers_genericArguments _ _ _).maybe)
    obtain ⟨others, h⟩ := h
    refine ⟨[], others, ?_, by simp⟩
    simpa [PlainType.chars, Suffix.chars] using h
  | brackets =>
    have hword : word ⟨before, base.chars ++ '[' :: ']' :: ' ' :: rest⟩ = _ :=
      base.word_eq (stops_cons (by decide)) before
    have hfirst : (do word; maybe genericArguments : Pattern Unit)
        ⟨before, base.chars ++ '[' :: ']' :: ' ' :: rest⟩ =
        [((), ⟨base.chars.reverse ++ before, '[' :: ']' :: ' ' :: rest⟩)] := by
      rw [bind_eq_of_single hword]
      exact genericArguments_eq_nil (by decide) _ _
    have hsecond : (do word; lit "[]" : Pattern Unit)
        ⟨before, base.chars ++ '[' :: ']' :: ' ' :: rest⟩ =
        [((), ⟨']' :: '[' :: (base.chars.reverse ++ before), ' ' :: rest⟩)] := by
      rw [bind_eq_of_single hword]
      exact lit_append "[]" _ _
    refine ⟨[((), ⟨base.chars.reverse ++ before, '[' :: ']' :: ' ' :: rest⟩)], [], ?_, ?_⟩
    · have htext : (⟨base, .brackets⟩ : PlainType).chars ++ ' ' :: rest =
          base.chars ++ '[' :: ']' :: ' ' :: rest := by simp [PlainType.chars, Suffix.chars]
      rw [htext, methodType, orElse_apply, hfirst, hsecond]
      simp [PlainType.chars, Suffix.chars]
    · intro r hr
      rw [List.mem_singleton.1 hr]
      exact stops_cons (by decide)

theorem prefers_fieldType_word {w : List Char} (hw : Worded w) (before rest : List Char) :
    fieldType.Prefers ⟨before, w ++ ' ' :: rest⟩ () ⟨w.reverse ++ before, ' ' :: rest⟩ := by
  have hword : word ⟨before, w ++ ' ' :: rest⟩ = _ := run1_append hw.1 hw.2 (stops_cons (by decide))
  have hend : maybe (lit "[]") ⟨w.reverse ++ before, ' ' :: rest⟩ =
      [((), ⟨w.reverse ++ before, ' ' :: rest⟩)] := maybe_eq_single (lit_eq_nil (by simp))
  exact Prefers.orElse (Prefers.bind (.of_eq hword) (Prefers.bind
    (.of_eq (genericArguments_eq_nil (by decide) _ _)) (.of_eq hend)))

theorem prefers_fieldType (t : PlainType) (before rest : List Char) :
    fieldType.Prefers ⟨before, t.chars ++ ' ' :: rest⟩ ()
      ⟨t.chars.reverse ++ before, ' ' :: rest⟩ := by
  obtain ⟨base, suffix⟩ := t
  cases suffix with
  | none =>
    have h := prefers_fieldType_word base.worded before rest
    simpa [PlainType.chars, Suffix.chars] using h
  | argument type =>
    have h : fieldType.Prefers ⟨before, base.chars ++ '<' :: (type.chars ++ '>' :: ' ' :: rest)⟩ ()
        ⟨'>' :: (type.chars.reverse ++ '<' :: (base.chars.reverse ++ before)), ' ' :: rest⟩ := by
      have hword : word ⟨before, base.chars ++ '<' :: (type.chars ++ '>' :: ' ' :: rest)⟩ = _ :=
        base.word_eq (stops_cons (by decide)) before
      exact Prefers.orElse (Prefers.bind (.of_eq hword) (Prefers.bind
        (prefers_genericArguments _ _ _).maybe (.of_eq (maybe_eq_single (lit_eq_nil (by simp))))))
    simpa [PlainType.chars, Suffix.chars] using h
  | brackets =>
    have h : fieldType.Prefers ⟨before, base.chars ++ '[' :: ']' :: ' ' :: rest⟩ ()
        ⟨']' :: '[' :: (base.chars.reverse ++ before), ' ' :: rest⟩ := by
      have hword : word ⟨before, base.chars ++ '[' :: ']' :: ' ' :: rest⟩ = _ :=
        base.word_eq (stops_cons (by decide)) before
      exact Prefers.orElse (Prefers.bind (.of_eq hword) (Prefers.bind
        (.of_eq (genericArguments_eq_nil (by decide) _ _))
        (Prefers.of_eq (lit_append "[]" _ _)).maybe))
    simpa [PlainType.chars, Suffix.chars] using h

/-! ### The characters of a declaration -/

def isInline (c : Char) : Bool := Text.isWord c || " <>[],;".toList.contains c

theorem isInline_of_isWord {ch : Char} (h : Text.isWord ch = true) : isInline ch = true := by
  simp [isInline, h]

theorem TypeName.inline (t : TypeName) : ∀ ch ∈ t.chars, isInline ch = true :=
  fun ch hch => isInline_of_isWord (t.worded.2 ch hch)

/-- The characters of a type are those of its names and the marks of its suffix. -/
theorem PlainType.mem_chars (t : PlainType) {ch : Char} (h : ch ∈ t.chars) :
    Text.isWord ch = true ∨ ch ∈ ['<', '>', '[', ']'] := by
  obtain ⟨base, suffix⟩ := t
  rcases List.mem_append.1 h with h | h
  · exact .inl (base.worded.2 ch h)
  · cases suffix with
    | none => exact absurd h List.not_mem_nil
    | argument type =>
      rcases List.mem_cons.1 h with rfl | h
      · exact .inr (by simp)
      · rcases List.mem_append.1 h with h | h
        · exact .inl (type.worded.2 ch h)
        · exact .inr (by simp [List.mem_singleton.1 h])
    | brackets => exact .inr (List.mem_cons_of_mem _ (List.mem_cons_of_mem _ h))

theorem PlainType.inline (t : PlainType) : ∀ ch ∈ t.chars, isInline ch = true := by
  have hmarks : ∀ ch ∈ ['<', '>', '[', ']'], isInline ch = true := by decide
  intro ch hch
  rcases t.mem_chars hch with hword | hmark
  · exact isInline_of_isWord hword
  · exact hmarks ch hmark

theorem Modifiers.inline (m : Modifiers) : ∀ ch ∈ m.chars, isInline ch = true := by
  refine List.forall_mem_append.2 ⟨?_, ?_⟩
  · unfold Modifiers.visibilityText
    split
    · next v _ =>
      have hworded := (visibilities_worded v.val v.property).2
      exact List.forall_mem_append.2 ⟨fun ch hch => isInline_of_isWord (hworded ch hch), by decide⟩
    · simp
  · unfold Modifiers.staticText
    split
    · decide
    · simp

theorem inline_named (t : PlainType) (n : Name) :
    ∀ ch ∈ t.chars ++ ' ' :: n.chars, isInline ch = true :=
  List.forall_mem_append.2 ⟨t.inline, List.forall_mem_cons.2 ⟨by decide, n.asType.inline⟩⟩

theorem PlainField.inline (f : PlainField) : ∀ ch ∈ f.declaration, isInline ch = true := by
  have h := List.forall_mem_append.2 ⟨f.modifiers.inline, inline_named f.type f.name⟩
  have hall := List.forall_mem_append.2 ⟨h, (by decide : ∀ ch ∈ [';'], isInline ch = true)⟩
  simpa only [PlainField.declaration, List.append_assoc, List.cons_append] using hall

theorem parameters_inline (ps : List PlainParameter) :
    ∀ ch ∈ commaList (ps.map PlainParameter.chars), isInline ch = true := by
  refine forall_mem_joined (fun ch => isInline ch = true) (by decide) fun item hitem => ?_
  obtain ⟨q, _, rfl⟩ := List.mem_map.1 hitem
  exact inline_named q.type q.name

theorem not_mem_of_inline {s : List Char} (h : ∀ ch ∈ s, isInline ch = true) {x : Char}
    (hx : isInline x = false) : x ∉ s := by
  intro hmem
  rw [h x hmem] at hx
  simp at hx

/-- An indented declaration ends the reading of annotations. -/
theorem fence_inline {s : List Char} {last : Char} (h : ∀ ch ∈ s, isInline ch = true)
    (hlast : Text.isBlank last = false ∧ last ≠ '@' ∧ last ≠ '/' ∧ last ≠ '*' ∧ last ≠ '\n') :
    Fence (s ++ [last]) := by
  refine ⟨⟨s, last, rfl, hlast.1⟩, List.forall_mem_append.2 ⟨?_, by simpa using hlast.2⟩⟩
  intro ch hch
  refine ⟨?_, ?_, ?_, ?_⟩ <;> rintro rfl <;> exact not_mem_of_inline h (by decide) hch

/-- The class line is inline up to its brace. -/
theorem PlainUnit.classLine_inline (u : PlainUnit) :
    ∃ line, (∀ ch ∈ line, isInline ch = true) ∧ u.classLine = line ++ ['{', '\n'] := by
  have hnames : ∀ ch ∈ commaList (u.interfaces.map Name.chars), isInline ch = true := by
    refine forall_mem_joined (fun ch => isInline ch = true) (by decide) fun item hitem => ?_
    obtain ⟨n, _, rfl⟩ := List.mem_map.1 hitem
    exact n.asType.inline
  have hbase : ∀ ch ∈ u.baseClause, isInline ch = true := by
    unfold PlainUnit.baseClause
    split
    · next b _ => exact List.forall_mem_append.2 ⟨by decide, b.asType.inline⟩
    · simp
  have hinterfaces : ∀ ch ∈ u.interfaceClause, isInline ch = true := by
    unfold PlainUnit.interfaceClause
    split
    · simp
    · exact List.forall_mem_append.2 ⟨by decide, hnames⟩
  refine ⟨"public class ".toList ++
    (u.name.chars ++ (u.baseClause ++ (u.interfaceClause ++ [' ']))), ?_, ?_⟩
  · exact List.forall_mem_append.2 ⟨by decide, List.forall_mem_append.2 ⟨u.name.asType.inline,
      List.forall_mem_append.2 ⟨hbase, List.forall_mem_append.2 ⟨hinterfaces, by decide⟩⟩⟩⟩
  · unfold PlainUnit.classLine
    simp only [List.append_assoc, List.cons_append, List.nil_append]

theorem PlainUnit.fenced_classLine (u : PlainUnit) (h : WholeLines text) :
    Fenced (text ++ u.classLine) := by
  obtain ⟨line, hline, heq⟩ := u.classLine_inline
  have hfence := fence_inline hline (show Text.isBlank '{' = false ∧ _ by decide)
  have hall := h.fenced hfence
  rw [heq]
  simpa only [List.append_assoc, List.cons_append, List.nil_append] using hall

theorem PlainField.fenced (f : PlainField) (h : WholeLines text) : Fenced (text ++ f.lines) := by
  have hfence : Fence ("    ".toList ++ f.declaration) := by
    have hinline :
        ∀ ch ∈ "    ".toList ++ (f.modifiers.chars ++ (f.type.chars ++ ' ' :: f.name.chars)),
        isInline ch = true :=
      List.forall_mem_append.2 ⟨by decide,
        List.forall_mem_append.2 ⟨f.modifiers.inline, inline_named f.type f.name⟩⟩
    have hline := fence_inline hinline (show Text.isBlank ';' = false ∧ _ by decide)
    simpa [PlainField.declaration] using hline
  unfold PlainField.lines
  split
  · have hwhole : WholeLines (text ++ "    @Autowired\n".toList) := h.append (by simp [WholeLines])
    have hall := hwhole.fenced hfence
    simpa only [List.append_assoc] using hall
  · have hall := h.fenced hfence
    simpa only [List.append_assoc, List.nil_append] using hall

theorem fenced_fields (fields : List PlainField) (h : Fenced text) :
    Fenced (text ++ fields.flatMap PlainField.lines) := by
  induction fields generalizing text with
  | nil => simpa using h
  | cons f fields ih =>
    rw [List.flatMap_cons, ← List.append_assoc]
    exact ih (f.fenced h.wholeLines)

/-- The statements' words are no types, with or without a suffix. -/
theorem PlainType.text_not_mem (t : PlainType) {words : List String}
    (hw : ∀ w ∈ words, w ∈ declarationWords) : t.text ∉ words := by
  obtain ⟨base, suffix⟩ := t
  intro hmem
  have hworded := (declarationWords_worded _ (hw _ hmem)).2
  rw [PlainType.text, PlainType.chars, String.toList_ofList] at hworded
  cases suffix with
  | none =>
    refine base.text_not_mem hw ?_
    simpa [PlainType.text, PlainType.chars, Suffix.chars, TypeName.text] using hmem
  | argument type => exact absurd (hworded '<' (by simp [Suffix.chars])) (by decide)
  | brackets => exact absurd (hworded '[' (by simp [Suffix.chars])) (by decide)

theorem statementKeywords_words : ∀ w ∈ statementKeywords, w ∈ declarationWords := by
  decide +kernel

/-- Behind a space a declaration can start. -/
theorem startsFree_space (before after : List Char) : StartsFree ⟨' ' :: before, after⟩ := by
  intro ch hch
  obtain rfl : ' ' = ch := by simpa using hch
  decide

/-- On an indented line there is no comment before the place. -/
theorem inCommentLine_indented (h : ∀ ch ∈ before.head?, ch = '\n') (after : List Char) :
    inCommentLine ⟨"    ".toList.reverse ++ before, after⟩ = false := by
  refine inCommentLine_eq_false ?_
  rw [Cursor.lineHead_eq (by decide) h]
  decide

/-! ### Fields -/

theorem fieldModifiers_words :
    ∀ s ∈ modifierNames ["transient", "volatile"], s ∈ declarationWords := by
  decide +kernel

/-- The head says what the field's declaration says. -/
structure PlainField.Heads (f : PlainField) (head : FieldHead) : Prop where
  type : head.type.text = f.type.text
  name : head.name.text = f.name.text
  visibility : (head.visibility.map (·.text)).getD "package" = f.modifiers.visibilityName
  isStatic : head.isStatic = f.modifiers.isStatic

theorem prefers_fieldPattern {start : Cursor} {head : MemberHead} {type : List Char} {n : Name}
    (hhead : (memberHead ["transient", "volatile"]).Prefers start head
      ⟨before, type ++ ' ' :: (n.chars ++ ';' :: rest)⟩)
    (htype : fieldType.Prefers ⟨before, type ++ ' ' :: (n.chars ++ ';' :: rest)⟩ ()
      ⟨type.reverse ++ before, ' ' :: (n.chars ++ ';' :: rest)⟩) :
    ∃ result, fieldPattern.Prefers start result
      ⟨';' :: (n.chars.reverse ++ ' ' :: (type.reverse ++ before)), rest⟩ ∧
      result.toMemberHead = head ∧ result.type.text = String.ofList type ∧
      result.name.text = n.text := by
  have hgap : ∀ b, blanks1 ⟨b, [' '] ++ (n.chars ++ ';' :: rest)⟩ = _ :=
    fun b => run1_append (by simp) (by decide) (stops_blank_of_head (n.starts _))
  have hword : ∀ b, word ⟨b, n.chars ++ ';' :: rest⟩ = _ :=
    fun b => n.asType.word_eq (stops_cons (by decide)) b
  have hvalue : ∀ b, maybe (do blanks; lit "="; run1 (· != ';')) ⟨b, ';' :: rest⟩ =
      [((), ⟨b, ';' :: rest⟩)] := by
    intro b
    refine maybe_eq_single ?_
    rw [blanks, bind_eq_of_single (run_none (stops_cons (by decide)))]
    exact bind_eq_nil (lit_eq_nil (by simp))
  refine ⟨_, Prefers.bind hhead <| Prefers.bind htype.captured <| Prefers.bind (.of_eq (hgap _)) <|
    Prefers.bind (Prefers.of_eq (hword _)).captured <| Prefers.bind (.of_eq (hvalue _)) <|
    Prefers.bind (.of_eq (lit_append ";" _ rest)) <| prefers_pure _ _, rfl, ?_⟩
  exact ⟨Excerpt.text_append _ _ _ _, Excerpt.text_append _ _ _ _⟩

theorem prefers_declaration (f : PlainField)
    (hfree : StartsFree ⟨before, f.declaration ++ rest⟩) :
    ∃ head, fieldPattern.Prefers ⟨before, f.declaration ++ rest⟩ head
      ⟨f.declaration.reverse ++ before, rest⟩ ∧
      head.start = ⟨before, f.declaration ++ rest⟩ ∧ f.Heads head := by
  have htext : f.declaration ++ rest = f.modifiers.chars ++ (f.type.base.chars ++
      (f.type.suffix.chars ++ ' ' :: (f.name.chars ++ ';' :: rest))) := by
    simp [PlainField.declaration, PlainType.chars]
  have htype : f.type.base.chars ++ (f.type.suffix.chars ++ ' ' :: (f.name.chars ++ ';' :: rest)) =
      f.type.chars ++ ' ' :: (f.name.chars ++ ';' :: rest) := by simp [PlainType.chars]
  have hend : f.declaration.reverse ++ before = ';' :: (f.name.chars.reverse ++
      ' ' :: (f.type.chars.reverse ++ (f.modifiers.chars.reverse ++ before))) := by
    simp [PlainField.declaration]
  rw [htext] at hfree ⊢
  obtain ⟨visibility, hhead, hname⟩ := prefers_memberHead (by decide) f.modifiers f.type.base.worded
    (fun s hs => f.type.base.chars_ne (fieldModifiers_words s hs))
    (f.type.suffix.stops (by decide) (f.name.chars ++ ';' :: rest)) hfree
  rw [htype] at hhead ⊢
  obtain ⟨head, hprefers, heq, hhtype, hhname⟩ :=
    prefers_fieldPattern hhead (prefers_fieldType f.type _ _)
  rw [hend]
  exact ⟨head, hprefers, by rw [heq], hhtype, hhname, by rw [heq]; exact hname, by rw [heq]⟩

/-! ### Methods -/

theorem methodModifiers_words :
    ∀ s ∈ modifierNames ["abstract", "synchronized", "native", "default", "strictfp"],
      s ∈ declarationWords := by
  decide +kernel

/-- The head says what the method's signature says. -/
structure PlainMethod.Heads (m : PlainMethod) (head : MethodHead) : Prop where
  returnType : head.returnType.text = m.returnType.text
  name : head.name.text = m.name.text
  parameters : head.parameters.chars = commaList (m.parameters.map PlainParameter.chars)
  visibility : (head.visibility.map (·.text)).getD "package" = m.modifiers.visibilityName
  isStatic : head.isStatic = m.modifiers.isStatic

theorem prefers_parameterList {params : List Char} (hparams : ')' ∉ params)
    (before rest : List Char) :
    parameterList.Prefers ⟨before, '(' :: (params ++ ')' :: ' ' :: '{' :: rest)⟩
      ⟨⟨'(' :: before, params ++ ')' :: ' ' :: '{' :: rest⟩,
        ⟨params.reverse ++ '(' :: before, ')' :: ' ' :: '{' :: rest⟩⟩
      ⟨' ' :: ')' :: (params.reverse ++ '(' :: before), '{' :: rest⟩ := by
  have hinside : ∀ ch ∈ params, (ch != ')') = true := by
    intro ch hch
    rw [bne_iff_ne]
    rintro rfl
    exact hparams hch
  have hrun : ∀ b, run (· != ')') ⟨b, params ++ ')' :: ' ' :: '{' :: rest⟩ = _ :=
    fun b => run_append hinside (stops_cons (by decide))
  have hgap : ∀ b, blanks ⟨b, [' '] ++ '{' :: rest⟩ = _ :=
    fun b => run_append (by decide) (stops_cons (by decide))
  refine Prefers.bind (.of_eq (run_none (stops_cons (by decide)))) ?_
  refine Prefers.bind (.of_eq (lit_append "(" before _)) ?_
  refine Prefers.bind (Prefers.of_eq (hrun _)).captured ?_
  refine Prefers.bind (.of_eq (lit_append ")" _ _)) ?_
  refine Prefers.bind (.of_eq (hgap _)) ?_
  refine Prefers.bind (.of_eq (maybe_eq_single (bind_eq_nil (lit_eq_nil (by simp))))) ?_
  exact prefers_pure _ _

theorem prefers_signature (m : PlainMethod)
    (hfree : StartsFree ⟨before, m.signature ++ '{' :: rest⟩) :
    ∃ head, methodPattern.Prefers ⟨before, m.signature ++ '{' :: rest⟩ head
      ⟨'{' :: (m.signature.reverse ++ before), rest⟩ ∧
      head.start = ⟨before, m.signature ++ '{' :: rest⟩ ∧
      head.opening = ⟨m.signature.reverse ++ before, '{' :: rest⟩ ∧ m.Heads head := by
  have hclosed : ')' ∉ commaList (m.parameters.map PlainParameter.chars) :=
    not_mem_of_inline (parameters_inline m.parameters) (by decide)
  generalize hP : commaList (m.parameters.map PlainParameter.chars) = params at hclosed
  have htext : m.signature ++ '{' :: rest = m.modifiers.chars ++ (m.returnType.base.chars ++
      (m.returnType.suffix.chars ++ ' ' :: (m.name.chars ++
        '(' :: (params ++ ')' :: ' ' :: '{' :: rest)))) := by
    simp [PlainMethod.signature, PlainType.chars, hP]
  have htype : m.returnType.base.chars ++ (m.returnType.suffix.chars ++ ' ' :: (m.name.chars ++
        '(' :: (params ++ ')' :: ' ' :: '{' :: rest))) =
      m.returnType.chars ++ ' ' ::
        (m.name.chars ++ '(' :: (params ++ ')' :: ' ' :: '{' :: rest)) := by
    simp [PlainType.chars]
  have hend : m.signature.reverse ++ before = ' ' :: ')' :: (params.reverse ++ '(' ::
      (m.name.chars.reverse ++ ' ' :: (m.returnType.chars.reverse ++
        (m.modifiers.chars.reverse ++ before)))) := by
    simp [PlainMethod.signature, hP]
  rw [htext] at hfree ⊢
  obtain ⟨visibility, hhead, hname⟩ := prefers_memberHead (by decide) m.modifiers
    m.returnType.base.worded (fun s hs => m.returnType.base.chars_ne (methodModifiers_words s hs))
    (m.returnType.suffix.stops (by decide) _) hfree
  rw [htype] at hhead ⊢
  rw [hend]
  obtain ⟨skipped, others, htypes, hskip⟩ := methodType_eq m.returnType
    (m.modifiers.chars.reverse ++ before)
    (m.name.chars ++ '(' :: (params ++ ')' :: ' ' :: '{' :: rest))
  have hgap : ∀ b, blanks1 ⟨b, [' '] ++ (m.name.chars ++
      '(' :: (params ++ ')' :: ' ' :: '{' :: rest))⟩ = _ :=
    fun b => run1_append (by simp) (by decide) (stops_blank_of_head (m.name.starts _))
  have hword : ∀ b, word ⟨b, m.name.chars ++ '(' :: (params ++ ')' :: ' ' :: '{' :: rest)⟩ = _ :=
    fun b => m.name.asType.word_eq (stops_cons (by decide)) b
  refine ⟨_, Prefers.bind hhead <|
    Prefers.bind_behind (captured_eq_append htypes) ?_ <|
    Prefers.bind (.of_eq (hgap _)) <| Prefers.bind (Prefers.of_eq (hword _)).captured <|
    Prefers.bind (prefers_parameterList hclosed _ rest) <| Prefers.bind (prefers_here _) <|
    Prefers.bind (.of_eq (lit_append "\x7b" _ rest)) <| prefers_pure _ _, rfl, rfl, ?_⟩
  · intro r hr
    obtain ⟨r', hr', rfl⟩ := List.mem_map.1 hr
    exact bind_eq_nil (run1_eq_nil (hskip r' hr'))
  · refine ⟨Excerpt.text_append _ _ _ _, Excerpt.text_append _ _ _ _, ?_, hname, rfl⟩
    rw [hP]
    exact Excerpt.chars_append _ _ _ _

end ClassAtlas.Plain
