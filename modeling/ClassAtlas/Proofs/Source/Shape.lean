import ClassAtlas.Proofs.Pattern.Preference
import ClassAtlas.Source.Fields

/-! What the heads of declarations look like: one lemma for each pattern says what all of its
readings have read. A `Heading` is the part that methods and fields share. -/

namespace ClassAtlas.Source

open Pattern

/-- The characters of words and of the blanks between them. -/
def isPhrase (c : Char) : Bool := Text.isWord c || Text.isBlank c

theorem isPhrase_of_isWord {c : Char} (h : Text.isWord c = true) : isPhrase c = true := by
  simp [isPhrase, h]

theorem isPhrase_of_isBlank {c : Char} (h : Text.isBlank c = true) : isPhrase c = true := by
  simp [isPhrase, h]

/-- A word, and nothing else. -/
def Worded (w : List Char) : Prop := w ≠ [] ∧ ∀ ch ∈ w, Text.isWord ch = true

instance (w : List Char) : Decidable (Worded w) := inferInstanceAs (Decidable (_ ∧ _))

theorem Worded.head {w : List Char} (h : Worded w) (rest : List Char) :
    ∃ ch ∈ (w ++ rest).head?, Text.isWord ch = true := by
  obtain ⟨hne, hall⟩ := h
  cases w with
  | nil => exact absurd rfl hne
  | cons ch w => exact ⟨ch, by simp, hall ch List.mem_cons_self⟩

theorem not_mem_of_worded {w : List Char} (hw : Worded w) {ch : Char} (h : Text.isWord ch = false) :
    ch ∉ w := by
  intro hmem
  rw [hw.2 ch hmem] at h
  simp at h

theorem Worded.startsWord {w : List Char} (h : Worded w) (rest : List Char) :
    Pattern.startsWord (w ++ rest) = true := by
  obtain ⟨hne, hall⟩ := h
  cases w with
  | nil => exact absurd rfl hne
  | cons ch w => exact hall ch List.mem_cons_self

/-- Modifiers, a type and a name. The suffix of the type holds its arguments and brackets. -/
structure Heading where
  modifiers : List Char
  type : List Char
  suffix : List Char
  gap : List Char
  name : List Char
  modifiers_phrase : ∀ ch ∈ modifiers, isPhrase ch = true
  modifiers_start : ∀ ch ∈ modifiers.head?, Text.isWord ch = true
  type_word : Worded type
  gap_ne : gap ≠ []
  gap_blank : ∀ ch ∈ gap, Text.isBlank ch = true
  name_word : Worded name

def Heading.chars (h : Heading) : List Char :=
  h.modifiers ++ (h.type ++ (h.suffix ++ (h.gap ++ h.name)))

/-- Nothing, type arguments or brackets. -/
inductive TypeSuffix : List Char → Prop where
  | none : TypeSuffix []
  | arguments {args : List Char} : '>' ∉ args → TypeSuffix ('<' :: (args ++ ['>']))
  | brackets : TypeSuffix ['[', ']']

/-- Type arguments, then brackets, where each may be left out. -/
inductive FieldTypeSuffix : List Char → Prop where
  | plain {s : List Char} : TypeSuffix s → FieldTypeSuffix s
  | both {args : List Char} : '>' ∉ args → FieldTypeSuffix ('<' :: (args ++ ['>', '[', ']']))

/-- Parameters in parentheses and what stands between them and the body. -/
structure ParameterText where
  gap : List Char
  parameters : List Char
  clause : List Char
  gap_blank : ∀ ch ∈ gap, Text.isBlank ch = true
  parameters_open : ')' ∉ parameters

def ParameterText.chars (t : ParameterText) : List Char :=
  t.gap ++ '(' :: (t.parameters ++ ')' :: t.clause)

/-- The place is neither inside a word nor inside the name of an annotation. -/
def StartsFree (c : Cursor) : Prop :=
  ∀ ch ∈ c.before.head?, Text.isWord ch = false ∧ ch ≠ '@' ∧ ch ≠ '.'

/-! ### The parts of a head -/

theorem mem_declarationStart {c : Cursor} {r : Unit × Cursor} :
    r ∈ declarationStart c ↔ StartsFree c ∧ r = ((), c) := by
  rw [declarationStart, notAfter, mem_require]
  obtain ⟨before, after⟩ := c
  cases before with
  | nil => simp [StartsFree]
  | cons ch before => simp [StartsFree, and_assoc]

theorem within_blanks1 : blanks1.Within isPhrase :=
  (within_run1 _).mono fun _ => isPhrase_of_isBlank

theorem within_visibilityWord : visibilityWord.Within isPhrase :=
  (within_oneOf (by decide)).captured.bind fun _ => within_blanks1.bind fun _ => within_pure _

theorem within_flagWord {s : String} (h : ∀ ch ∈ s.toList, isPhrase ch = true) :
    (flagWord s).Within isPhrase :=
  .orElse ((within_lit h).bind fun _ => within_blanks1.bind fun _ => within_pure _) (within_pure _)

theorem within_modifierWords {names : List String}
    (h : ∀ s ∈ names, ∀ ch ∈ s.toList, isPhrase ch = true) :
    (modifierWords names).Within isPhrase :=
  .repeated ((within_oneOf h).bind fun _ => within_blanks1)

/-- One annotation of a run. -/
def annotationItem : Pattern Unit := do
  lit "@"
  run1 isDotted
  maybe do
    lit "("
    run (· != ')')
    lit ")"
  blanks

theorem within_annotationItem : annotationItem.Within anyChar := by
  refine (within_lit fun _ _ => rfl).bind fun _ => ?_
  refine (within_run1 _).forward.bind fun _ => ?_
  refine Within.bind (.maybe ?_) fun _ => (within_run _).forward
  exact (within_lit fun _ _ => rfl).bind fun _ => (within_run _).forward.bind fun _ =>
    within_lit fun _ _ => rfl

theorem within_annotationRun : annotationRun.Within anyChar := within_annotationItem.runOf

theorem annotationItem_progress : annotationItem.Progress := by
  intro c r hr
  obtain ⟨q, hq, hr⟩ := mem_bind.1 hr
  have hread : ∃ s, q.2.Reads s r.2 ∧ ∀ ch ∈ s, anyChar ch = true := by
    refine Within.bind (within_run1 _).forward (fun _ => ?_) _ _ hr
    refine Within.bind (.maybe ?_) fun _ => (within_run _).forward
    exact (within_lit fun _ _ => rfl).bind fun _ => (within_run _).forward.bind fun _ =>
      within_lit fun _ _ => rfl
  obtain ⟨s, hs, _⟩ := hread
  exact ⟨_, by simp, (mem_lit hq).trans hs⟩

section AnnotationItem

variable {name args gap rest before : List Char}

theorem prefers_annotationItem (hname : name ≠ []) (hdotted : ∀ ch ∈ name, isDotted ch = true)
    (hgap : ∀ ch ∈ gap, Text.isBlank ch = true) (hend : Stops isDotted (gap ++ rest))
    (hparen : ¬['('] <+: gap ++ rest) (hrest : Stops Text.isBlank rest) :
    annotationItem.Prefers ⟨before, '@' :: (name ++ (gap ++ rest))⟩ ()
      ⟨gap.reverse ++ (name.reverse ++ '@' :: before), rest⟩ := by
  refine Prefers.bind (.of_eq (lit_append "@" before _)) ?_
  refine Prefers.bind (.of_eq (run1_append hname hdotted hend)) ?_
  refine Prefers.bind (.of_eq (maybe_eq_single (bind_eq_nil (lit_eq_nil hparen)))) ?_
  exact .of_eq (run_append hgap hrest)

/-- The same for an annotation with arguments. -/
theorem prefers_annotationItem_arguments (hname : name ≠ [])
    (hdotted : ∀ ch ∈ name, isDotted ch = true) (hargs : ')' ∉ args)
    (hgap : ∀ ch ∈ gap, Text.isBlank ch = true) (hrest : Stops Text.isBlank rest) :
    annotationItem.Prefers ⟨before, '@' :: (name ++ '(' :: (args ++ ')' :: (gap ++ rest)))⟩ ()
      ⟨gap.reverse ++ ')' :: (args.reverse ++ '(' :: (name.reverse ++ '@' :: before)), rest⟩ := by
  have hopen : ∀ ch ∈ args, (ch != ')') = true := by
    intro ch hch
    rw [bne_iff_ne]
    rintro rfl
    exact hargs hch
  refine Prefers.bind (.of_eq (lit_append "@" before _)) ?_
  refine Prefers.bind (.of_eq (run1_append hname hdotted (stops_cons (by decide)))) ?_
  refine Prefers.bind (Prefers.maybe ?_) (.of_eq (run_append hgap hrest))
  refine Prefers.bind (.of_eq (lit_append "(" _ _)) ?_
  refine Prefers.bind (.of_eq (run_append hopen (stops_cons (by decide)))) ?_
  exact .of_eq (lit_append ")" _ _)

end AnnotationItem

/-- Behind its first annotation a run goes on as if it started there. -/
theorem annotationRun_of_item {c d : Cursor} (h : annotationItem.Prefers c () d) :
    annotationRun c = annotationRun d := h.runOf_eq annotationItem_progress

/-- Where no annotation comes next, a run of annotations reads nothing. -/
theorem annotationRun_of_ne {c : Cursor} (h : ∀ rest, c.after ≠ '@' :: rest) :
    annotationRun c = [((), c)] := by
  refine runOf_eq_single (bind_eq_nil (lit_eq_nil ?_))
  rintro ⟨rest, hrest⟩
  exact h rest hrest.symm

theorem oneOf_eq_nil_of_stops {names : List String} (hnames : ∀ s ∈ names, Worded s.toList)
    {c : Cursor} (h : Stops Text.isWord c.after) : oneOf names c = [] := by
  rw [List.eq_nil_iff_forall_not_mem]
  intro r hr
  obtain ⟨s, hs, hread⟩ := mem_oneOf hr
  obtain ⟨ch, hch, hword⟩ := (hnames s hs).head r.2.after
  rw [← hread.after_eq] at hch
  simp [h ch hch] at hword

theorem lit_eq_nil_of_stops {s : String} (hs : Worded s.toList) {c : Cursor}
    (h : Stops Text.isWord c.after) : lit s c = [] := by
  have hone : oneOf [s] c = [] := oneOf_eq_nil_of_stops (by simpa using hs) h
  exact (List.append_eq_nil_iff.1 hone).1

/-- Modifiers are words: where no word comes next there is none. -/
theorem modifiers_of_stops {modifiers : List String} (hm : ∀ s ∈ modifiers, Worded s.toList)
    {c : Cursor} (h : Stops Text.isWord c.after) :
    optional visibilityWord c = [(none, c)] ∧ flagWord "static" c = [(false, c)] ∧
      flagWord "final" c = [(false, c)] ∧ modifierWords modifiers c = [((), c)] := by
  have hvis : visibilityWord c = [] := by
    refine bind_eq_nil ?_
    rw [captured, oneOf_eq_nil_of_stops (by decide) h, List.map_nil]
  have hmods : (do oneOf modifiers; blanks1 : Pattern Unit) c = [] :=
    bind_eq_nil (oneOf_eq_nil_of_stops hm h)
  refine ⟨optional_eq_single hvis, ?_, ?_, repeated_eq_single hmods⟩
  · rw [flagWord, orElse_apply, bind_eq_nil (lit_eq_nil_of_stops (by decide) h)]
    rfl
  · rw [flagWord, orElse_apply, bind_eq_nil (lit_eq_nil_of_stops (by decide) h)]
    rfl

/-- Of the annotations before a head only their end matters. -/
theorem memberHead_congr {modifiers : List String} {c d : Cursor}
    (h : annotationRun c = annotationRun d) : memberHead modifiers c = memberHead modifiers d := by
  unfold memberHead
  rw [bind_apply, bind_apply, h]

theorem mem_memberHead {modifiers : List String} (hm : ∀ s ∈ modifiers, Worded s.toList)
    {c : Cursor} {r : MemberHead × Cursor} (h : r ∈ memberHead modifiers c) :
    ((), r.1.start) ∈ annotationRun c ∧ StartsFree r.1.start ∧
      ∃ s, r.1.start.Reads s r.2 ∧ (∀ ch ∈ s, isPhrase ch = true) ∧
        ∀ ch ∈ s.head?, Text.isWord ch = true := by
  unfold memberHead at h
  obtain ⟨q₁, h₁, h⟩ := mem_bind.1 h
  obtain ⟨q₂, h₂, h⟩ := mem_bind.1 h
  obtain rfl := mem_here.1 h₂
  obtain ⟨q₃, h₃, h⟩ := mem_bind.1 h
  obtain ⟨hfree, rfl⟩ := mem_declarationStart.1 h₃
  have hread : ∃ s, q₁.2.Reads s r.2 ∧ ∀ ch ∈ s, isPhrase ch = true := by
    refine Within.bind within_visibilityWord.optional (fun visibility => ?_) _ _ h
    refine Within.bind (within_flagWord (by decide)) fun isStatic => ?_
    refine Within.bind (within_flagWord (by decide)) fun _ => ?_
    refine Within.bind (within_modifierWords fun s hs ch hch => ?_) fun _ => within_pure _
    exact isPhrase_of_isWord ((hm s hs).2 ch hch)
  have hstart : r.1.start = q₁.2 := by
    obtain ⟨_, _, h⟩ := mem_bind.1 h
    obtain ⟨_, _, h⟩ := mem_bind.1 h
    obtain ⟨_, _, h⟩ := mem_bind.1 h
    obtain ⟨_, _, h⟩ := mem_bind.1 h
    rw [mem_pure.1 h]
  rw [hstart]
  obtain ⟨s, hs, hphrase⟩ := hread
  refine ⟨h₁, hfree, s, hs, hphrase, ?_⟩
  intro ch hch
  by_contra hword
  -- without a word to start with, all modifiers are left out
  have hstops : Stops Text.isWord q₁.2.after := by
    cases s with
    | nil => simp at hch
    | cons x s =>
      obtain rfl : x = ch := by simpa using hch
      rw [hs.after_eq]
      exact stops_cons (by simpa using hword)
  obtain ⟨hvis, hstatic, hfinal, hmods⟩ := modifiers_of_stops hm hstops
  have hstay : r.2 = q₁.2 := by
    rw [bind_eq_of_single hvis, bind_eq_of_single hstatic, bind_eq_of_single hfinal,
      bind_eq_of_single hmods] at h
    rw [mem_pure.1 h]
  have hlen := hs.offset_eq
  rw [hstay] at hlen
  cases s with
  | nil => simp at hch
  | cons x s =>
    simp only [List.length_cons] at hlen
    omega

theorem mem_genericArguments {c : Cursor} {r : Unit × Cursor} (h : r ∈ genericArguments c) :
    ∃ args, '>' ∉ args ∧ c.Reads ('<' :: (args ++ ['>'])) r.2 := by
  obtain ⟨q, hq, h⟩ := mem_bind.1 h
  obtain ⟨q', hq', h⟩ := mem_bind.1 h
  obtain ⟨args, _, hargs, hall, _⟩ := mem_run1 hq'
  refine ⟨args, ?_, (mem_lit hq).trans (hargs.trans (mem_lit h))⟩
  intro hmem
  simpa using hall _ hmem

theorem mem_parameterList {c : Cursor} {r : Excerpt × Cursor} (h : r ∈ parameterList c) :
    ∃ t : ParameterText, c.Reads t.chars r.2 := by
  unfold parameterList at h
  obtain ⟨q₁, h₁, h⟩ := mem_bind.1 h
  obtain ⟨q₂, h₂, h⟩ := mem_bind.1 h
  obtain ⟨q₃, h₃, h⟩ := mem_bind.1 h
  obtain ⟨q₄, h₄, h⟩ := mem_bind.1 h
  obtain ⟨q₅, h₅, h⟩ := mem_bind.1 h
  obtain ⟨q₆, h₆, h⟩ := mem_bind.1 h
  obtain rfl := mem_pure.1 h
  obtain ⟨gap, hgap, hblank, _⟩ := mem_run h₁
  obtain ⟨params, hparams, hopen, _⟩ := mem_run (mem_captured.1 h₃).1
  obtain ⟨s₅, hs₅, _⟩ := within_run _ _ _ h₅
  obtain ⟨s₆, hs₆, _⟩ : ∃ s, q₅.2.Reads s q₆.2 ∧ ∀ ch ∈ s, anyChar ch = true := by
    refine Within.maybe ?_ _ _ h₆
    exact (within_lit fun _ _ => rfl).bind fun _ => (within_one _).forward.bind fun _ =>
      (within_run1 _).forward
  refine ⟨⟨gap, params, s₅ ++ s₆, hblank, ?_⟩, ?_⟩
  · intro hmem
    simpa using hopen _ hmem
  · exact hgap.trans ((mem_lit h₂).trans (hparams.trans ((mem_lit h₄).trans (hs₅.trans hs₆))))

/-! ### Types and initial values -/

/-- A method's type is a word with arguments, with brackets or with neither. -/
theorem mem_methodType {c : Cursor} {r : Unit × Cursor} (h : r ∈ methodType c) :
    ∃ type suffix, Worded type ∧ TypeSuffix suffix ∧ c.Reads (type ++ suffix) r.2 := by
  rcases mem_orElse.1 h with h | h
  · obtain ⟨q, hq, h⟩ := mem_bind.1 h
    obtain ⟨type, hne, hread, hall, _⟩ := mem_run1 hq
    rcases mem_maybe.1 h with h | h
    · obtain ⟨args, hargs, hreadargs⟩ := mem_genericArguments h
      exact ⟨type, _, ⟨hne, hall⟩, .arguments hargs, hread.trans hreadargs⟩
    · refine ⟨type, [], ⟨hne, hall⟩, .none, ?_⟩
      rw [List.append_nil, congrArg Prod.snd h]
      exact hread
  · obtain ⟨q, hq, h⟩ := mem_bind.1 h
    obtain ⟨type, hne, hread, hall, _⟩ := mem_run1 hq
    exact ⟨type, _, ⟨hne, hall⟩, .brackets, hread.trans (mem_lit h)⟩

/-- A field's type may have arguments and brackets. -/
theorem mem_fieldType {c : Cursor} {r : Unit × Cursor} (h : r ∈ fieldType c) :
    ∃ type suffix, Worded type ∧ FieldTypeSuffix suffix ∧ c.Reads (type ++ suffix) r.2 := by
  rcases mem_orElse.1 h with h | h
  · obtain ⟨q, hq, h⟩ := mem_bind.1 h
    obtain ⟨q', hq', h⟩ := mem_bind.1 h
    obtain ⟨type, hne, hread, hall, _⟩ := mem_run1 hq
    rcases mem_maybe.1 hq' with hq' | hq' <;> rcases mem_maybe.1 h with h | h
    · obtain ⟨args, hargs, hreadargs⟩ := mem_genericArguments hq'
      refine ⟨type, _, ⟨hne, hall⟩, .both hargs, ?_⟩
      have hread' := hread.trans (hreadargs.trans (mem_lit h))
      simpa using hread'
    · obtain ⟨args, hargs, hreadargs⟩ := mem_genericArguments hq'
      refine ⟨type, _, ⟨hne, hall⟩, .plain (.arguments hargs), ?_⟩
      rw [congrArg Prod.snd h]
      exact hread.trans hreadargs
    · refine ⟨type, _, ⟨hne, hall⟩, .plain .brackets, ?_⟩
      rw [congrArg Prod.snd hq'] at h
      exact hread.trans (mem_lit h)
    · refine ⟨type, [], ⟨hne, hall⟩, .plain .none, ?_⟩
      rw [List.append_nil, congrArg Prod.snd h, congrArg Prod.snd hq']
      exact hread
  · obtain ⟨q, hq, h⟩ := mem_bind.1 h
    obtain ⟨type, hne, hread, hall, _⟩ := mem_run1 hq
    exact ⟨type, _, ⟨hne, hall⟩, .plain .brackets, hread.trans (mem_lit h)⟩

/-- An initial value starts with an equals sign. Without one, no blanks are read either. -/
theorem mem_initialValue {c : Cursor} {r : Unit × Cursor}
    (h : r ∈ (maybe do blanks; lit "="; run1 (· != ';')) c) :
    ∃ gap value, (∀ ch ∈ gap, Text.isBlank ch = true) ∧
      (value = [] ∧ gap = [] ∨ ∃ init, value = '=' :: init) ∧ c.Reads (gap ++ value) r.2 := by
  rcases mem_maybe.1 h with h | h
  · obtain ⟨q, hq, h⟩ := mem_bind.1 h
    obtain ⟨q', hq', h⟩ := mem_bind.1 h
    obtain ⟨gap, hread, hall, _⟩ := mem_run hq
    obtain ⟨init, _, hinit, _⟩ := mem_run1 h
    exact ⟨gap, _, hall, .inr ⟨init, rfl⟩, hread.trans ((mem_lit hq').trans hinit)⟩
  · refine ⟨[], [], by simp, .inl ⟨rfl, rfl⟩, ?_⟩
    rw [congrArg Prod.snd h]
    exact .refl _

/-! ### Whole heads -/

/-- A method's head reads annotations, a heading, parameters and the brace that opens the body. -/
theorem mem_methodPattern {c : Cursor} {r : MethodHead × Cursor} (h : r ∈ methodPattern c) :
    ∃ (heading : Heading) (t : ParameterText),
      ((), r.1.start) ∈ annotationRun c ∧ StartsFree r.1.start ∧
      TypeSuffix heading.suffix ∧ r.1.start.Reads (heading.chars ++ t.chars) r.1.opening ∧
      r.1.opening.Reads ['{'] r.2 := by
  unfold methodPattern at h
  obtain ⟨q₁, h₁, h⟩ := mem_bind.1 h
  obtain ⟨q₂, h₂, h⟩ := mem_bind.1 h
  obtain ⟨q₃, h₃, h⟩ := mem_bind.1 h
  obtain ⟨q₄, h₄, h⟩ := mem_bind.1 h
  obtain ⟨q₅, h₅, h⟩ := mem_bind.1 h
  obtain ⟨q₆, h₆, h⟩ := mem_bind.1 h
  obtain rfl := mem_here.1 h₆
  obtain ⟨q₇, h₇, h⟩ := mem_bind.1 h
  obtain rfl := mem_pure.1 h
  obtain ⟨hann, hfree, modifiers, hmods, hphrase, hstart⟩ := mem_memberHead (by decide) h₁
  obtain ⟨gap, hgap, hreadgap, hblank, _⟩ := mem_run1 h₃
  obtain ⟨name, hname, hreadname, hword, _⟩ := mem_run1 (mem_captured.1 h₄).1
  obtain ⟨t, ht⟩ := mem_parameterList h₅
  obtain ⟨type, suffix, htype, hsuffix, hreadtype⟩ := mem_methodType (mem_captured.1 h₂).1
  refine ⟨⟨modifiers, type, suffix, gap, name, hphrase, hstart, htype, hgap, hblank,
    ⟨hname, hword⟩⟩, t, hann, hfree, hsuffix, ?_, mem_lit h₇⟩
  have hread := (hmods.trans (hreadtype.trans (hreadgap.trans hreadname))).trans ht
  simpa [Heading.chars] using hread

theorem methodPattern_of_item {c d : Cursor} (h : annotationItem.Prefers c () d) :
    methodPattern c = methodPattern d := by
  unfold methodPattern
  rw [bind_apply, bind_apply, memberHead_congr (annotationRun_of_item h)]

theorem fieldPattern_of_item {c d : Cursor} (h : annotationItem.Prefers c () d) :
    fieldPattern c = fieldPattern d := by
  unfold fieldPattern
  rw [bind_apply, bind_apply, memberHead_congr (annotationRun_of_item h)]

/-- A constructor's head reads a name, parameters and the brace that opens the body. -/
theorem mem_constructorPattern {c : Cursor} {r : ConstructorHead × Cursor}
    (h : r ∈ constructorPattern c) :
    ∃ (name : List Char) (t : ParameterText), Worded name ∧ StartsFree c ∧
      c.Reads (name ++ t.chars) r.1.opening ∧ r.1.opening.Reads ['{'] r.2 := by
  unfold constructorPattern at h
  obtain ⟨q₁, h₁, h⟩ := mem_bind.1 h
  obtain ⟨hfree, rfl⟩ := mem_declarationStart.1 h₁
  obtain ⟨q₂, h₂, h⟩ := mem_bind.1 h
  obtain ⟨q₃, h₃, h⟩ := mem_bind.1 h
  obtain ⟨q₄, h₄, h⟩ := mem_bind.1 h
  obtain rfl := mem_here.1 h₄
  obtain ⟨q₅, h₅, h⟩ := mem_bind.1 h
  obtain rfl := mem_pure.1 h
  obtain ⟨name, hname, hread, hword, _⟩ := mem_run1 (mem_captured.1 h₂).1
  obtain ⟨t, ht⟩ := mem_parameterList h₃
  exact ⟨name, t, ⟨hname, hword⟩, hfree, hread.trans ht, mem_lit h₅⟩

/-- A field's head reads annotations, a heading and, maybe after blanks and an initial value, a
semicolon. -/
theorem mem_fieldPattern {c : Cursor} {r : FieldHead × Cursor} (h : r ∈ fieldPattern c) :
    ∃ (heading : Heading) (gap value : List Char),
      ((), r.1.start) ∈ annotationRun c ∧ StartsFree r.1.start ∧
      FieldTypeSuffix heading.suffix ∧ (∀ ch ∈ gap, Text.isBlank ch = true) ∧
      (value = [] ∧ gap = [] ∨ ∃ init, value = '=' :: init) ∧
      r.1.start.Reads (heading.chars ++ (gap ++ (value ++ [';']))) r.2 := by
  unfold fieldPattern at h
  obtain ⟨q₁, h₁, h⟩ := mem_bind.1 h
  obtain ⟨q₂, h₂, h⟩ := mem_bind.1 h
  obtain ⟨q₃, h₃, h⟩ := mem_bind.1 h
  obtain ⟨q₄, h₄, h⟩ := mem_bind.1 h
  obtain ⟨q₅, h₅, h⟩ := mem_bind.1 h
  obtain ⟨q₆, h₆, h⟩ := mem_bind.1 h
  obtain rfl := mem_pure.1 h
  obtain ⟨hann, hfree, modifiers, hmods, hphrase, hstart⟩ := mem_memberHead (by decide) h₁
  obtain ⟨gap, hgap, hreadgap, hblank, _⟩ := mem_run1 h₃
  obtain ⟨name, hname, hreadname, hword, _⟩ := mem_run1 (mem_captured.1 h₄).1
  obtain ⟨type, suffix, htype, hsuffix, hreadtype⟩ := mem_fieldType (mem_captured.1 h₂).1
  obtain ⟨gap', value, hgap', hvalue, hreadvalue⟩ := mem_initialValue h₅
  refine ⟨⟨modifiers, type, suffix, gap, name, hphrase, hstart, htype, hgap, hblank,
    ⟨hname, hword⟩⟩, gap', value, hann, hfree, hsuffix, hgap', hvalue, ?_⟩
  have hhead := hmods.trans (hreadtype.trans (hreadgap.trans hreadname))
  have hread := hhead.trans (hreadvalue.trans (mem_lit h₆))
  simpa [Heading.chars] using hread

end ClassAtlas.Source
