import ClassAtlas.Proofs.Plain.Missed
import ClassAtlas.Proofs.Source.LinesAbove
import ClassAtlas.Proofs.Source.TypeErasure

/-! Class headers are read back: the name of the class behind its modifiers, its base without type
arguments and, from a list of types nested to any depth, the names of the interfaces. -/

namespace ClassAtlas.Source

open Pattern

/-- The words that may stand before `class`. -/
def classModifierWords : List String := ["public", "abstract", "final"]

theorem classModifierWords_worded : ∀ s ∈ classModifierWords, Worded s.toList := by decide

def classModifier : Pattern Unit := do
  boundary
  oneOf classModifierWords
  blanks1

/-- A declaration from its keyword on. -/
def unmodifiedClass : Pattern ClassClauses := do
  boundary
  lit "class"
  blanks1
  let name ← captured word
  maybe typeArguments
  let base ← optional extendsClause
  let interfaces ← optional implementsClause
  return ⟨name, base, interfaces⟩

theorem classPattern_eq : classPattern = (do runOf classModifier; unmodifiedClass) := rfl

end ClassAtlas.Source

namespace ClassAtlas.Plain

open Source Pattern

variable {α : Type} {before rest : List Char}

/-- A keyword with one space behind it is read where a word can start. -/
theorem prefers_keyword {k : String} (hk : Worded k.toList) (hb : startsWord before = false)
    (hrest : Stops Text.isBlank rest) {f : Unit → Pattern α} {a : α} {d : Cursor}
    (hf : (f ()).Prefers ⟨' ' :: (k.toList.reverse ++ before), rest⟩ a d) :
    (do boundary; lit k; let u ← blanks1; f u : Pattern α).Prefers
      ⟨before, k.toList ++ ' ' :: rest⟩ a d := by
  have hgap : blanks1 ⟨k.toList.reverse ++ before, [' '] ++ rest⟩ = _ :=
    run1_append (by simp) (by decide) hrest
  refine Prefers.bind (.of_eq (boundary_eq_single hb (hk.startsWord _))) ?_
  refine Prefers.bind (.of_eq (lit_append k before _)) ?_
  exact Prefers.bind (.of_eq hgap) hf

theorem Name.starts (n : Name) (rest : List Char) :
    ∃ ch ∈ (n.chars ++ rest).head?, Text.isWord ch = true := n.worded.head rest

theorem Name.dotted (n : Name) : ∀ ch ∈ n.chars, isDotted ch = true := by
  intro ch hch
  simp [isDotted, n.worded.2 ch hch]

theorem DottedName.dotted (d : DottedName) : ∀ ch ∈ d.chars, isDotted ch = true := by
  refine forall_mem_joined (fun ch => isDotted ch = true) (by decide) fun item hitem ch hch => ?_
  obtain ⟨n, _, rfl⟩ := List.mem_map.1 hitem
  exact n.dotted ch hch

theorem DottedName.starts (d : DottedName) (rest : List Char) :
    ∃ ch ∈ (d.chars ++ rest).head?, Text.isWord ch = true := by
  rw [DottedName.chars, List.map_cons, joined, List.append_assoc]
  exact d.head.starts _

theorem ne_nil_of_head {s : List Char} (h : ∃ ch ∈ s.head?, Text.isWord ch = true) : s ≠ [] := by
  rintro rfl
  simp at h

/-! ### Modifiers -/

/-- Of several keywords the one that stands there is read, if no other one starts it. -/
theorem prefers_oneOf {names : List String} {v : String} (hv : v ∈ names)
    (hnames : ∀ s ∈ names, Worded s.toList) (hclear : ∀ s ∈ names, s.toList <+: v.toList → s = v)
    (hrest : Stops Text.isWord rest) (before : List Char) :
    (oneOf names).Prefers ⟨before, v.toList ++ rest⟩ () ⟨v.toList.reverse ++ before, rest⟩ := by
  induction names with
  | nil => exact absurd hv List.not_mem_nil
  | cons s names ih =>
    by_cases hs : s = v
    · subst hs
      exact Prefers.orElse (.of_eq (lit_append s before rest))
    · have hmem : v ∈ names := (List.mem_cons.1 hv).resolve_left (Ne.symm hs)
      refine Prefers.orElse_right (lit_eq_nil ?_) (ih hmem
        (fun t ht => hnames t (List.mem_cons_of_mem _ ht))
        (fun t ht => hclear t (List.mem_cons_of_mem _ ht)))
      intro hprefix
      rcases List.prefix_or_prefix_of_prefix hprefix (List.prefix_append v.toList rest) with
        h | ⟨t, ht⟩
      · exact hs (hclear s List.mem_cons_self h)
      · -- a longer keyword would go on where the word ends
        rw [← ht, List.prefix_append_right_inj] at hprefix
        cases t with
        | nil => exact hs (String.toList_inj.1 (by simpa using ht.symm))
        | cons ch t =>
          obtain ⟨more, rfl⟩ := hprefix
          have hword := (hnames s List.mem_cons_self).2 ch (by simp [← ht])
          rw [hrest ch (by simp)] at hword
          exact absurd hword (by simp)

theorem prefers_classModifier {w : String} {gap text : List Char}
    (hw : w ∈ classModifierWords) (hb : startsWord before = false) (hne : gap ≠ [])
    (hgap : ∀ ch ∈ gap, Text.isBlank ch = true) (htext : Stops Text.isBlank text) :
    classModifier.Prefers ⟨before, w.toList ++ (gap ++ text)⟩ ()
      ⟨gap.reverse ++ (w.toList.reverse ++ before), text⟩ := by
  have hclear : ∀ v ∈ classModifierWords, ∀ s ∈ classModifierWords, s.toList <+: v.toList →
      s = v := by
    decide
  have hstop : Stops Text.isWord (gap ++ text) := by
    intro ch hch
    refine Text.isWord_of_isBlank (hgap ch (List.mem_of_head? ?_))
    rwa [List.head?_append_of_ne_nil _ hne] at hch
  have hstart := (classModifierWords_worded w hw).startsWord (gap ++ text)
  refine Prefers.bind (.of_eq (boundary_eq_single hb hstart)) ?_
  refine Prefers.bind (prefers_oneOf hw classModifierWords_worded (hclear w hw) hstop before) ?_
  exact .of_eq (run1_append hne hgap htext)

/-- The keyword itself is none of the modifiers. -/
theorem classModifier_eq_nil (before rest : List Char) :
    classModifier ⟨before, "class".toList ++ ' ' :: rest⟩ = [] := by
  refine bind_eq_nil_of_forall fun r hr => ?_
  rw [(mem_require.1 hr).2]
  exact bind_eq_nil (orElse_eq_nil (lit_eq_nil (by simp)) (orElse_eq_nil (lit_eq_nil (by simp))
    (orElse_eq_nil (lit_eq_nil (by simp)) rfl)))

/-- Modifiers with a space behind each. -/
def modifierText (words : List {w : String // w ∈ classModifierWords}) : List Char :=
  words.flatMap fun w => w.val.toList ++ [' ']

/-- All modifiers are read, one step each. -/
theorem steps_modifiers (words : List {w : String // w ∈ classModifierWords})
    (hb : startsWord before = false) (rest : List Char) :
    ∃ before', Steps classModifier ⟨before, modifierText words ++ ("class".toList ++ ' ' :: rest)⟩
      ⟨before', "class".toList ++ ' ' :: rest⟩ ∧ startsWord before' = false := by
  induction words generalizing before with
  | nil => exact ⟨before, .done (classModifier_eq_nil before rest), hb⟩
  | cons w words ih =>
    have hspace : startsWord ([' '].reverse ++ (w.val.toList.reverse ++ before)) = false :=
      (by decide : Text.isWord ' ' = false)
    obtain ⟨before', hsteps, hb'⟩ := ih hspace
    have hstop : Stops Text.isBlank (modifierText words ++ ("class".toList ++ ' ' :: rest)) := by
      cases words with
      | nil => exact stops_cons (by decide)
      | cons v words =>
        rw [modifierText, List.flatMap_cons, List.append_assoc, List.append_assoc]
        exact stops_blank_of_head ((classModifierWords_worded _ v.property).head _)
    have hstep := prefers_classModifier w.property hb (by simp : [' '] ≠ []) (by decide) hstop
    rw [modifierText, List.flatMap_cons, List.append_assoc, List.append_assoc, ← modifierText]
    refine ⟨before', .step hstep ?_ hsteps, hb'⟩
    simp only [List.length_append, List.length_cons]
    omega

/-! ### Types -/

/-- A type: a name, or a name with type arguments. -/
inductive GenericType where
  | plain (name : DottedName)
  | applied (name : DottedName) (first : GenericType) (more : List GenericType)

namespace GenericType

/-- What a type is called without its arguments. -/
def head : GenericType → DottedName
  | plain name => name
  | applied name _ _ => name

mutual

def chars : GenericType → List Char
  | plain name => name.chars
  | applied name first more => name.chars ++ '<' :: (first.chars ++ furtherChars more ++ ['>'])

/-- The arguments behind the first one. -/
def furtherChars : List GenericType → List Char
  | [] => []
  | t :: types => [',', ' '] ++ t.chars ++ furtherChars types

end

/-- What holds of names and is handed on from type arguments to the type holds of all types. -/
@[elab_as_elim]
theorem arguments_induction {motive : GenericType → Prop} (plain : ∀ name, motive (plain name))
    (applied : ∀ name first more, (∀ t ∈ first :: more, motive t) →
      motive (applied name first more))
    (t : GenericType) : motive t :=
  @GenericType.rec motive (fun types => ∀ t ∈ types, motive t) plain
    (fun name first more hfirst hmore =>
      applied name first more (List.forall_mem_cons.2 ⟨hfirst, hmore⟩))
    (by simp) (fun _ _ ht htypes => List.forall_mem_cons.2 ⟨ht, htypes⟩) t

theorem furtherChars_eq (types : List GenericType) :
    furtherChars types = (types.map chars).flatMap ([',', ' '] ++ ·) := by
  induction types with
  | nil => rfl
  | cons t types ih => rw [furtherChars, ih, List.map_cons, List.flatMap_cons]

@[simp] theorem chars_plain (name : DottedName) : (plain name).chars = name.chars := by rw [chars]

theorem chars_applied (name : DottedName) (first : GenericType) (more : List GenericType) :
    (applied name first more).chars =
      name.chars ++ '<' :: (commaList ((first :: more).map chars) ++ ['>']) := by
  rw [chars, furtherChars_eq]
  rfl

end GenericType

theorem DottedName.nested (d : DottedName) : Nested d.chars d.chars := by
  refine .of_forall fun ch hch => ?_
  have hdotted := d.dotted ch hch
  constructor
  · rintro rfl
    exact absurd hdotted (by decide)
  · rintro rfl
    exact absurd hdotted (by decide)

/-- Lists of balanced texts are balanced, and outside of their brackets stands the list of what is
outside of the brackets of each. -/
theorem nested_commaList {types : List GenericType}
    (h : ∀ t ∈ types, Nested t.chars t.head.chars) :
    Nested (commaList (types.map GenericType.chars)) (commaList (types.map (·.head.chars))) := by
  have hseparator : Nested [',', ' '] [',', ' '] := .of_forall (by decide)
  have hfurther : ∀ types : List GenericType, (∀ t ∈ types, Nested t.chars t.head.chars) →
      Nested ((types.map GenericType.chars).flatMap ([',', ' '] ++ ·))
        ((types.map (·.head.chars)).flatMap ([',', ' '] ++ ·)) := by
    intro types
    induction types with
    | nil => exact fun _ => .nil
    | cons t types ih =>
      intro h
      obtain ⟨ht, htypes⟩ := List.forall_mem_cons.1 h
      exact (hseparator.append ht).append (ih htypes)
  cases types with
  | nil => exact .nil
  | cons t types =>
    obtain ⟨ht, htypes⟩ := List.forall_mem_cons.1 h
    exact ht.append (hfurther types htypes)

/-- Outside of its type arguments a type has its name only. -/
theorem GenericType.nested (t : GenericType) : Nested t.chars t.head.chars := by
  induction t using arguments_induction with
  | plain name => exact name.nested
  | applied name first more ih =>
    have hgroup := Nested.group (nested_commaList ih) .nil
    rw [chars_applied, ← List.append_nil (head _).chars]
    exact name.nested.append hgroup

theorem GenericType.typeListChar (t : GenericType) : ∀ ch ∈ t.chars, isTypeListChar ch = true := by
  have hname : ∀ d : DottedName, ∀ ch ∈ d.chars, isTypeListChar ch = true := by
    intro d ch hch
    have hdotted := d.dotted ch hch
    rcases Bool.or_eq_true_iff.1 hdotted with hword | hdot
    · simp [isTypeListChar, hword]
    · simp [isTypeListChar, hdot]
  induction t using arguments_induction with
  | plain name => exact hname name
  | applied name first more ih =>
    have hlist : ∀ ch ∈ commaList ((first :: more).map chars), isTypeListChar ch = true := by
      refine forall_mem_joined (fun ch => isTypeListChar ch = true) (by decide) fun item hitem => ?_
      obtain ⟨t, ht, rfl⟩ := List.mem_map.1 hitem
      exact ih t ht
    rw [chars_applied]
    refine List.forall_mem_append.2 ⟨hname name, List.forall_mem_cons.2 ⟨by decide, ?_⟩⟩
    exact List.forall_mem_append.2 ⟨hlist, by decide⟩

theorem GenericType.starts (t : GenericType) (rest : List Char) :
    ∃ ch ∈ (t.chars ++ rest).head?, Text.isWord ch = true := by
  cases t with
  | plain name => exact name.starts rest
  | applied name first more =>
    rw [chars_applied, List.append_assoc]
    exact name.starts _

theorem DottedName.chars_ne_nil (d : DottedName) : d.chars ≠ [] := by
  simpa using ne_nil_of_head (d.starts [])

/-- The names of a list of types are those outside of type arguments. -/
theorem typeListNames_types {types : List GenericType} (hne : types ≠ []) :
    typeListNames (commaList (types.map GenericType.chars) ++ [' ']) =
      types.map fun t => String.ofList t.head.chars := by
  have hspace : Nested [' '] [' '] := .of_forall (by decide)
  have hlist := (nested_commaList fun t (_ : t ∈ types) => t.nested).append hspace
  rw [typeListNames, hlist.eraseTypeArguments_eq (Nat.le_refl _), List.filterMap_map]
  refine filterMap_splitOn_commaList hne (fun t _ hmem => ?_) (by simp) fun t _ s s' hs hs' => ?_
  · exact absurd (t.head.dotted _ hmem) (by decide)
  · have hne := t.head.chars_ne_nil
    have hfirst : Stops Text.isBlank t.head.chars :=
      fun ch hch => isBlank_of_isDotted (t.head.dotted ch (List.mem_of_head? hch))
    have hlast : Stops Text.isBlank t.head.chars.reverse := fun ch hch =>
      isBlank_of_isDotted (t.head.dotted ch (List.mem_reverse.1 (List.mem_of_head? hch)))
    have htrim : Text.trimChars (s ++ (t.head.chars ++ s')) = t.head.chars :=
      Text.trimChars_append (isBlank_of_spaces hs) (isBlank_of_spaces hs') hne hfirst hlast
    simp [htrim, hne]

/-! ### Clauses -/

/-- A single space, and no type arguments behind it. -/
structure SpaceAhead (rest : List Char) : Prop where
  shape : ∃ x more, rest = ' ' :: x :: more ∧ Text.isBlank x = false ∧ x ≠ '<'

theorem SpaceAhead.blanks1_eq (h : SpaceAhead rest) (before : List Char) :
    ∃ more, rest = ' ' :: more ∧ blanks1 ⟨before, rest⟩ = [((), ⟨' ' :: before, more⟩)] := by
  obtain ⟨x, more, rfl, hx, _⟩ := h.shape
  refine ⟨x :: more, rfl, ?_⟩
  have hrun : blanks1 ⟨before, [' '] ++ x :: more⟩ = _ :=
    run1_append (by simp) (by decide) (stops_cons hx)
  exact hrun

theorem SpaceAhead.typeArguments_eq (h : SpaceAhead rest) (before : List Char) :
    (maybe typeArguments) ⟨before, rest⟩ = [((), ⟨before, rest⟩)] := by
  obtain ⟨x, more, rfl, hx, hangle⟩ := h.shape
  have hrun : blanks ⟨before, [' '] ++ x :: more⟩ = _ := run_append (by decide) (stops_cons hx)
  refine maybe_eq_single ((bind_eq_of_single hrun).trans (bind_eq_nil (lit_eq_nil ?_)))
  simpa using hangle.symm

theorem SpaceAhead.stops_word (h : SpaceAhead rest) : Stops Text.isWord rest := by
  obtain ⟨x, more, rfl, _⟩ := h.shape
  exact stops_cons (by decide)

theorem SpaceAhead.stops_dotted (h : SpaceAhead rest) : Stops isDotted rest := by
  obtain ⟨x, more, rfl, _⟩ := h.shape
  exact stops_cons (by decide)

theorem spaceAhead_brace (rest : List Char) : SpaceAhead ([' ', '{'] ++ rest) :=
  ⟨'{', rest, rfl, by decide, by decide⟩

/-- A base is read up to the end of its type arguments, or up to where there are none. -/
theorem prefers_extends {b more : List Char} (hne : b ≠ []) (hdotted : ∀ ch ∈ b, isDotted ch = true)
    (hstops : Stops isDotted rest)
    (harguments : ∀ before, ∃ before',
      (maybe typeArguments).Prefers ⟨before, rest⟩ () ⟨before', more⟩)
    (before : List Char) :
    ∃ base before',
      extendsClause.Prefers ⟨before, ' ' :: ("extends".toList ++ ' ' :: (b ++ rest))⟩ base
      ⟨before', more⟩ ∧ base.text = String.ofList b := by
  have hstart : Stops Text.isBlank (b ++ rest) := by
    cases b with
    | nil => exact absurd rfl hne
    | cons ch b => exact stops_cons (isBlank_of_isDotted (hdotted ch List.mem_cons_self))
  have hfirst : blanks1 ⟨before, [' '] ++ ("extends".toList ++ ' ' :: (b ++ rest))⟩ = _ :=
    run1_append (by simp) (by decide) (stops_cons (by decide))
  have hsecond : blanks1 ⟨"extends".toList.reverse ++ ' ' :: before, [' '] ++ (b ++ rest)⟩ = _ :=
    run1_append (by simp) (by decide) hstart
  have hname : run1 isDotted ⟨' ' :: ("extends".toList.reverse ++ ' ' :: before), b ++ rest⟩ = _ :=
    run1_append hne hdotted hstops
  obtain ⟨before', hrest⟩ :=
    harguments (b.reverse ++ ' ' :: ("extends".toList.reverse ++ ' ' :: before))
  refine ⟨⟨⟨' ' :: ("extends".toList.reverse ++ ' ' :: before), b ++ rest⟩,
    ⟨b.reverse ++ ' ' :: ("extends".toList.reverse ++ ' ' :: before), rest⟩⟩, before', ?_,
    Excerpt.text_append _ _ _ _⟩
  refine Prefers.bind (.of_eq hfirst) (Prefers.bind (.of_eq (lit_append "extends" _ _)) ?_)
  refine Prefers.bind (.of_eq hsecond) (Prefers.bind (Prefers.of_eq hname).captured ?_)
  exact Prefers.bind hrest (prefers_pure _ _)

theorem SpaceAhead.extendsClause_eq_nil (h : SpaceAhead rest) (hother : ¬" extends".toList <+: rest)
    (before : List Char) : extendsClause ⟨before, rest⟩ = [] := by
  obtain ⟨more, rfl, hblank⟩ := h.blanks1_eq before
  refine (bind_eq_of_single hblank).trans (bind_eq_nil (lit_eq_nil fun hprefix => hother ?_))
  exact List.cons_prefix_cons.2 ⟨rfl, hprefix⟩

/-- A type list is read up to the brace. -/
theorem prefers_implements {list : List Char} (hne : list ≠ []) (hstart : Stops Text.isBlank list)
    (hchars : ∀ ch ∈ list, isTypeListChar ch = true) (before rest : List Char) :
    ∃ interfaces stop, implementsClause.Prefers
      ⟨before, ' ' :: ("implements".toList ++ ' ' :: (list ++ '{' :: rest))⟩ interfaces stop ∧
      interfaces.chars = list := by
  have hlist : Stops Text.isBlank (list ++ '{' :: rest) := by
    cases list with
    | nil => exact absurd rfl hne
    | cons ch list => exact stops_cons (hstart ch rfl)
  have hfirst : blanks1 ⟨before, [' '] ++ ("implements".toList ++ ' ' :: (list ++ '{' :: rest))⟩ =
      _ :=
    run1_append (by simp) (by decide) (stops_cons (by decide))
  have hgap : (many1 Text.isBlank).Prefers
      ⟨"implements".toList.reverse ++ ' ' :: before, [' '] ++ (list ++ '{' :: rest)⟩ ()
      ⟨[' '].reverse ++ ("implements".toList.reverse ++ ' ' :: before), list ++ '{' :: rest⟩ :=
    prefers_many1 (by simp) (by decide) hlist
  have hrun : ∀ before, run1 isTypeListChar ⟨before, list ++ '{' :: rest⟩ = _ :=
    fun before => run1_append hne hchars (stops_cons (by decide))
  exact ⟨_, _, Prefers.bind (.of_eq hfirst) (Prefers.bind (.of_eq (lit_append "implements" _ _))
    (Prefers.bind hgap (Prefers.of_eq (hrun _)).captured)), Excerpt.chars_append _ _ _ _⟩

theorem implementsClause_eq_nil (before rest : List Char) :
    implementsClause ⟨before, [' ', '{'] ++ rest⟩ = [] := by
  have hblank : blanks1 ⟨before, [' '] ++ '{' :: rest⟩ = _ :=
    run1_append (by simp) (by decide) (stops_cons (by decide))
  exact (bind_eq_of_single hblank).trans (bind_eq_nil (lit_eq_nil (by simp)))

/-! ### Headers -/

/-- A text without angle brackets and braces. -/
structure FlatText where
  chars : List Char
  flat : ∀ ch ∈ chars, ch ≠ '<' ∧ ch ≠ '>' ∧ ch ≠ '{'

/-- The text between angle brackets, if there is one. -/
def angled : Option FlatText → List Char
  | none => []
  | some t => '<' :: (t.chars ++ ['>'])

structure GenericHeader where
  modifiers : List {w : String // w ∈ classModifierWords}
  name : Name
  parameters : Option FlatText
  base : Option (DottedName × Option FlatText)
  interfaces : List GenericType

namespace GenericHeader

def baseClause (h : GenericHeader) : List Char :=
  match h.base with
  | none => []
  | some (b, arguments) => " extends ".toList ++ (b.chars ++ angled arguments)

def interfaceClause (h : GenericHeader) : List Char :=
  match h.interfaces with
  | [] => []
  | types => " implements ".toList ++ commaList (types.map GenericType.chars)

/-- The header up to the brace. -/
def text (h : GenericHeader) : List Char :=
  modifierText h.modifiers ++ ("class ".toList ++ (h.name.chars ++ (angled h.parameters ++
    (h.baseClause ++ (h.interfaceClause ++ [' ', '{'])))))

end GenericHeader

theorem prefers_angled (arguments : Option FlatText) (h : SpaceAhead rest) (before : List Char) :
    ∃ before', (maybe typeArguments).Prefers ⟨before, angled arguments ++ rest⟩ () ⟨before',
      rest⟩ := by
  cases arguments with
  | none => exact ⟨before, .of_eq (h.typeArguments_eq before)⟩
  | some t =>
    have hrun : run (fun c => c != '>' && c != '{') ⟨'<' :: before, t.chars ++ '>' :: rest⟩ = _ :=
      run_append (fun ch hch => by simp [t.flat ch hch]) (stops_cons (by decide))
    have htext : angled (some t) ++ rest = '<' :: (t.chars ++ '>' :: rest) := by simp [angled]
    rw [htext]
    refine ⟨'>' :: (t.chars.reverse ++ '<' :: before), Prefers.maybe ?_⟩
    refine Prefers.bind (.of_eq (run_none (stops_cons (by decide)))) ?_
    refine Prefers.bind (.of_eq (lit_append "<" before _)) (Prefers.bind (.of_eq hrun) ?_)
    exact .of_eq (lit_append ">" _ rest)

theorem stops_angled {cls : Char → Bool} (hcls : cls '<' = false) (arguments : Option FlatText)
    (h : Stops cls rest) : Stops cls (angled arguments ++ rest) := by
  cases arguments with
  | none => exact h
  | some t => exact stops_cons hcls

namespace GenericHeader

variable (h : GenericHeader) (before rest : List Char)

theorem spaceAhead_interfaces : SpaceAhead (h.interfaceClause ++ ([' ', '{'] ++ rest)) := by
  unfold interfaceClause
  split
  · exact spaceAhead_brace rest
  · exact ⟨'i', _, rfl, by decide, by decide⟩

theorem spaceAhead_base :
    SpaceAhead (h.baseClause ++ (h.interfaceClause ++ ([' ', '{'] ++ rest))) := by
  unfold baseClause
  split
  · exact h.spaceAhead_interfaces rest
  · exact ⟨'e', _, rfl, by decide, by decide⟩

theorem prefers_base :
    ∃ base before', (optional extendsClause).Prefers
      ⟨before, h.baseClause ++ (h.interfaceClause ++ ([' ', '{'] ++ rest))⟩ base
      ⟨before', h.interfaceClause ++ ([' ', '{'] ++ rest)⟩ ∧
      base.map (·.text) = h.base.map fun b => String.ofList b.1.chars := by
  have hahead := h.spaceAhead_interfaces rest
  unfold baseClause
  cases h.base with
  | none =>
    have hother : ¬" extends".toList <+: h.interfaceClause ++ ([' ', '{'] ++ rest) := by
      unfold interfaceClause
      split <;> simp
    exact ⟨none, before, .of_eq (optional_eq_single (hahead.extendsClause_eq_nil hother before)),
      rfl⟩
  | some b =>
    obtain ⟨b, arguments⟩ := b
    obtain ⟨base, before', hbase, hname⟩ := prefers_extends b.chars_ne_nil b.dotted
      (stops_angled (by decide) arguments hahead.stops_dotted)
      (prefers_angled arguments hahead) before
    have htext : (" extends ".toList ++ (b.chars ++ angled arguments)) ++
        (h.interfaceClause ++ ([' ', '{'] ++ rest)) = ' ' :: ("extends".toList ++ ' ' ::
          (b.chars ++ (angled arguments ++ (h.interfaceClause ++ ([' ', '{'] ++ rest))))) := by simp
    simp only [htext]
    exact ⟨_, before', hbase.optional, congrArg some hname⟩

/-- The text of the interfaces ends with the space before the brace. -/
theorem prefers_interfaces :
    ∃ interfaces stop, (optional implementsClause).Prefers
      ⟨before, h.interfaceClause ++ ([' ', '{'] ++ rest)⟩ interfaces stop ∧
      interfaces.map (·.chars) = match h.interfaces with
        | [] => none
        | types => some (commaList (types.map GenericType.chars) ++ [' ']) := by
  unfold interfaceClause
  cases h.interfaces with
  | nil => exact ⟨none, _, .of_eq (optional_eq_single (implementsClause_eq_nil before rest)), rfl⟩
  | cons t types =>
    have hchars : ∀ ch ∈ commaList ((t :: types).map GenericType.chars) ++ [' '],
        isTypeListChar ch = true := by
      refine List.forall_mem_append.2 ⟨?_, by decide⟩
      refine forall_mem_joined (fun ch => isTypeListChar ch = true) (by decide) fun item hitem => ?_
      obtain ⟨t, _, rfl⟩ := List.mem_map.1 hitem
      exact t.typeListChar
    have hstart : Stops Text.isBlank (commaList ((t :: types).map GenericType.chars) ++ [' ']) := by
      rw [commaList, List.map_cons, joined, List.append_assoc]
      exact stops_blank_of_head (t.starts _)
    obtain ⟨interfaces, stop, hinterfaces, hlist⟩ :=
      prefers_implements (by simp) hstart hchars before rest
    have htext : (" implements ".toList ++ commaList ((t :: types).map GenericType.chars)) ++
        ([' ', '{'] ++ rest) = ' ' :: ("implements".toList ++ ' ' ::
          ((commaList ((t :: types).map GenericType.chars) ++ [' ']) ++ '{' :: rest)) := by simp
    simp only [htext]
    exact ⟨_, stop, hinterfaces.optional, congrArg some hlist⟩

theorem prefers_class {before : List Char} (hb : startsWord before = false) :
    ∃ clauses stop, classPattern.Prefers ⟨before, h.text ++ rest⟩ clauses stop ∧
      clauses.name.text = h.name.text ∧
      clauses.base.map (·.text) = h.base.map (fun b => String.ofList b.1.chars) ∧
      clauses.interfaces.map (·.chars) = match h.interfaces with
        | [] => none
        | types => some (commaList (types.map GenericType.chars) ++ [' ']) := by
  have hahead := h.spaceAhead_base rest
  have htext : h.text ++ rest =
      modifierText h.modifiers ++ ("class".toList ++ ' ' :: (h.name.chars ++
      (angled h.parameters ++ (h.baseClause ++ (h.interfaceClause ++ ([' ', '{'] ++ rest)))))) := by
    unfold text
    simp
  obtain ⟨b₀, hsteps, hb⟩ := steps_modifiers h.modifiers hb (h.name.chars ++ (angled h.parameters ++
    (h.baseClause ++ (h.interfaceClause ++ ([' ', '{'] ++ rest)))))
  have hname : ∀ b, word ⟨b, h.name.chars ++ (angled h.parameters ++ (h.baseClause ++
      (h.interfaceClause ++ ([' ', '{'] ++ rest))))⟩ = _ := fun b =>
    run1_append h.name.worded.1 h.name.worded.2 (stops_angled (by decide) _ hahead.stops_word)
  obtain ⟨b₁, hparameters⟩ := prefers_angled h.parameters hahead
    (h.name.chars.reverse ++ ' ' :: ("class".toList.reverse ++ b₀))
  obtain ⟨base, b₂, hbase, hbasetext⟩ := h.prefers_base b₁ rest
  obtain ⟨interfaces, stop, hinterfaces, hlist⟩ := h.prefers_interfaces b₂ rest
  rw [htext, classPattern_eq]
  refine ⟨_, stop, Prefers.bind (.of_eq hsteps.runOf) (prefers_keyword (by decide) hb
    (stops_blank_of_head (h.name.starts _)) (Prefers.bind (Prefers.of_eq (hname _)).captured
      (Prefers.bind hparameters (Prefers.bind hbase
        (Prefers.bind hinterfaces (prefers_pure _ _)))))), ?_, hbasetext, hlist⟩
  exact Excerpt.text_append _ _ _ _

end GenericHeader

/-! ### The class that is found -/

/-- The class that is found is the first one behind whole lines without any. -/
theorem classHeader?_eq {pre : List Char} {clauses : ClassClauses} {stop : Cursor}
    (hmiss : Misses classPattern pre) (hlines : WholeLines pre) (hne : rest ≠ [])
    (hprefers : classPattern.Prefers ⟨pre.reverse, rest⟩ clauses stop)
    (hname : clauses.name.text ∉ statementKeywords) :
    classHeader? (pre ++ rest) =
      some (ClassHeader.ofMatch ⟨⟨⟨pre.reverse, rest⟩, stop⟩, clauses⟩) := by
  obtain ⟨more, hmatches⟩ := hprefers.matchesIn hmiss hne
  have hcomment : inCommentLine ⟨pre.reverse, rest⟩ = false := by
    have hhead : Cursor.lineHead ⟨[].reverse ++ pre.reverse, rest⟩ = [] :=
      Cursor.lineHead_eq (by simp) hlines.head_reverse
    refine inCommentLine_eq_false fun ch hch => ?_
    rw [List.reverse_nil, List.nil_append] at hhead
    rw [hhead] at hch
    simp at hch
  rw [classHeader?, hmatches, List.map_cons, List.find?_cons_of_pos]
  simp [ClassHeader.ofMatch, hcomment, hname]

/-- Behind whole lines without a class a header is found, and all that it says. -/
theorem GenericHeader.exists_classHeader? (h : GenericHeader) {pre : List Char}
    (hmiss : Misses classPattern pre) (hlines : WholeLines pre) (rest : List Char) :
    ∃ header, classHeader? (pre ++ (h.text ++ rest)) = some header ∧
      header.start = ⟨pre.reverse, h.text ++ rest⟩ ∧ header.name = h.name.text ∧
      header.base = h.base.map (fun b => String.ofList b.1.chars) ∧
      header.interfaces = h.interfaces.map (fun t => String.ofList t.head.chars) := by
  obtain ⟨clauses, stop, hprefers, hname, hbase, hlist⟩ := h.prefers_class rest hlines.startsWord
  have hword : clauses.name.text ∉ statementKeywords := by
    rw [hname]
    exact h.name.asType.text_not_mem (by decide +kernel)
  have hne : h.text ++ rest ≠ [] := by simp [GenericHeader.text]
  refine ⟨ClassHeader.ofMatch ⟨⟨⟨pre.reverse, _⟩, stop⟩, clauses⟩, ?_, rfl, hname, hbase, ?_⟩
  · exact classHeader?_eq hmiss hlines hne hprefers hword
  · unfold ClassHeader.interfaces ClassHeader.ofMatch
    cases hi : h.interfaces with
    | nil =>
      rw [hi] at hlist
      simp only [Option.map_eq_none_iff] at hlist
      simp [hlist]
    | cons t types =>
      rw [hi] at hlist
      obtain ⟨e, he, hchars⟩ := Option.map_eq_some_iff.1 hlist
      simp only [he, Option.map_some, Excerpt.text, String.toList_ofList, hchars]
      exact typeListNames_types (by simp)

/-- A class header at the start of a file is found there, with its name, its base without type
arguments and the names of its interfaces. -/
theorem classHeader_generic (h : GenericHeader) (rest : List Char) :
    ∃ header, classHeader? (h.text ++ rest) = some header ∧
      header.start = .start (h.text ++ rest) ∧ header.name = h.name.text ∧
      header.base = h.base.map (fun b => String.ofList b.1.chars) ∧
      header.interfaces = h.interfaces.map (fun t => String.ofList t.head.chars) := by
  have hfirst : WholeLines [] := by simp [WholeLines]
  exact h.exists_classHeader? misses_nil hfirst rest

example :
    let map : GenericType := .applied ⟨.of "Map", []⟩ (.plain ⟨.of "K", []⟩)
      [.applied ⟨.of "List", []⟩ (.plain ⟨.of "V", []⟩) []]
    let h : GenericHeader := ⟨[⟨"public", by decide⟩, ⟨"final", by decide⟩], .of "Box",
      some ⟨"K, V".toList, by decide⟩,
      some (⟨.of "app", [.of "Base"]⟩, some ⟨"K".toList, by decide⟩),
      [map, .plain ⟨.of "Closer", []⟩]⟩
    h.text = ("public final class Box<K, V> extends app.Base<K> implements Map<K, List<V>>, " ++
      "Closer \x7b").toList := by
  decide +kernel

end ClassAtlas.Plain
