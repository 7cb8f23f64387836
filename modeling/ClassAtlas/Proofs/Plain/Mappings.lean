import ClassAtlas.Proofs.Plain.Controller
import ClassAtlas.Proofs.Plain.Members
import ClassAtlas.Proofs.Source.AnnotationText

/-! Mappings are read back: the name, the path and the verb of an annotation, however it is
written. -/

namespace ClassAtlas.Plain

open Source Role Pattern

variable {α : Type} {before rest more : List Char}

/-! ### The characters of mappings -/

/-- The characters of a path are those of words and its marks. -/
theorem Path.mem_chars (p : Path) {ch : Char} (h : ch ∈ p.chars) :
    Text.isWord ch = true ∨ ch ∈ ['/', '.', '-', '{', '}'] := by
  have hch := List.all_eq_true.1 p.proper ch h
  simp only [isPathChar, Bool.or_eq_true, List.contains_iff_mem] at hch
  rcases hch with hch | hch
  · exact .inl (isWord_of_isAlphanum hch)
  · by_cases hunder : ch = '_'
    · exact .inl (by rw [hunder]; decide)
    · refine .inr ?_
      simp only [List.mem_cons, List.not_mem_nil, or_false] at hch ⊢
      tauto

theorem MappingKind.worded (kind : MappingKind) : Worded kind.name.toList := by
  cases kind <;> decide

theorem PathKey.worded (key : PathKey) : Worded key.name.toList := by
  cases key <;> decide

theorem Verb.worded (v : Verb) : Worded v.chars := by
  have h := v.proper
  simp only [Bool.and_eq_true, List.all_eq_true] at h
  refine ⟨by simpa using h.1, fun ch hch => isWord_of_isAlphanum ?_⟩
  unfold Char.isAlphanum Char.isAlpha
  rw [h.2 ch hch, Bool.true_or, Bool.true_or]

theorem mem_quoted {p : Path} {ch : Char} (h : ch ∈ quoted p.chars) :
    Text.isWord ch = true ∨ ch ∈ ['"', '/', '.', '-', '{', '}'] := by
  rcases List.mem_cons.1 h with rfl | h
  · exact .inr (by simp)
  · rcases List.mem_append.1 h with h | h
    · rcases p.mem_chars h with h | h
      · exact .inl h
      · exact .inr (List.mem_cons_of_mem _ h)
    · exact .inr (by simp [List.mem_singleton.1 h])

theorem Mapping.mem_arguments (m : Mapping) (p : Path) {ch : Char} (h : ch ∈ m.arguments p) :
    Text.isWord ch = true ∨ ch ∈ [' ', '=', ',', '"', '/', '.', '-', '{', '}'] := by
  have hquoted : ch ∈ quoted p.chars →
      Text.isWord ch = true ∨ ch ∈ [' ', '=', ',', '"', '/', '.', '-', '{', '}'] := by
    intro hch
    rcases mem_quoted hch with hch | hch
    · exact .inl hch
    · exact .inr (List.mem_append_right [' ', '=', ','] hch)
  have hequals : ch ∈ [' ', '=', ' '] → ch ∈ [' ', '=', ',', '"', '/', '.', '-', '{', '}'] :=
    fun hch => (by decide : ∀ ch ∈ [' ', '=', ' '],
      ch ∈ [' ', '=', ',', '"', '/', '.', '-', '{', '}']) ch hch
  have hverb : ∀ ch ∈ ", method = RequestMethod.".toList, Text.isWord ch = true ∨
      ch ∈ [' ', '=', ',', '"', '/', '.', '-', '{', '}'] := by decide
  cases m with
  | positional kind => exact hquoted h
  | named kind key =>
    rcases List.mem_append.1 h with h | h
    · exact .inl (key.worded.2 ch h)
    · rcases List.mem_append.1 h with h | h
      · exact .inr (hequals h)
      · exact hquoted h
  | verbed key verb =>
    rcases List.mem_append.1 h with h | h
    · exact .inl (key.worded.2 ch h)
    · rcases List.mem_append.1 h with h | h
      · exact .inr (hequals h)
      · rcases List.mem_append.1 h with h | h
        · exact hquoted h
        · rcases List.mem_append.1 h with h | h
          · exact hverb ch h
          · exact .inl (verb.worded.2 ch h)

/-! ### Attributes -/

/-- The attributes that a mapping is written with. -/
def Mapping.keys : Mapping → List String
  | positional _ => []
  | named _ key => [key.name]
  | verbed key _ => [key.name, "method"]

section Attributes

variable {names : List String} {f : Unit → Pattern α}

/-- What may stand behind the name of an attribute. -/
def isBehindKey (c : Char) : Bool := Text.isBlank c || c == '='

theorem isWord_of_isBehindKey {c : Char} (h : isBehindKey c = true) : Text.isWord c = false := by
  simp only [isBehindKey, Bool.or_eq_true, beq_iff_eq] at h
  rcases h with h | rfl
  · exact Text.isWord_of_isBlank h
  · decide

theorem mem_attribute (hnames : ∀ s ∈ names, Worded s.toList) {c : Cursor}
    (h : (attributePattern names >>= f) c ≠ []) :
    startsWord c.before = false ∧ ∃ k ∈ names, ∃ gap more, (∀ ch ∈ gap, Text.isBlank ch = true) ∧
      c.after = k.toList ++ (gap ++ '=' :: more) := by
  obtain ⟨r, hr⟩ := List.exists_mem_of_ne_nil _ h
  obtain ⟨q, hq, _⟩ := mem_bind.1 hr
  obtain ⟨q₁, h₁, hq⟩ := mem_bind.1 hq
  obtain ⟨q₂, h₂, hq⟩ := mem_bind.1 hq
  obtain ⟨q₃, h₃, hq⟩ := mem_bind.1 hq
  obtain ⟨q₄, h₄, _⟩ := mem_bind.1 hq
  obtain ⟨k, hk, hread⟩ := mem_oneOf h₂
  obtain rfl : q₁ = ((), c) := (mem_require.1 h₁).2
  obtain ⟨hstart, _⟩ := mem_boundary h₁ (hnames k hk) hread.after_eq
  obtain ⟨gap, hgap, hblank, _⟩ := mem_run h₃
  have hequals := (mem_lit h₄).after_eq
  refine ⟨hstart, k, hk, gap, q₄.2.after, hblank, ?_⟩
  rw [hread.after_eq, hgap.after_eq, hequals]
  rfl

theorem attribute_wordsBefore (hnames : ∀ s ∈ names, Worded s.toList) :
    WordsBefore isBehindKey names (attributePattern names >>= f) := by
  intro c hc
  obtain ⟨hstart, k, hk, gap, more, hblank, heq⟩ := mem_attribute hnames hc
  refine ⟨hstart, k, hk, ?_⟩
  cases gap with
  | nil => exact ⟨'=', more, by decide, heq⟩
  | cons x gap =>
    refine ⟨x, gap ++ '=' :: more, ?_, heq⟩
    simp [isBehindKey, hblank x List.mem_cons_self]

theorem attribute_leadsOnly (hnames : ∀ s ∈ names, Worded s.toList) :
    LeadsOnly false ['='] (attributePattern names >>= f) := by
  intro c hc
  obtain ⟨_, k, hk, gap, more, hblank, heq⟩ := mem_attribute hnames hc
  have hstart := (hnames k hk).head (gap ++ '=' :: more)
  have hat := ne_at_of_head hstart
  rw [← heq] at hstart hat
  refine ⟨c, by rw [annotationRun_of_ne hat]; exact List.mem_singleton_self _, hstart, .inl ?_⟩
  refine ⟨k.toList ++ gap, '=', more, ?_, by simp, by simp, by rw [heq, List.append_assoc]⟩
  intro ch hch
  rcases List.mem_append.1 hch with hch | hch
  · exact isPhrase_of_isWord ((hnames k hk).2 ch hch)
  · exact isPhrase_of_isBlank (hblank ch hch)

theorem equals_proper : ProperEnds ['='] := by decide

theorem attribute_misses_mark (hnames : ∀ s ∈ names, Worded s.toList) {x : Char}
    (hx : Text.isWord x = false) (hmore : Misses (attributePattern names >>= f) more) :
    Misses (attributePattern names >>= f) (x :: more) :=
  ((attribute_wordsBefore hnames).misses_mark hnames hx).cons hmore

/-- The name of an annotation is not an attribute's. -/
theorem attribute_misses_name (hnames : ∀ s ∈ names, Worded s.toList) (kind : MappingKind)
    (hmore : Misses (attributePattern names >>= f) more) :
    Misses (attributePattern names >>= f) ('@' :: (kind.name.toList ++ '(' :: more)) := by
  refine attribute_misses_mark hnames (by decide) ?_
  refine (attribute_leadsOnly hnames).misses_phrase equals_proper ?_ (by decide) hmore
  exact fun ch hch => isPhrase_of_isWord (kind.worded.2 ch hch)

/-- A quoted path holds no attribute, as no equals sign follows its words. -/
theorem attribute_misses_quoted (hnames : ∀ s ∈ names, Worded s.toList) (p : Path)
    (hmore : Misses (attributePattern names >>= f) more) :
    Misses (attributePattern names >>= f) (quoted p.chars ++ more) := by
  have hmarks : ∀ ch ∈ ['/', '.', '-', '{', '}'], Breaks ['='] ch := by decide
  have hmarked : ∀ ch ∈ p.chars, isPhrase ch = true ∨ Breaks ['='] ch := by
    intro ch hch
    rcases p.mem_chars hch with hch | hch
    · exact .inl (isPhrase_of_isWord hch)
    · exact .inr (hmarks ch hch)
  rw [quoted, List.cons_append, List.append_assoc]
  refine attribute_misses_mark hnames (by decide) ?_
  exact (attribute_leadsOnly hnames).misses_marked equals_proper hmarked (by decide) hmore

/-- Another attribute than those looked for. -/
theorem attribute_misses_key (hnames : ∀ s ∈ names, Worded s.toList) {w : List Char}
    (hw : Worded w) (hother : ∀ k ∈ names, k.toList ≠ w)
    (hmore : Misses (attributePattern names >>= f) more) :
    Misses (attributePattern names >>= f) (w ++ ([' ', '=', ' '] ++ more)) := by
  refine (attribute_wordsBefore hnames).misses_word (fun _ => isWord_of_isBehindKey) hnames hw.2
    (by decide) (.inl hother) ?_
  refine attribute_misses_mark hnames (by decide) (attribute_misses_mark hnames (by decide) ?_)
  exact attribute_misses_mark hnames (by decide) hmore

/-- Where an attribute stands, it is read with its equals sign. -/
theorem prefers_attribute (hnames : ∀ s ∈ names, Worded s.toList) {k : String} (hk : k ∈ names)
    (hclear : ∀ s ∈ names, s.toList <+: k.toList → s = k) (hb : startsWord before = false)
    (hrest : Stops Text.isBlank rest) :
    (attributePattern names).Prefers ⟨before, k.toList ++ ([' ', '=', ' '] ++ rest)⟩ ()
      ⟨' ' :: '=' :: ' ' :: (k.toList.reverse ++ before), rest⟩ := by
  have hread := prefers_oneOf hk hnames hclear
    (show Stops Text.isWord ([' ', '=', ' '] ++ rest) from stops_cons (by decide)) before
  have hgap : ∀ b, blanks ⟨b, [' '] ++ '=' :: ' ' :: rest⟩ = _ :=
    fun b => run_append (by decide) (stops_cons (by decide))
  have hend : ∀ b, blanks ⟨b, [' '] ++ rest⟩ = _ := fun b => run_append (by decide) hrest
  refine Prefers.bind (.of_eq (boundary_eq_single hb ((hnames k hk).startsWord _))) ?_
  refine Prefers.bind hread (Prefers.bind (.of_eq (hgap _)) ?_)
  exact Prefers.bind (.of_eq (lit_append "=" _ _)) (.of_eq (hend _))

/-- An annotation in which none of its attributes is looked for. -/
theorem attribute_misses_mapping (hnames : ∀ s ∈ names, Worded s.toList) (m : Mapping) (p : Path)
    (hother : ∀ w ∈ m.keys, w ∉ names) :
    Misses (attributePattern names >>= f) (m.chars p) := by
  have hne : ∀ w ∈ m.keys, ∀ k ∈ names, k.toList ≠ w.toList := by
    intro w hw k hk heq
    exact hother w hw (String.toList_inj.1 heq ▸ hk)
  have hend : Misses (attributePattern names >>= f) [')'] :=
    attribute_misses_mark hnames (by decide) misses_nil
  have hquoted := attribute_misses_quoted hnames p hend
  cases m with
  | positional kind => exact attribute_misses_name hnames kind hquoted
  | named kind key =>
    have h := attribute_misses_name hnames kind
      (attribute_misses_key hnames key.worded (hne key.name (by simp [Mapping.keys])) hquoted)
    simpa [Mapping.chars, Mapping.arguments, Mapping.kind] using h
  | verbed key verb =>
    have hmarked : ∀ ch ∈ "RequestMethod.".toList ++ verb.chars,
        isPhrase ch = true ∨ Breaks ['='] ch := by
      have hconstant : ∀ ch ∈ "RequestMethod.".toList, isPhrase ch = true ∨ Breaks ['='] ch := by
        decide
      intro ch hch
      rcases List.mem_append.1 hch with hch | hch
      · exact hconstant ch hch
      · exact .inl (isPhrase_of_isWord (verb.worded.2 ch hch))
    have hvalue : Misses (attributePattern names >>= f)
        ("RequestMethod.".toList ++ verb.chars ++ [')']) :=
      (attribute_leadsOnly hnames).misses_marked equals_proper hmarked (by decide) misses_nil
    have hmethod := attribute_misses_key hnames (show Worded "method".toList by decide)
      (hne "method" (by simp [Mapping.keys])) hvalue
    have hcomma := attribute_misses_mark hnames (show Text.isWord ',' = false by decide)
      (attribute_misses_mark hnames (show Text.isWord ' ' = false by decide) hmethod)
    have h := attribute_misses_name hnames .request (attribute_misses_key hnames key.worded
      (hne key.name (by simp [Mapping.keys])) (attribute_misses_quoted hnames p hcomma))
    simpa [Mapping.chars, Mapping.arguments, Mapping.kind] using h

end Attributes

/-! ### Paths -/

theorem firstText?_eq_some {p : Pattern Excerpt} {seg : List Char} {e : Excerpt} {d : Cursor}
    (hm : Misses p seg) (hne : rest ≠ []) (h : p.Prefers ⟨seg.reverse, rest⟩ e d) :
    firstText? p (String.ofList (seg ++ rest)) = some e.text := by
  rw [firstText?, String.toList_ofList, h.search hm hne]
  rfl

theorem firstText?_eq_none {p : Pattern Excerpt} {text : List Char} (hm : Misses p text)
    (hend : p ⟨text.reverse, []⟩ = []) : firstText? p (String.ofList text) = none := by
  rw [firstText?, String.toList_ofList, hm.search_eq_none hend]
  rfl

theorem Path.not_isQuote (p : Path) {ch : Char} (h : ch ∈ p.chars) : isQuote ch = false := by
  have hmarks : ∀ ch ∈ ['/', '.', '-', '{', '}'], isQuote ch = false := by decide
  rcases p.mem_chars h with hword | hmark
  · by_contra hquote
    simp only [isQuote, Bool.not_eq_false, Bool.or_eq_true, beq_iff_eq] at hquote
    rcases hquote with rfl | rfl <;> exact absurd hword (by decide)
  · exact hmarks ch hmark

/-- A quoted path is read without its quotes. -/
theorem prefers_literal {p : Path} (hne : p.chars ≠ []) (before rest : List Char) :
    ∃ e, literalPattern.Prefers ⟨before, quoted p.chars ++ rest⟩ e
      ⟨'"' :: (p.chars.reverse ++ '"' :: before), rest⟩ ∧ e.text = p.text := by
  have hinside : ∀ ch ∈ p.chars, (!isQuote ch) = true := by
    intro ch hch
    rw [p.not_isQuote hch]
    rfl
  have hrun : ∀ b, run1 (fun c => !isQuote c) ⟨b, p.chars ++ '"' :: rest⟩ = _ :=
    fun b => run1_append hne hinside (stops_cons (by decide))
  have htext : quoted p.chars ++ rest = '"' :: (p.chars ++ '"' :: rest) := by simp [quoted]
  rw [htext]
  refine ⟨_, Prefers.bind (.of_eq (maybe_eq_single (lit_eq_nil (by simp)))) <|
    Prefers.bind (.of_eq (run_none (stops_cons (by decide)))) <|
    Prefers.bind (.of_eq (one_cons (by decide))) <|
    Prefers.bind (Prefers.of_eq (hrun _)).captured <|
    Prefers.bind (.of_eq (one_cons (by decide))) <| prefers_pure _ _, ?_⟩
  exact Excerpt.text_append _ _ _ _

/-- The path of an attribute is found. -/
theorem namedPath_eq (kind : MappingKind) (key : PathKey) {p : Path} (hne : p.chars ≠ [])
    (tail : List Char) :
    firstText? namedPathPattern (String.ofList (('@' :: (kind.name.toList ++ ['('])) ++
      (key.name.toList ++ ([' ', '=', ' '] ++ (quoted p.chars ++ tail))))) = some p.text := by
  have hnames : ∀ s ∈ ["value", "path"], Worded s.toList := by decide
  have hmem : key.name ∈ ["value", "path"] := by cases key <;> decide
  have hclear : ∀ s ∈ ["value", "path"], s.toList <+: key.name.toList → s = key.name := by
    cases key <;> decide
  have hseg : Misses namedPathPattern ('@' :: (kind.name.toList ++ ['('])) :=
    attribute_misses_name hnames kind misses_nil
  have hb : startsWord ('@' :: (kind.name.toList ++ ['('])).reverse = false := by
    have hparen : Text.isWord '(' = false := by decide
    simpa [startsWord] using hparen
  obtain ⟨e, hliteral, htext⟩ := prefers_literal hne
    (' ' :: '=' :: ' ' :: (key.name.toList.reverse ++ ('@' :: (kind.name.toList ++ ['('])).reverse))
      tail
  have hquote : Stops Text.isBlank (quoted p.chars ++ tail) := stops_cons (by decide)
  have hprefers : namedPathPattern.Prefers _ e _ :=
    Prefers.bind (prefers_attribute hnames hmem hclear hb hquote) hliteral
  rw [firstText?_eq_some hseg (by simp) hprefers, htext]

/-- The only argument is read as the path. -/
theorem positionalPath_eq (kind : MappingKind) {p : Path} (hne : p.chars ≠ []) :
    firstText? (mappingPathPattern kind.name)
      (String.ofList (Mapping.chars (.positional kind) p)) = some p.text := by
  obtain ⟨e, hliteral, htext⟩ :=
    prefers_literal hne ('(' :: (kind.name.toList.reverse ++ ['@'])) [')']
  have hopen : ∀ b, blanks ⟨b, '(' :: (quoted p.chars ++ [')'])⟩ = _ :=
    fun b => run_none (stops_cons (by decide))
  have hquote : ∀ b, blanks ⟨b, quoted p.chars ++ [')']⟩ = _ :=
    fun b => run_none (stops_cons (by decide))
  have hprefers : (mappingPathPattern kind.name).Prefers
      ⟨[], '@' :: (kind.name.toList ++ '(' :: (quoted p.chars ++ [')']))⟩ e _ :=
    Prefers.bind (.of_eq (lit_append "@" [] _)) <|
      Prefers.bind (.of_eq (lit_append kind.name _ _)) <|
    Prefers.bind (.of_eq (hopen _)) <| Prefers.bind (.of_eq (lit_append "(" _ _)) <|
    Prefers.bind (.of_eq (hquote _)) hliteral
  have h := firstText?_eq_some misses_nil (by simp) hprefers
  rw [List.nil_append, htext] at h
  exact h

theorem pathKeys_worded : ∀ s ∈ ["value", "path"], Worded s.toList := by decide

theorem mappingPath?_chars (m : Mapping) {p : Path} (hne : p.chars ≠ []) :
    mappingPath? (String.ofList (m.chars p)) m.kind.name = some p.text := by
  unfold mappingPath?
  cases m with
  | positional kind =>
    have hnone : firstText? namedPathPattern (String.ofList (Mapping.chars (.positional kind) p)) =
        none :=
      firstText?_eq_none (attribute_misses_mapping pathKeys_worded _ p (by simp [Mapping.keys]))
        ((attribute_wordsBefore pathKeys_worded).eq_nil_at_end _)
    rw [hnone]
    have hsome := positionalPath_eq kind hne
    simp [Mapping.kind, hsome]
  | named kind key =>
    have hsome := namedPath_eq kind key hne [')']
    have htext : Mapping.chars (.named kind key) p = ('@' :: (kind.name.toList ++ ['('])) ++
        (key.name.toList ++ ([' ', '=', ' '] ++ (quoted p.chars ++ [')']))) := by
      simp [Mapping.chars, Mapping.arguments, Mapping.kind]
    rw [htext, hsome]
    rfl
  | verbed key verb =>
    have hsome := namedPath_eq .request key hne
      (", method = RequestMethod.".toList ++ (verb.chars ++ [')']))
    have htext : Mapping.chars (.verbed key verb) p =
        ('@' :: (MappingKind.request.name.toList ++ ['('])) ++
          (key.name.toList ++ ([' ', '=', ' '] ++
          (quoted p.chars ++ (", method = RequestMethod.".toList ++ (verb.chars ++ [')']))))) := by
      simp [Mapping.chars, Mapping.arguments, Mapping.kind]
    rw [htext, hsome]
    rfl

/-! ### Verbs and media types -/

theorem upperChar_of_isUpper {c : Char} (h : c.isUpper = true) : Text.upperChar c = [c] := by
  have hle : 65 ≤ c.toNat ∧ c.toNat ≤ 90 := by
    unfold Char.isUpper at h
    simp only [decide_eq_true_eq, ge_iff_le, UInt32.le_iff_toNat_le] at h
    exact h
  have hall : ∀ n ∈ List.range' 65 26, Text.upperChar (Char.ofNat n) = [Char.ofNat n] := by
    decide +kernel
  have hc := hall c.toNat (by rw [List.mem_range'_1]; omega)
  rwa [Char.ofNat_toNat] at hc

/-- A verb is written in capital letters already. -/
theorem Verb.upper_text (v : Verb) : Text.upper v.text = v.text := by
  have h := v.proper
  simp only [Bool.and_eq_true, List.all_eq_true] at h
  have hupper : ∀ ch ∈ v.chars, Text.upperChar ch = [ch] := fun ch hch =>
    upperChar_of_isUpper (h.2 ch hch)
  have hchars : Text.upperChars v.chars = v.chars := by
    rw [Text.upperChars, List.flatMap_congr hupper, List.flatMap_singleton']
  rw [Text.upper, Verb.text, String.toList_ofList, hchars]

theorem methodKey_worded : ∀ s ∈ ["method"], Worded s.toList := by decide

/-- The verb of an attribute is found. -/
theorem verbPattern_eq (key : PathKey) (verb : Verb) (p : Path) :
    firstText? verbPattern (String.ofList (Mapping.chars (.verbed key verb) p)) =
      some verb.text := by
  have hother : ∀ k ∈ ["method"], k.toList ≠ key.name.toList := by cases key <;> decide
  obtain ⟨seg, hseg⟩ : ∃ seg, seg = '@' :: (MappingKind.request.name.toList ++ '(' ::
      (key.name.toList ++ ([' ', '=', ' '] ++ (quoted p.chars ++ [',', ' '])))) := ⟨_, rfl⟩
  have hmiss : Misses verbPattern seg := by
    rw [hseg]
    refine attribute_misses_name methodKey_worded .request ?_
    refine attribute_misses_key methodKey_worded key.worded hother ?_
    refine attribute_misses_quoted methodKey_worded p ?_
    exact attribute_misses_mark methodKey_worded (by decide)
      (attribute_misses_mark methodKey_worded (by decide) misses_nil)
  have hb : startsWord seg.reverse = false := by
    have hspace : Text.isWord ' ' = false := by decide
    simpa [hseg, startsWord] using hspace
  have hvalue : Stops Text.isBlank ("RequestMethod.".toList ++ (verb.chars ++ [')'])) :=
    stops_cons (by decide)
  have hword : ∀ b, word ⟨b, verb.chars ++ [')']⟩ = _ :=
    fun b => run1_append verb.worded.1 verb.worded.2 (stops_cons (by decide))
  have hprefers : verbPattern.Prefers ⟨seg.reverse, "method".toList ++ ([' ', '=', ' '] ++
      ("RequestMethod.".toList ++ (verb.chars ++ [')'])))⟩ _ _ :=
    Prefers.bind (prefers_attribute methodKey_worded (by simp) (by decide) hb hvalue) <|
    Prefers.bind (.of_eq (maybe_eq_single (lit_eq_nil (by simp)))) <|
    Prefers.bind (.of_eq (run_none hvalue)) <|
    Prefers.bind (Prefers.of_eq (lit_append "RequestMethod." _ _)).maybe <|
    (Prefers.of_eq (hword _)).captured
  have hfound := firstText?_eq_some hmiss (by simp) hprefers
  have htext : Mapping.chars (.verbed key verb) p = seg ++ ("method".toList ++
      ([' ', '=', ' '] ++ ("RequestMethod.".toList ++ (verb.chars ++ [')'])))) := by
    simp [hseg, Mapping.chars, Mapping.arguments, Mapping.kind]
  rw [htext, hfound, Excerpt.text_append]
  rfl

/-- A mapping that gives its kind alone has the verb of its kind. -/
theorem MappingKind.lookup_name (kind : MappingKind) :
    ∃ verb, mappingVerbs.lookup kind.name = some verb ∧ verb.getD "GET" = kind.verb := by
  cases kind <;> exact ⟨_, rfl, rfl⟩

/-- The verb of a mapping is read back. -/
theorem mappingVerb_chars (m : Mapping) (p : Path) :
    (mappingVerbs.lookup m.kind.name).map (mappingVerb (String.ofList (m.chars p))) =
      some m.verb := by
  have hkind : ∀ kind, m.kind = kind → m.verb = kind.verb → "method" ∉ m.keys →
      (mappingVerbs.lookup m.kind.name).map (mappingVerb (String.ofList (m.chars p))) =
        some m.verb := by
    intro kind hm hverb hkeys
    have hnone : firstText? verbPattern (String.ofList (m.chars p)) = none := by
      refine firstText?_eq_none (attribute_misses_mapping methodKey_worded m p ?_)
        ((attribute_wordsBefore methodKey_worded).eq_nil_at_end _)
      intro w hw hmem
      rw [List.mem_singleton.1 hmem] at hw
      exact hkeys hw
    obtain ⟨verb, hlookup, hdefault⟩ := kind.lookup_name
    rw [hm, hlookup, hverb, ← hdefault]
    cases verb with
    | none => simp [mappingVerb, hnone]
    | some verb => rfl
  cases m with
  | positional kind => exact hkind kind rfl rfl (by simp [Mapping.keys])
  | named kind key => exact hkind kind rfl rfl (by cases key <;> simp [Mapping.keys, PathKey.name])
  | verbed key verb =>
    have hlookup : mappingVerbs.lookup MappingKind.request.name = some none := rfl
    simp [Mapping.kind, Mapping.verb, hlookup, mappingVerb, verbPattern_eq, verb.upper_text]

/-- No mapping names a media type. -/
theorem mediaPattern_chars (m : Mapping) (p : Path) {key : String}
    (hkey : key ∈ ["produces", "consumes"]) :
    firstText? (mediaPattern key) (String.ofList (m.chars p)) = none := by
  have hworded : ∀ s ∈ [key], Worded s.toList := by
    intro s hs
    rw [List.mem_singleton.1 hs]
    exact (by decide : ∀ k ∈ ["produces", "consumes"], Worded k.toList) key hkey
  have hkeys : ∀ w ∈ m.keys, w ∉ ["produces", "consumes"] := by
    cases m with
    | positional kind => simp [Mapping.keys]
    | named kind key => cases key <;> simp [Mapping.keys, PathKey.name]
    | verbed key verb => cases key <;> simp [Mapping.keys, PathKey.name]
  refine firstText?_eq_none (attribute_misses_mapping hworded m p ?_)
    ((attribute_wordsBefore hworded).eq_nil_at_end _)
  intro w hw hmem
  rw [List.mem_singleton.1 hmem] at hw
  exact hkeys key hw hkey

/-! ### Whole annotations -/

theorem Mapping.argumentText (m : Mapping) (p : Path) : ArgumentText (m.arguments p) := by
  have hword : ∀ {w : List Char}, Worded w → ∀ ch ∈ w, ch ∉ ['(', ')', '"', '\''] := by
    intro w hw ch hch hmem
    have hall : ∀ x ∈ ['(', ')', '"', '\''], Text.isWord x = false := by decide
    have hisword := hw.2 ch hch
    rw [hall ch hmem] at hisword
    simp at hisword
  have hquote : '"' ∉ p.chars := fun h => absurd (p.mem_chars h) (by decide)
  have hquoted : ∀ {t : List Char}, ArgumentText t → ArgumentText (quoted p.chars ++ t) := by
    intro t ht
    rw [quoted, List.cons_append, List.append_assoc]
    exact .literal hquote ht
  cases m with
  | positional kind => simpa [Mapping.arguments] using hquoted .nil
  | named kind key =>
    refine argumentText_append (hword key.worded) (argumentText_append (by decide) ?_)
    simpa using hquoted .nil
  | verbed key verb =>
    refine argumentText_append (hword key.worded) (argumentText_append (by decide) (hquoted ?_))
    refine argumentText_append (by decide) ?_
    simpa using argumentText_append (hword verb.worded) .nil

theorem Mapping.not_mem_arguments (m : Mapping) (p : Path) {ch : Char}
    (hword : Text.isWord ch = false)
    (hmark : ch ∉ [' ', '=', ',', '"', '/', '.', '-', '{', '}']) : ch ∉ m.arguments p := by
  intro hmem
  rcases m.mem_arguments p hmem with h | h
  · simp [hword] at h
  · exact hmark h

/-- The line of a mapping holds one annotation. -/
theorem splitAnnotations_mapping (m : Mapping) (p : Path) :
    splitAnnotations (m.chars p) = [String.ofList (m.chars p)] := by
  have htoken :=
    prefers_annotationToken m.kind.worded.1 m.kind.worded.dotted (m.argumentText p) [] []
  have hread : annotationToken.Prefers ⟨[], m.chars p ++ []⟩ () ⟨(m.chars p).reverse, []⟩ := by
    simpa [Mapping.chars] using htoken
  have hsplit := splitAnnotations_eq (by simp [Mapping.chars]) hread List.not_mem_nil
  rwa [List.append_nil] at hsplit

theorem marking_mapping (m : Mapping) (p : Path) : Marking (m.chars p) := by
  refine ⟨⟨_, rfl⟩, ?_, ?_⟩
  · have hclose : Text.isBlank ')' = false := by decide
    simpa [Mapping.chars, Stops] using hclose
  · have hname : '\n' ∉ m.kind.name.toList := not_mem_of_worded m.kind.worded (by decide)
    have hargs := m.not_mem_arguments p (show Text.isWord '\n' = false by decide) (by decide)
    simp [Mapping.chars, hname, hargs]

theorem annotationName_mapping (m : Mapping) (p : Path) :
    annotationName (String.ofList (m.chars p)) = m.kind.name := by
  have hname := annotationName_eq m.kind.worded
    (show Stops isDotted ('(' :: (m.arguments p ++ [')'])) from stops_cons (by decide))
  rw [String.ofList_toList] at hname
  exact hname

/-- The endpoint of a method with one mapping. -/
theorem endpointOf?_mapping (m : Mapping) {p : Path} (hne : p.chars ≠ []) (method : Method)
    (base : Option String) :
    endpointOf? method base (String.ofList (m.chars p)) =
      some ⟨m.verb, combinePaths (base.getD "") p.text, none, none,
        some (method.name ++ "() - " ++ method.returnType)⟩ := by
  obtain ⟨verb, hlookup, hverb⟩ := Option.map_eq_some_iff.1 (mappingVerb_chars m p)
  simp only [endpointOf?, annotationName_mapping, hlookup, Option.map_some, hverb,
    mappingPath?_chars m hne, Option.getD_some,
    mediaPattern_chars m p (show "produces" ∈ ["produces", "consumes"] by simp),
    mediaPattern_chars m p (show "consumes" ∈ ["produces", "consumes"] by simp)]

end ClassAtlas.Plain
