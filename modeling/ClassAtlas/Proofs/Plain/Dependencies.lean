import ClassAtlas.Proofs.Plain.Fields
import ClassAtlas.Source.Dependencies

/-! The names that a plain file depends on: the marker of injected fields, the names in its types
and its imports. -/

namespace ClassAtlas.Plain

open Source Pattern

variable {α β : Type} {p : Pattern α} {before rest : List Char}

/-! ### Patterns that start with an annotation -/

def AtOnly (p : Pattern α) : Prop := ∀ c, (∀ rest, c.after ≠ '@' :: rest) → p c = []

theorem atOnly_bind {f : Unit → Pattern α} : AtOnly (lit "@" >>= f) := by
  intro c hc
  refine bind_eq_nil (lit_eq_nil ?_)
  rintro ⟨rest, hrest⟩
  exact hc rest hrest.symm

theorem AtOnly.misses (hp : AtOnly p) {seg : List Char} (h : '@' ∉ seg) : Misses p seg := by
  refine misses_of_forall_mem fun ch hch before rest => hp _ ?_
  intro rest' heq
  obtain ⟨rfl, _⟩ := List.cons.inj heq
  exact h hch

theorem header_not_mem (u : PlainUnit) : '@' ∉ u.header := by
  have hdotted : ∀ {s : List Char}, (∀ ch ∈ s, isDotted ch = true) → '@' ∉ s :=
    fun h hmem => absurd (h _ hmem) (by decide)
  have hpackage : '@' ∉ u.packageLine := by
    unfold PlainUnit.packageLine
    split
    · next d _ => simp [hdotted d.dotted]
    · simp
  have himport : ∀ i : Import, '@' ∉ i.line := by
    intro i
    have hname := hdotted i.name.dotted
    unfold Import.line Import.specifier
    split
    · simp [hname]
    · simp [hname]
    · simp [hname]
  intro hmem
  rcases List.mem_append.1 hmem with hmem | hmem
  · exact hpackage hmem
  · obtain ⟨i, _, hmem⟩ := List.mem_flatMap.1 hmem
    exact himport i hmem

theorem classLine_not_mem (u : PlainUnit) : '@' ∉ u.classLine := by
  obtain ⟨line, hline, heq⟩ := u.classLine_inline
  rw [heq]
  simp [not_mem_of_inline hline (show isInline '@' = false by decide)]

theorem method_not_mem (m : PlainMethod) : '@' ∉ m.lines := by
  have hat : isInline '@' = false := by decide
  have hmodifiers := not_mem_of_inline m.modifiers.inline hat
  have htype := not_mem_of_inline m.returnType.inline hat
  have hname : '@' ∉ m.name.chars := m.name.not_mem (by decide)
  have hparams := not_mem_of_inline (parameters_inline m.parameters) hat
  have hbody : '@' ∉ m.body := fun h => absurd (m.mem_body h) (by decide)
  unfold PlainMethod.lines PlainMethod.signature
  simp [hmodifiers, htype, hname, hparams, hbody]

/-- In a plain file the scan stops only at the markers of injected fields. -/
theorem AtOnly.matchesIn_text (hp : AtOnly p) {g : Match α → Option β} {found : PlainField → List β}
    {u : PlainUnit}
    (hfield : ∀ f ∈ u.fields, f.isInjected = true → ∀ before rest,
      Finds p g before ('@' :: ("Autowired\n    ".toList ++ f.declaration)) rest (found f)) :
    (p.matchesIn u.text).filterMap g =
      u.fields.flatMap fun f => if f.isInjected then found f else [] := by
  have hlines : ∀ f ∈ u.fields, ∀ before rest, True →
      Finds p g before f.lines rest (if f.isInjected then found f else []) := by
    intro f hf before rest _
    have hdeclaration : '@' ∉ f.declaration := not_mem_of_inline f.inline (by decide)
    cases hinjected : f.isInjected with
    | true =>
      have htext : f.lines = "    ".toList ++
          (('@' :: ("Autowired\n    ".toList ++ f.declaration)) ++ ['\n']) := by
        simp [f.lines_eq, PlainField.marker, hinjected]
      have hindent : Misses p "    ".toList := hp.misses (by decide)
      have hline : Misses p ['\n'] := hp.misses (by decide)
      have hmarker := hfield f hf hinjected ("    ".toList.reverse ++ before) (['\n'] ++ rest)
      have hall := Finds.append hindent.finds (Finds.append hmarker hline.finds)
      rw [htext]
      simpa only [List.nil_append, List.append_nil, if_true] using hall
    | false =>
      have htext : f.lines = "    ".toList ++ (f.declaration ++ ['\n']) := by
        simp [f.lines_eq, PlainField.marker, hinjected]
      have hall : Misses p ("    ".toList ++ (f.declaration ++ ['\n'])) :=
        hp.misses (by simp [hdeclaration])
      rw [htext]
      exact hall.finds
  have hfields := Finds.flatMap (fun _ => True) hlines (fun _ _ _ _ => trivial)
    ((u.header ++ u.classLine).reverse ++ [])
    (u.methods.flatMap PlainMethod.lines ++ ['}', '\n'] ++ []) trivial
  have hbefore : Misses p (u.header ++ u.classLine) :=
    hp.misses (by simp [header_not_mem, classLine_not_mem])
  have hbehind : Misses p (u.methods.flatMap PlainMethod.lines ++ ['}', '\n']) := by
    refine hp.misses ?_
    simp [List.mem_flatMap, method_not_mem]
  have hall := hbefore.finds.append (Finds.append hfields hbehind.finds)
  have hfound := hall.matchesIn (hp _ (by simp))
  have htext : u.text = u.header ++ u.classLine ++ (u.fields.flatMap PlainField.lines ++
      (u.methods.flatMap PlainMethod.lines ++ ['}', '\n'])) := by
    simp only [PlainUnit.text, PlainUnit.members, List.append_assoc]
  rw [htext, hfound]
  simp

/-! ### Markers -/

theorem occurs_iff {text : List Char} : p.occurs text = true ↔ p.matchesIn text ≠ [] := by
  rw [occurs, search_eq_head?]
  cases p.matchesIn text <;> simp

theorem boundary_behind_autowired (before rest : List Char) :
    boundary ⟨"Autowired".toList.reverse ++ before, '\n' :: rest⟩ =
      [((), ⟨"Autowired".toList.reverse ++ before, '\n' :: rest⟩)] := by
  refine boundary_at_end ?_ (by decide : Text.isWord '\n' = false)
  have hword : Text.isWord 'd' = true := by decide
  simpa [startsWord] using hword

theorem finds_autowired (f : PlainField) (before rest : List Char) :
    Finds (markerPattern "Autowired") (fun _ => some ()) before
      ('@' :: ("Autowired\n    ".toList ++ f.declaration)) rest [()] := by
  have hdeclaration : '@' ∉ f.declaration := not_mem_of_inline f.inline (by decide)
  have hbehind : Misses (markerPattern "Autowired") ('\n' :: ("    ".toList ++ f.declaration)) :=
    AtOnly.misses atOnly_bind (by simp [hdeclaration])
  have hprefers : (markerPattern "Autowired").Prefers
      ⟨before, '@' :: ("Autowired".toList ++ '\n' :: ("    ".toList ++ f.declaration ++ rest))⟩ ()
      ⟨"Autowired".toList.reverse ++ '@' :: before,
        '\n' :: ("    ".toList ++ f.declaration ++ rest)⟩ := by
    refine Prefers.bind (.of_eq (lit_append "@" before _)) ?_
    refine Prefers.bind (.of_eq (lit_append "Autowired" _ _)) ?_
    exact .of_eq (boundary_behind_autowired _ _)
  have hfound :=
    hprefers.finds (g := fun _ => some ()) ('@' :: "Autowired".toList) (by simp) (by simp) (by simp)
  have hall := Finds.append hfound hbehind.finds
  simpa using hall

theorem misses_other_marker {marker : String} (h : ∃ ch rest, marker.toList = ch :: rest ∧ ch ≠ 'A')
    (f : PlainField) :
    Misses (markerPattern marker) ('@' :: ("Autowired\n    ".toList ++ f.declaration)) := by
  have hdeclaration : '@' ∉ f.declaration := not_mem_of_inline f.inline (by decide)
  refine Misses.cons_of_forall (fun before rest => ?_)
    (AtOnly.misses atOnly_bind (by simp [hdeclaration]))
  have hat : lit "@" ⟨before, '@' :: ("Autowired\n    ".toList ++ f.declaration ++ rest)⟩ =
      [((), ⟨'@' :: before, "Autowired\n    ".toList ++ f.declaration ++ rest⟩)] :=
    lit_append "@" before _
  rw [markerPattern, bind_eq_of_single hat]
  refine bind_eq_nil (lit_eq_nil ?_)
  obtain ⟨ch, more, hmarker, hch⟩ := h
  rw [hmarker]
  simp [hch]

/-- The only framework marker in a plain file is that of its injected fields. -/
theorem marker_occurs_iff (u : PlainUnit) {marker : String} (h : marker ∈ frameworkMarkers) :
    (markerPattern marker).occurs u.text = true ↔
      marker = "Autowired" ∧ u.fields.any (·.isInjected) = true := by
  have hothers : ∀ m ∈ frameworkMarkers, m ≠ "Autowired" →
      ∃ ch rest, m.toList = ch :: rest ∧ ch ≠ 'A' := by
    intro m hm hne
    simp only [frameworkMarkers, List.mem_cons, List.not_mem_nil, or_false] at hm
    rcases hm with rfl | rfl | rfl | rfl | rfl | rfl | rfl | rfl
    · exact absurd rfl hne
    all_goals exact ⟨_, _, rfl, by decide⟩
  rw [occurs_iff, Ne, ← List.map_eq_nil_iff (f := fun _ => ()), ← List.filterMap_eq_map']
  by_cases hmarker : marker = "Autowired"
  · subst hmarker
    have hall := AtOnly.matchesIn_text (p := markerPattern "Autowired") (u := u) atOnly_bind
      fun f _ _ before rest => finds_autowired f before rest
    rw [hall, List.flatMap_eq_nil_iff]
    simp
  · have hall := AtOnly.matchesIn_text (p := markerPattern marker) (u := u) atOnly_bind
      fun f _ _ before rest => (misses_other_marker (hothers marker h hmarker) f).finds
        (f := fun _ => some ())
    rw [hall, List.flatMap_eq_nil_iff]
    simp [hmarker]

/-! ### Injected types -/

theorem PlainField.injected_modifiers (f : PlainField) (h : f.isInjected = true) :
    f.modifiers.chars = f.modifiers.visibilityText := by
  have hkind : f.kind = .injected := by simpa [PlainField.isInjected] using h
  simp [Modifiers.chars, Modifiers.staticText, PlainField.modifiers, hkind]

theorem prefers_injectionVisibility (m : Modifiers) (t : TypeName) (hrest : Stops Text.isWord rest)
    (before : List Char) :
    (maybe (do oneOf ["private", "public", "protected"]; blanks1)).Prefers
      ⟨before, m.visibilityText ++ (t.chars ++ rest)⟩ ()
      ⟨m.visibilityText.reverse ++ before, t.chars ++ rest⟩ := by
  have hnames : ∀ s ∈ ["private", "public", "protected"], Worded s.toList := by decide
  unfold Modifiers.visibilityText
  cases m.visibility with
  | none =>
    have hwords : ∀ s ∈ ["private", "public", "protected"],
        s ∈ declarationWords := by decide +kernel
    refine .of_eq (maybe_eq_single (bind_eq_nil_of_forall fun r hr => ?_))
    exact blanks1_behind_oneOf hnames t.worded hrest (fun s hs => t.chars_ne (hwords s hs)) r hr
  | some v =>
    have hmem : ∀ v ∈ visibilities, v ∈ ["private", "public", "protected"] := by decide
    have hclear : ∀ v ∈ visibilities, ∀ s ∈ ["private", "public", "protected"],
        s.toList <+: v.toList → s = v := by decide
    have hstops : Stops Text.isWord (' ' :: (t.chars ++ rest)) := stops_cons (by decide)
    have hread := prefers_oneOf (hmem v.val v.property) hnames (hclear v.val v.property)
        hstops before
    have hgap : blanks1 ⟨v.val.toList.reverse ++ before, [' '] ++ (t.chars ++ rest)⟩ = _ :=
      run1_append (by simp) (by decide) (stops_blank_of_head (t.worded.head rest))
    have h : (maybe (do oneOf ["private", "public", "protected"]; blanks1)).Prefers
        ⟨before, v.val.toList ++ ' ' :: (t.chars ++ rest)⟩ ()
        ⟨' ' :: (v.val.toList.reverse ++ before), t.chars ++ rest⟩ :=
      Prefers.maybe (Prefers.bind hread (.of_eq hgap))
    simpa using h

/-- The type that is injected is the outer name of the field's type. -/
theorem prefers_injection (m : Modifiers) (t : TypeName) (hrest : Stops Text.isWord rest)
    (before : List Char) :
    ∃ e, injectionPattern.Prefers ⟨before, '@' :: ("Autowired".toList ++ '\n' ::
        ("    ".toList ++ (m.visibilityText ++ (t.chars ++ rest))))⟩ e
      ⟨t.chars.reverse ++ (m.visibilityText.reverse ++ ("    ".toList.reverse ++ '\n' ::
        ("Autowired".toList.reverse ++ '@' :: before))), rest⟩ ∧ e.text = t.text := by
  have hmarker : ∀ s ∈ ["Autowired", "Inject", "Resource"], Worded s.toList := by decide
  have hclear : ∀ s ∈ ["Autowired", "Inject", "Resource"], s.toList <+: "Autowired".toList →
      s = "Autowired" := by decide
  have hfinal : "final" ∈ declarationWords := by decide +kernel
  have hline : Stops Text.isWord
      ('\n' :: ("    ".toList ++ (m.visibilityText ++ (t.chars ++ rest)))) :=
    stops_cons (by decide)
  have hread := prefers_oneOf (by simp) hmarker hclear hline ('@' :: before)
  have hindent : ∀ ch ∈ '\n' :: "    ".toList, Text.isBlank ch = true := by decide
  have hstart : Stops Text.isBlank (m.visibilityText ++ (t.chars ++ rest)) :=
    stops_blank_of_head (m.visibilityText_starts (t.worded.head rest))
  have hgap : ∀ b,
      blanks ⟨b, ('\n' :: "    ".toList) ++ (m.visibilityText ++ (t.chars ++ rest))⟩ = _ :=
    fun b => run_append hindent hstart
  have hplain : ∀ b, maybe (do lit "final"; blanks1) ⟨b, t.chars ++ rest⟩ =
      [((), ⟨b, t.chars ++ rest⟩)] := by
    intro b
    refine maybe_eq_single (bind_eq_nil_of_forall fun r hr => run1_eq_nil ?_)
    exact stops_behind_keyword (by decide) t.worded.2 hrest (t.chars_ne hfinal) (mem_lit hr)
  refine ⟨_, Prefers.bind (.of_eq (lit_append "@" before _)) <| Prefers.bind hread <|
    Prefers.bind (.of_eq (boundary_behind_autowired _ _)) <| Prefers.bind (.of_eq (hgap _)) <|
    Prefers.bind (prefers_injectionVisibility m t hrest _) <| Prefers.bind (.of_eq (hplain _)) <|
    (Prefers.of_eq (t.word_eq hrest _)).captured, ?_⟩
  exact Excerpt.text_append _ _ _ _

theorem finds_injection {f : PlainField} (h : f.isInjected = true) (before rest : List Char) :
    Finds injectionPattern (fun m => some m.value.text) before
      ('@' :: ("Autowired\n    ".toList ++ f.declaration)) rest [f.type.base.text] := by
  have hstops := f.type.suffix.stops (show Text.isWord ' ' = false by decide)
    (f.name.chars ++ ';' :: rest)
  obtain ⟨e, hprefers, htext⟩ := prefers_injection f.modifiers f.type.base hstops before
  have hfound := hprefers.finds (g := fun m => some m.value.text)
    ('@' :: ("Autowired\n    ".toList ++ (f.modifiers.visibilityText ++ f.type.base.chars)))
    (by simp) (by simp) (by simp)
  have hbehind :
      Misses injectionPattern (f.type.suffix.chars ++ ' ' :: (f.name.chars ++ [';'])) := by
    refine AtOnly.misses atOnly_bind ?_
    have hdeclaration : '@' ∉ f.declaration := not_mem_of_inline f.inline (by decide)
    intro hmem
    refine hdeclaration ?_
    rw [PlainField.declaration, PlainType.chars, List.append_assoc]
    exact List.mem_append_right _ (List.mem_append_right _ hmem)
  have hsplit : f.type.suffix.chars ++ ' ' :: (f.name.chars ++ ';' :: rest) =
      (f.type.suffix.chars ++ ' ' :: (f.name.chars ++ [';'])) ++ rest := by simp
  simp only [htext] at hfound
  rw [hsplit] at hfound
  have hall := Finds.append hfound hbehind.finds
  have hseg : '@' :: ("Autowired\n    ".toList ++ f.declaration) =
      '@' :: ("Autowired\n    ".toList ++ (f.modifiers.visibilityText ++ f.type.base.chars)) ++
        (f.type.suffix.chars ++ ' ' :: (f.name.chars ++ [';'])) := by
    simp [PlainField.declaration, PlainType.chars, f.injected_modifiers h]
  rw [hseg]
  exact hall

theorem injectedTypes_text (u : PlainUnit) :
    injectedTypes u.text = (u.fields.flatMap fun f =>
      if f.isInjected then [f.type.base.text] else []).filter
        fun name => !primitiveTypes.contains name := by
  have hall := AtOnly.matchesIn_text (u := u) (p := injectionPattern) atOnly_bind
    fun f _ h before rest => finds_injection h before rest
  rw [List.filterMap_eq_map'] at hall
  rw [injectedTypes, hall]

/-! ### Names in types -/

theorem finds_typeName (t : TypeName) (hrest : Stops Text.isWord rest) (before : List Char) :
    Finds typeNamePattern (fun m => some m.text) before t.chars rest [t.text] := by
  obtain ⟨ch, more, heq, halpha, hmore⟩ := t.starts
  have hstart : isNameStart ch = true := by simp [isNameStart, halpha]
  have hrun : run Text.isWord ⟨ch :: before, more ++ rest⟩ = _ :=
    run_append (fun x hx => isWord_of_isAlphanum (hmore x hx)) hrest
  have hprefers : typeNamePattern.Prefers ⟨before, t.chars ++ rest⟩ ()
      ⟨t.chars.reverse ++ before, rest⟩ := by
    have h : typeNamePattern.Prefers ⟨before, ch :: (more ++ rest)⟩ ()
        ⟨more.reverse ++ ch :: before, rest⟩ :=
      Prefers.bind (.of_eq (one_cons hstart)) (.of_eq hrun)
    simpa [heq] using h
  have hfound := hprefers.finds (g := fun m => some m.text) t.chars t.worded.1 rfl rfl
  simp only [Excerpt.text_append] at hfound
  exact hfound

theorem typeName_misses {s : List Char} (h : ∀ ch ∈ s, isNameStart ch = false) :
    Misses typeNamePattern s :=
  misses_of_forall_mem fun ch hch _ _ =>
    bind_eq_nil (one_eq_nil (stops_cons (h ch hch)))

/-- The names in the text of a type are those of its parts. -/
theorem typeNames_eq (t : PlainType) :
    typeNames t.chars = (t.names.map TypeName.text).filter
      fun name => !primitiveTypes.contains name := by
  have hfound : Finds typeNamePattern (fun m => some m.text) [] t.chars []
      (t.names.map TypeName.text) := by
    obtain ⟨base, suffix⟩ := t
    cases suffix with
    | none =>
      have h := finds_typeName base stops_nil []
      simpa [PlainType.chars, Suffix.chars, PlainType.names] using h
    | argument type =>
      have hopen : Misses typeNamePattern ['<'] := typeName_misses (by decide)
      have hclose : Misses typeNamePattern ['>'] := typeName_misses (by decide)
      have hbase : Stops Text.isWord ((['<'] ++ (type.chars ++ ['>'])) ++ []) :=
        stops_cons (by decide)
      have htype : Stops Text.isWord (['>'] ++ []) := stops_cons (by decide)
      have hargument :=
        (finds_typeName type htype (['<'].reverse ++ (base.chars.reverse ++ []))).append
        hclose.finds
      have h := (finds_typeName base hbase []).append (Finds.append hopen.finds hargument)
      simpa [PlainType.chars, Suffix.chars, PlainType.names] using h
    | brackets =>
      have hbrackets : Misses typeNamePattern ['[', ']'] := typeName_misses (by decide)
      have hbase : Stops Text.isWord (['[', ']'] ++ []) := stops_cons (by decide)
      have h := (finds_typeName base hbase []).append hbrackets.finds
      simpa [PlainType.chars, Suffix.chars, PlainType.names] using h
  have hall := hfound.matchesIn (bind_eq_nil (one_eq_nil stops_nil))
  rw [List.filterMap_eq_map'] at hall
  rw [typeNames, hall]

/-! ### Imports -/

theorem QualifiedName.afterLast (q : QualifiedName) :
    Text.afterLast '.' (String.ofList q.chars) = q.name.text := by
  have hname : ∀ ch ∈ q.name.chars.reverse, (ch != '.') = true := by
    intro ch hch
    rw [bne_iff_ne]
    rintro rfl
    exact q.name.not_mem (by decide) (List.mem_reverse.1 hch)
  rw [Text.afterLast, String.toList_ofList, QualifiedName.chars, List.reverse_append,
    List.reverse_cons, List.append_assoc, List.takeWhile_append_of_pos hname]
  simp [Name.text]

/-- Only an import of a single name lets it be used. -/
theorem importedNames_eq (i : Import) : importedNames (String.ofList i.specifier) = i.uses := by
  obtain ⟨kind, name⟩ := i
  cases kind with
  | single =>
    have hspace : ' ' ∉ name.chars := fun h => absurd (name.dotted _ h) (by decide)
    have hstar : '*' ∉ name.chars := fun h => absurd (name.dotted _ h) (by decide)
    have htext : (String.ofList name.chars).toList = name.chars := String.toList_ofList
    have hstatic : Text.startsWith "static " (String.ofList name.chars) = false := by
      rw [Text.startsWith, htext, ← Bool.not_eq_true, List.isPrefixOf_iff_prefix]
      exact fun h => hspace (h.subset (by simp))
    have hdemand : Text.endsWith ".*" (String.ofList name.chars) = false := by
      rw [Text.endsWith, htext, ← Bool.not_eq_true, List.isSuffixOf_iff_suffix]
      exact fun h => hstar (h.subset (by simp))
    simp [importedNames, Import.specifier, Import.uses, hstatic, hdemand, name.afterLast]
  | onDemand =>
    have htext : (String.ofList (name.chars ++ ['.', '*'])).toList = name.chars ++ ['.', '*'] :=
      String.toList_ofList
    have hdemand : Text.endsWith ".*" (String.ofList (name.chars ++ ['.', '*'])) = true := by
      rw [Text.endsWith, htext, List.isSuffixOf_iff_suffix]
      exact List.suffix_append _ _
    unfold importedNames Import.specifier Import.uses
    rw [if_pos (by rw [hdemand, Bool.or_true])]
  | static =>
    have htext : (String.ofList ("static ".toList ++ name.chars)).toList =
        "static ".toList ++ name.chars := String.toList_ofList
    have hstatic :
        Text.startsWith "static " (String.ofList ("static ".toList ++ name.chars)) = true := by
      rw [Text.startsWith, htext, List.isPrefixOf_iff_prefix]
      exact List.prefix_append _ _
    unfold importedNames Import.specifier Import.uses
    rw [if_pos (by rw [hstatic, Bool.true_or])]

/-! ### All dependencies -/

theorem PlainType.base_mem_names (t : PlainType) : t.base ∈ t.names := by
  unfold PlainType.names
  split <;> simp

theorem PlainType.typeNames_text (t : PlainType) :
    typeNames t.text.toList = (t.names.map TypeName.text).filter
      fun name => !primitiveTypes.contains name := by
  rw [PlainType.text, String.toList_ofList, typeNames_eq]

/-- The names in some types, without the primitive ones. -/
def properNames (types : List PlainType) : List String :=
  ((types.flatMap PlainType.names).map TypeName.text).filter fun name =>
    !primitiveTypes.contains name

theorem flatMap_typeNames_text (types : List PlainType) :
    (types.map PlainType.text).flatMap (fun t => typeNames t.toList) = properNames types := by
  rw [properNames, List.flatMap_map, List.map_flatMap, List.filter_flatMap]
  simp only [PlainType.typeNames_text]

theorem flatMap_typeNames_fields (fields : List PlainField) :
    (fields.map PlainField.field).flatMap (fun f => typeNames f.type.toList) =
      properNames (fields.map (·.type)) := by
  rw [← flatMap_typeNames_text, List.map_map, List.flatMap_map, List.flatMap_map]
  rfl

theorem flatMap_typeNames_methods {methods : List Method} {plain : List PlainMethod}
    (h : methods.map methodTypes = plain.map fun m => m.types.map PlainType.text) :
    methods.flatMap (fun m => (methodTypes m).flatMap fun t => typeNames t.toList) =
      properNames (plain.flatMap PlainMethod.types) := by
  have hmap : methods.flatMap (fun m => (methodTypes m).flatMap fun t => typeNames t.toList) =
      (methods.map methodTypes).flatMap fun ts => ts.flatMap fun t => typeNames t.toList := by
    rw [List.flatMap_map]
  rw [hmap, h, List.flatMap_map, properNames, List.flatMap_assoc, List.map_flatMap,
    List.filter_flatMap]
  simp only [flatMap_typeNames_text]
  rfl

/-- The only marker in a plain file is that of an injected field. -/
theorem mem_markers_text (u : PlainUnit) {name : String} :
    name ∈ frameworkMarkers.filter (fun marker => (markerPattern marker).occurs u.text) ↔
      name ∈ if u.fields.any (·.isInjected) then ["Autowired"] else [] := by
  have hknown : "Autowired" ∈ frameworkMarkers := by decide
  rw [List.mem_filter]
  constructor
  · rintro ⟨hmem, hoccurs⟩
    obtain ⟨rfl, hany⟩ := (marker_occurs_iff u hmem).1 hoccurs
    rw [if_pos hany]
    exact List.mem_singleton_self _
  · intro h
    split at h
    · next hany =>
      obtain rfl := List.mem_singleton.1 h
      exact ⟨hknown, (marker_occurs_iff u hknown).2 ⟨rfl, hany⟩⟩
    · exact absurd h List.not_mem_nil

/-- An injected type is the type of a field. -/
theorem mem_properNames_of_injected {u : PlainUnit} {name : String}
    (h : name ∈ injectedTypes u.text) : name ∈ properNames (u.fields.map (·.type)) := by
  rw [injectedTypes_text, List.mem_filter, List.mem_flatMap] at h
  obtain ⟨⟨f, hf, hname⟩, hprimitive⟩ := h
  split at hname
  · obtain rfl := List.mem_singleton.1 hname
    refine List.mem_filter.2 ⟨List.mem_map_of_mem (List.mem_flatMap.2 ⟨f.type, ?_, ?_⟩), hprimitive⟩
    · exact List.mem_map_of_mem hf
    · exact f.type.base_mem_names
  · exact absurd hname List.not_mem_nil

/-- The dependencies of a plain file, whatever endpoints its methods have got. -/
theorem dependencies_text (u : PlainUnit) {methods : List Method}
    (hmethods : methods.map methodTypes = u.methods.map fun m => m.types.map PlainType.text) :
    dependencies u.text (u.imports.map fun i => String.ofList i.specifier)
      (u.fields.map PlainField.field) methods = u.dependencies := by
  have himports : (u.imports.map fun i => String.ofList i.specifier).flatMap importedNames =
      u.imports.flatMap Import.uses := by
    rw [List.flatMap_map]
    simp only [importedNames_eq]
  have htypes : properNames u.types = properNames (u.fields.map (·.type)) ++
      properNames (u.methods.flatMap PlainMethod.types) := by
    simp only [properNames, PlainUnit.types, List.flatMap_append, List.map_append,
      List.filter_append]
  refine NameSet.ofList_congr fun name => ?_
  rw [← properNames, htypes, flatMap_typeNames_fields, flatMap_typeNames_methods hmethods, himports]
  simp only [List.mem_append, mem_markers_text u]
  -- the injected types are types of fields, so they add nothing
  have hinjected := @mem_properNames_of_injected u name
  tauto

end ClassAtlas.Plain
