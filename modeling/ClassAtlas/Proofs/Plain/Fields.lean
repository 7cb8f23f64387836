import ClassAtlas.Proofs.Plain.Methods

/-! The fields of a plain file: the scan over its lines finds each of them, and nothing else. -/

namespace ClassAtlas.Plain

open Source Pattern

variable {text before rest : List Char}

/-- What stands between a field's indentation and its declaration. -/
def PlainField.marker (f : PlainField) : List Char :=
  if f.isInjected then "@Autowired\n    ".toList else []

theorem PlainField.lines_eq (f : PlainField) :
    f.lines = "    ".toList ++ (f.marker ++ (f.declaration ++ ['\n'])) := by
  unfold PlainField.lines PlainField.marker
  split <;> simp

theorem prefers_field (f : PlainField) (before rest : List Char) :
    ∃ head, fieldPattern.Prefers ⟨' ' :: before, f.marker ++ (f.declaration ++ rest)⟩ head
      ⟨f.declaration.reverse ++ (f.marker.reverse ++ ' ' :: before), rest⟩ ∧
      head.start = ⟨f.marker.reverse ++ ' ' :: before, f.declaration ++ rest⟩ ∧ f.Heads head := by
  unfold PlainField.marker
  split
  · have hstart := f.declaration_starts rest
    obtain ⟨head, ⟨others, hread⟩, hhead⟩ := prefers_declaration f
      (startsFree_space ("@Autowired\n   ".toList.reverse ++ ' ' :: before) (f.declaration ++ rest))
    refine ⟨head, ⟨others, ?_⟩, hhead⟩
    exact (fieldPattern_of_item (prefers_autowired hstart (' ' :: before))).trans hread
  · exact prefers_declaration f (startsFree_space before (f.declaration ++ rest))

/-- The marker of an injected field is read if the window shows it. -/
theorem PlainField.annotationsBefore_eq (f : PlainField) (h : Fenced text) {window : Option Int}
    (hshow : Shows window 15) (after : List Char) :
    annotationsBefore ⟨f.marker.reverse ++ ("    ".toList.reverse ++ text.reverse), after⟩ window =
      f.field.annotations := by
  unfold PlainField.marker PlainField.field
  cases f.isInjected with
  | true =>
    have hmarking : Marking "@Autowired".toList :=
      ⟨⟨_, rfl⟩, stops_cons (by decide), by decide⟩
    have hspaces : ∀ ch ∈ "    ".toList, ch = ' ' := by decide
    have habove := annotationsBefore_marking h hspaces hmarking hspaces hshow after
    have hsplit : splitAnnotations "@Autowired".toList = ["@Autowired"] := by decide
    rw [hsplit] at habove
    simpa using habove
  | false =>
    have habove := annotationsBefore_fenced h (show ∀ ch ∈ "    ".toList, ch = ' ' by decide) after
      window
    simpa using habove

theorem PlainField.inCommentLine_eq (f : PlainField) (h : Fenced text) (after : List Char) :
    inCommentLine ⟨f.marker.reverse ++ ("    ".toList.reverse ++ text.reverse), after⟩ = false := by
  unfold PlainField.marker
  split
  · have hline : ∀ ch ∈ ("@Autowired\n".toList.reverse ++ ("    ".toList.reverse ++
        text.reverse)).head?, ch = '\n' := by simp
    exact inCommentLine_indented hline after
  · exact inCommentLine_indented h.wholeLines.head_reverse after

/-- A field's head outside of all bodies is read as the field. -/
theorem PlainField.fieldOfHead?_eq (f : PlainField) (h : Fenced text) {window : Option Int}
    (hshow : Shows window 15) {bodies : List Span} {after : List Char}
    (hbodies : ∀ s ∈ bodies, text.length + f.lines.length ≤ s.start) {head : FieldHead}
    (hstart : head.start = ⟨f.marker.reverse ++ ("    ".toList.reverse ++ text.reverse), after⟩)
    (hhead : f.Heads head) :
    (fieldOfHead? bodies window head).map (·.field) = some f.field := by
  have hinside : bodies.any (fun s => s.start < head.start.offset && head.start.offset < s.stop) =
      false := by
    rw [List.any_eq_false]
    intro s hs
    have hle := hbodies s hs
    have hoffset : head.start.offset = text.length + (4 + f.marker.length) := by
      simp [hstart, Cursor.offset]
      omega
    have hlines : f.lines.length = f.marker.length + (f.declaration.length + 1) + 4 := by
      simp [f.lines_eq]
    simp only [Bool.and_eq_true, decide_eq_true_eq, not_and]
    omega
  have htype := f.type.text_not_mem statementKeywords_words
  have hname : f.name.text ∉ statementKeywords :=
    f.name.asType.text_not_mem statementKeywords_words
  have hkept : ¬(bodies.any (fun s => s.start < head.start.offset && head.start.offset < s.stop) ||
      statementKeywords.contains head.type.text || statementKeywords.contains head.name.text ||
      inCommentLine head.start) = true := by
    rw [hinside, hhead.type, hhead.name, hstart, f.inCommentLine_eq h]
    simp [htype, hname]
  simp only [fieldOfHead?]
  rw [if_neg hkept, Option.map_some, hhead.type, hhead.name, hhead.visibility,
    hhead.isStatic, hstart, f.annotationsBefore_eq h hshow]
  rfl

/-- The scan for fields finds a field in its lines. -/
theorem finds_field (f : PlainField) (h : Fenced text) {window : Option Int}
    (hshow : Shows window 15) {bodies : List Span}
    (hbodies : ∀ s ∈ bodies, text.length + f.lines.length ≤ s.start) (rest : List Char) :
    Finds fieldPattern (fun m => (fieldOfHead? bodies window m.value).map (·.field)) text.reverse
      f.lines rest [f.field] := by
  obtain ⟨head, hprefers, hstart, hhead⟩ :=
    prefers_field f ("   ".toList.reverse ++ text.reverse) ('\n' :: rest)
  have hfield := f.fieldOfHead?_eq h hshow hbodies hstart hhead
  have hindent : Misses fieldPattern ("    ".toList ++ []) :=
    fieldPattern_leadsOnly.misses_spaces (by decide) misses_nil
  have hline : Misses fieldPattern ['\n'] :=
    fieldPattern_leadsOnly.misses_mark (by decide) (by decide)
  have hne : f.marker ++ f.declaration ≠ [] := by simp [PlainField.declaration]
  have hfound := hprefers.finds (g := fun m => (fieldOfHead? bodies window m.value).map (·.field))
    (f.marker ++ f.declaration) hne (by simp) (by simp)
  rw [hfield] at hfound
  have hall := hindent.finds.append (Finds.append hfound hline.finds)
  rw [f.lines_eq]
  simpa using hall

theorem finds_fields (fields : List PlainField) (h : Fenced text) {window : Option Int}
    (hshow : Shows window 15) {bodies : List Span}
    (hbodies : ∀ s ∈ bodies, text.length + (fields.flatMap PlainField.lines).length ≤ s.start)
    (rest : List Char) :
    Finds fieldPattern (fun m => (fieldOfHead? bodies window m.value).map (·.field)) text.reverse
      (fields.flatMap PlainField.lines) rest (fields.map PlainField.field) := by
  induction fields generalizing text with
  | nil => exact misses_nil.finds
  | cons f fields ih =>
    rw [List.flatMap_cons] at hbodies ⊢
    have hfirst : ∀ s ∈ bodies, text.length + f.lines.length ≤ s.start := by
      intro s hs
      have hle := hbodies s hs
      rw [List.length_append] at hle
      omega
    have hlater : ∀ s ∈ bodies, (text ++ f.lines).length +
        (fields.flatMap PlainField.lines).length ≤ s.start := by
      intro s hs
      have hle := hbodies s hs
      rw [List.length_append] at hle ⊢
      omega
    have hrest := ih (f.fenced h.wholeLines) hlater
    rw [List.reverse_append] at hrest
    exact (finds_field f h hshow hfirst _).append hrest

/-! ### The header -/

/-- A package of one name looks like a field, but its type is a statement's word. -/
theorem finds_singlePackage (n : Name) (bodies : List Span) (window : Option Int)
    (rest : List Char) :
    Finds fieldPattern (fun m => (fieldOfHead? bodies window m.value).map (·.field)) []
      ("package".toList ++ ' ' :: (n.chars ++ [';'])) rest [] := by
  have hfree : StartsFree ⟨[], "package".toList ++ ' ' :: (n.chars ++ ';' :: rest)⟩ := by
    simp [StartsFree]
  have hmodifiers : ∀ s ∈ ["transient", "volatile"], Worded s.toList := by decide
  have hpackage : Worded "package".toList := by decide
  obtain ⟨visibility, hhead, _⟩ := prefers_memberHead hmodifiers ⟨none, false⟩ hpackage
    (by decide) (stops_cons (by decide)) hfree
  have hno : (⟨none, false⟩ : Modifiers).chars = [] := rfl
  rw [hno, List.nil_append, List.reverse_nil, List.nil_append] at hhead
  obtain ⟨head, hprefers, _, htype, _⟩ := prefers_fieldPattern hhead
    (prefers_fieldType_word hpackage [] _)
  have hnone : (fieldOfHead? bodies window head).map (·.field) = none := by
    have hkeyword : "package" ∈ statementKeywords := by decide
    rw [String.ofList_toList] at htype
    simp [fieldOfHead?, htype, hkeyword]
  have hfound := hprefers.finds (g := fun m => (fieldOfHead? bodies window m.value).map (·.field))
    ("package".toList ++ ' ' :: (n.chars ++ [';'])) (by simp) (by simp) (by simp)
  rw [hnone] at hfound
  exact hfound

/-- The package's line declares no field. -/
theorem finds_packageLine (u : PlainUnit) (bodies : List Span) (window : Option Int)
    (rest : List Char) :
    Finds fieldPattern (fun m => (fieldOfHead? bodies window m.value).map (·.field)) []
      u.packageLine rest [] := by
  have hline : Misses fieldPattern ['\n'] :=
    fieldPattern_leadsOnly.misses_mark (by decide) (by decide)
  unfold PlainUnit.packageLine
  split
  · next d _ =>
    obtain ⟨n, tail⟩ := d
    rcases List.eq_nil_or_concat tail with rfl | ⟨init, last, rfl⟩
    · have hall := (finds_singlePackage n bodies window (['\n'] ++ rest)).append hline.finds
      have htext : "package ".toList ++ (DottedName.chars ⟨n, []⟩ ++ [';', '\n']) =
          "package".toList ++ ' ' :: (n.chars ++ [';']) ++ ['\n'] := by
        simp [DottedName.chars, joined]
      rw [htext]
      exact hall
    · have hchars : DottedName.chars ⟨n, init.concat last⟩ =
          QualifiedName.chars ⟨⟨n, init⟩, last⟩ := by
        simp [DottedName.chars, QualifiedName.chars, joined]
      rw [hchars]
      refine Misses.finds ?_
      exact misses_qualified fieldPattern_leadsOnly semicolon_proper (by decide) _ (by decide)
        (field_misses_name last hline)
  · exact misses_nil.finds

/-- Up to its class line a plain file has no field. -/
theorem finds_classLine (u : PlainUnit) (bodies : List Span) (window : Option Int)
    (rest : List Char) :
    Finds fieldPattern (fun m => (fieldOfHead? bodies window m.value).map (·.field)) []
      (u.header ++ u.classLine) rest [] := by
  have hlines : Misses fieldPattern (u.imports.flatMap Import.line ++ u.classLine) :=
    (Misses.flatMap fun i _ => field_misses_import i).append
      (member_misses_classLine fieldPattern_leadsOnly semicolon_proper (by decide) (by decide) u)
  have hall := (finds_packageLine u bodies window
    (u.imports.flatMap Import.line ++ u.classLine ++ rest)).append hlines.finds
  rw [PlainUnit.header, List.append_assoc]
  exact hall

/-- The fields of a plain file are read, if the window shows the marker above a field. -/
theorem fields_text (u : PlainUnit) {window : Option Int} (hshow : Shows window 15) :
    Source.fields u.text ((located u.preamble.length u.methods).map (·.body)) window =
      u.fields.map PlainField.field := by
  have hmark : ∀ {x rest}, Text.isWord x = false → x ≠ '@' → Misses fieldPattern rest →
      Misses fieldPattern (x :: rest) :=
    fun hx hat hrest => (fieldPattern_leadsOnly.misses_mark hx hat).cons hrest
  have hbodies : ∀ s ∈ (located u.preamble.length u.methods).map (·.body),
      (u.header ++ u.classLine).length + (u.fields.flatMap PlainField.lines).length ≤ s.start := by
    intro s hs
    obtain ⟨m, hm, rfl⟩ := List.mem_map.1 hs
    rw [← List.length_append]
    exact le_body_located hm
  have hbehind : Misses fieldPattern (u.methods.flatMap PlainMethod.lines ++ ['}', '\n']) :=
    (Misses.flatMap fun m _ => field_misses_method m).append
      (hmark (by decide) (by decide) (hmark (by decide) (by decide) misses_nil))
  generalize (located u.preamble.length u.methods).map (·.body) = bodies at hbodies ⊢
  have hfields := finds_fields u.fields (u.fenced_classLine (wholeLines_header u)) hshow hbodies
    (u.methods.flatMap PlainMethod.lines ++ ['}', '\n'] ++ [])
  rw [← List.append_nil (u.header ++ u.classLine).reverse] at hfields
  have hall := (finds_classLine u bodies window _).append (Finds.append hfields hbehind.finds)
  have hfound :=
    hall.matchesIn (fieldPattern_leadsOnly.eq_nil (by simp) (not_leads_of_stops stops_nil))
  have htext : u.text = u.header ++ u.classLine ++ (u.fields.flatMap PlainField.lines ++
      (u.methods.flatMap PlainMethod.lines ++ ['}', '\n'])) := by
    simp only [PlainUnit.text, PlainUnit.members, List.append_assoc]
  rw [Source.fields, locatedFields, List.map_filterMap, htext, hfound]
  simp

end ClassAtlas.Plain
