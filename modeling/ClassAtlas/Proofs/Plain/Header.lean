import ClassAtlas.Proofs.Plain.GenericHeader

/-! The header of a plain file is read back: its package, its imports and its class line. -/

namespace ClassAtlas.Plain

open Source Pattern

variable {α : Type} {before rest : List Char}

/-! ### The package -/

theorem prefers_package (d : DottedName) (hb : startsWord before = false) (rest : List Char) :
    packagePattern.Prefers ⟨before, "package".toList ++ ' ' :: (d.chars ++ ';' :: rest)⟩
      ⟨⟨' ' :: ("package".toList.reverse ++ before), d.chars ++ ';' :: rest⟩,
        ⟨d.chars.reverse ++ ' ' :: ("package".toList.reverse ++ before), ';' :: rest⟩⟩
      ⟨';' :: (d.chars.reverse ++ ' ' :: ("package".toList.reverse ++ before)), rest⟩ := by
  refine prefers_keyword (by decide) hb (stops_blank_of_head (d.starts _)) ?_
  have hne : d.chars ≠ [] := by simpa using ne_nil_of_head (d.starts [])
  refine Prefers.bind (Prefers.of_eq (run1_append hne d.dotted (stops_cons (by decide)))).captured
    ?_
  refine Prefers.bind (.of_eq (run_none (stops_cons (by decide)))) ?_
  exact Prefers.bind (.of_eq (lit_append ";" _ rest)) (prefers_pure _ _)

/-- Behind the imports no pattern of the header has a match. -/
theorem header_misses_class {p : Pattern α} (hp : WordsOnly headerWords p) (u : PlainUnit) :
    Misses p (u.classLine ++ (u.members ++ ['}', '\n'])) := by
  refine (header_misses_classLine hp u).append (Misses.append (Misses.append ?_ ?_) ?_)
  · exact Misses.flatMap fun f _ => header_misses_field hp f
  · exact Misses.flatMap fun m _ => header_misses_method hp m
  · exact misses_mark_header hp (by decide) (misses_mark_header hp (by decide) misses_nil)

theorem packagePattern_header : WordsOnly headerWords packagePattern :=
  packagePattern_wordsOnly.mono (by decide)

theorem packageName_text (u : PlainUnit) :
    packageName u.text = u.package.elim "" fun d => String.ofList d.chars := by
  unfold packageName
  cases hpackage : u.package with
  | none =>
    have himports : Misses packagePattern (u.imports.flatMap Import.line) :=
      Misses.flatMap fun i _ => misses_import packagePattern_wordsOnly (by decide) (by decide)
        (by decide) i
    have hall := himports.append (header_misses_class packagePattern_header u)
    have htext : u.text = u.imports.flatMap Import.line ++
        (u.classLine ++ (u.members ++ ['}', '\n'])) := by
      simp [PlainUnit.text, PlainUnit.header, PlainUnit.packageLine, hpackage]
    rw [htext, hall.search_eq_none (packagePattern_wordsOnly.eq_nil_at_end _)]
    rfl
  | some d =>
    have hfirst : startsWord [] = false := rfl
    have hsearch := Prefers.search misses_nil (by simp) (prefers_package d hfirst
      ('\n' :: (u.imports.flatMap Import.line ++ (u.classLine ++ (u.members ++ ['}', '\n'])))))
    have htext : u.text = "package".toList ++ ' ' :: (d.chars ++ ';' :: '\n' ::
        (u.imports.flatMap Import.line ++ (u.classLine ++ (u.members ++ ['}', '\n'])))) := by
      simp [PlainUnit.text, PlainUnit.header, PlainUnit.packageLine, hpackage]
    rw [List.nil_append] at hsearch
    rw [htext, hsearch]
    exact Excerpt.text_append _ _ _ _

/-! ### Imports -/

theorem QualifiedName.starts (q : QualifiedName) (rest : List Char) :
    ∃ ch ∈ (q.chars ++ rest).head?, Text.isWord ch = true := by
  rw [QualifiedName.chars, List.append_assoc]
  exact q.qualifier.starts _

theorem QualifiedName.dotted (q : QualifiedName) : ∀ ch ∈ q.chars, isDotted ch = true := by
  intro ch hch
  rcases List.mem_append.1 hch with hch | hch
  · exact q.qualifier.dotted ch hch
  · rcases List.mem_cons.1 hch with rfl | hch
    · decide
    · exact q.name.dotted ch hch

/-- A qualified name does not start with a keyword. -/
theorem QualifiedName.not_keyword (q : QualifiedName) {k : String} (hk : k ∈ declarationWords)
    (before rest : List Char) :
    (do lit k; blanks1 : Pattern Unit) ⟨before, q.chars ++ rest⟩ = [] := by
  refine bind_eq_nil_of_forall fun r hr => run1_eq_nil ?_
  have hshape : ∃ more, q.chars ++ rest = q.qualifier.head.chars ++ more ∧
      Stops Text.isWord more := by
    rw [QualifiedName.chars, DottedName.chars, List.map_cons, joined, List.append_assoc,
      List.append_assoc]
    refine ⟨_, rfl, ?_⟩
    cases q.qualifier.tail with
    | nil => exact stops_cons (by decide)
    | cons n tail => exact stops_cons (by decide)
  obtain ⟨more, hmore, hstops⟩ := hshape
  have hread := mem_lit hr
  rw [hmore] at hread
  exact stops_behind_keyword (declarationWords_worded k hk) q.qualifier.head.worded.2 hstops
    (q.qualifier.head.asType.chars_ne hk) hread

theorem QualifiedName.ne_nil (q : QualifiedName) : q.chars ≠ [] := by
  simpa using ne_nil_of_head (q.starts [])

/-- Without the keyword of static imports, nothing is read for it. -/
theorem QualifiedName.not_static (q : QualifiedName) (before rest : List Char) :
    maybe (do lit "static"; blanks1) ⟨before, q.chars ++ rest⟩ =
      [((), ⟨before, q.chars ++ rest⟩)] :=
  maybe_eq_single (q.not_keyword (by decide) before rest)

/-- A qualified name is read up to the semicolon. -/
theorem QualifiedName.prefers_specifier (q : QualifiedName) (before rest : List Char) :
    Prefers (do many1 isDotted; maybe (lit ".*") : Pattern Unit)
      ⟨before, q.chars ++ ';' :: rest⟩ () ⟨q.chars.reverse ++ before, ';' :: rest⟩ :=
  Prefers.bind (prefers_many1 q.ne_nil q.dotted (stops_cons (by decide)))
    (.of_eq (maybe_eq_single (lit_eq_nil (by simp))))

/-- Before a star the run takes the dot with it, so the first reading stops there and the second one
reads both. -/
theorem QualifiedName.specifier_onDemand (q : QualifiedName) (before rest : List Char) :
    ∃ others, (do many1 isDotted; maybe (lit ".*") : Pattern Unit)
        ⟨before, q.chars ++ '.' :: '*' :: ';' :: rest⟩ =
      ((), ⟨'.' :: (q.chars.reverse ++ before), '*' :: ';' :: rest⟩) ::
        ((), ⟨'*' :: '.' :: (q.chars.reverse ++ before), ';' :: rest⟩) :: others := by
  have hdot : isDotted '.' = true := by decide
  have hstops : Stops isDotted ('*' :: ';' :: rest) := stops_cons (by decide)
  obtain ⟨others, hmany⟩ : ∃ others, many1 isDotted ⟨before, q.chars ++ '.' :: '*' :: ';' :: rest⟩ =
    _ := many1_eq_cons q.ne_nil q.dotted hdot hstops
  have hfirst : (maybe (lit ".*")) ⟨'.' :: (q.chars.reverse ++ before), '*' :: ';' :: rest⟩ =
      [((), ⟨'.' :: (q.chars.reverse ++ before), '*' :: ';' :: rest⟩)] :=
    maybe_eq_single (lit_eq_nil (by simp))
  have hsecond : (maybe (lit ".*")) ⟨q.chars.reverse ++ before, '.' :: '*' :: ';' :: rest⟩ =
      [((), ⟨'*' :: '.' :: (q.chars.reverse ++ before), ';' :: rest⟩),
        ((), ⟨q.chars.reverse ++ before, '.' :: '*' :: ';' :: rest⟩)] := by
    have hlit : lit ".*" ⟨q.chars.reverse ++ before, ".*".toList ++ ';' :: rest⟩ = _ :=
      lit_append ".*" _ _
    rw [maybe, orElse_apply]
    exact congrArg (· ++ [((), (⟨q.chars.reverse ++ before, '.' :: '*' :: ';' :: rest⟩ : Cursor))])
      hlit
  rw [bind_apply, hmany, List.flatMap_cons, List.flatMap_cons, hfirst, hsecond]
  exact ⟨_, rfl⟩

/-- The specifier is read up to the semicolon. Before that reading there is at most one other, which
stops at the star. -/
theorem importSpecifier_eq (i : Import) (before rest : List Char) :
    ∃ skipped others, importSpecifier ⟨before, i.specifier ++ ';' :: rest⟩ =
      skipped ++ ((), ⟨i.specifier.reverse ++ before, ';' :: rest⟩) :: others ∧
      ∀ r ∈ skipped, ∃ b, r.2 = ⟨b, '*' :: ';' :: rest⟩ := by
  obtain ⟨kind, name⟩ := i
  cases kind with
  | single =>
    have h : importSpecifier.Prefers ⟨before, name.chars ++ ';' :: rest⟩ ()
        ⟨name.chars.reverse ++ before, ';' :: rest⟩ :=
      Prefers.bind (.of_eq (name.not_static _ _)) (name.prefers_specifier before rest)
    obtain ⟨others, h⟩ := h
    exact ⟨[], others, h, by simp⟩
  | onDemand =>
    obtain ⟨others, h⟩ := name.specifier_onDemand before rest
    refine ⟨[((), ⟨'.' :: (name.chars.reverse ++ before), '*' :: ';' :: rest⟩)], others,
      ?_, by simp⟩
    have htext : (⟨.onDemand, name⟩ : Import).specifier ++ ';' :: rest =
        name.chars ++ '.' :: '*' :: ';' :: rest := by simp [Import.specifier]
    rw [htext, importSpecifier, bind_eq_of_single (name.not_static _ _), h]
    simp [Import.specifier]
  | static =>
    have h : importSpecifier.Prefers ⟨before,
        "static".toList ++ ' ' :: (name.chars ++ ';' :: rest)⟩ ()
        ⟨name.chars.reverse ++ ' ' :: ("static".toList.reverse ++ before), ';' :: rest⟩ := by
      have hgap : blanks1 ⟨"static".toList.reverse ++ before,
          [' '] ++ (name.chars ++ ';' :: rest)⟩ = _ :=
        run1_append (by simp) (by decide) (stops_blank_of_head (name.starts _))
      refine Prefers.bind (Prefers.maybe ?_) (name.prefers_specifier _ _)
      exact Prefers.bind (.of_eq (lit_append "static" before _)) (.of_eq hgap)
    obtain ⟨others, h⟩ := h
    refine ⟨[], others, ?_, by simp⟩
    simpa [Import.specifier] using h

/-- The specifier is read as it is written. -/
theorem prefers_import (i : Import) (hb : startsWord before = false) (rest : List Char) :
    importPattern.Prefers ⟨before, "import".toList ++ ' ' :: (i.specifier ++ ';' :: rest)⟩
      ⟨⟨' ' :: ("import".toList.reverse ++ before), i.specifier ++ ';' :: rest⟩,
        ⟨i.specifier.reverse ++ ' ' :: ("import".toList.reverse ++ before), ';' :: rest⟩⟩
      ⟨';' :: (i.specifier.reverse ++ ' ' :: ("import".toList.reverse ++ before)), rest⟩ := by
  have hstart : ∃ ch ∈ (i.specifier ++ ';' :: rest).head?, Text.isWord ch = true := by
    obtain ⟨kind, name⟩ := i
    cases kind with
    | single => exact name.starts _
    | onDemand =>
      rw [Import.specifier, List.append_assoc]
      exact name.starts _
    | static => exact ⟨'s', rfl, by decide⟩
  refine prefers_keyword (by decide) hb (stops_blank_of_head hstart) ?_
  obtain ⟨skipped, others, heq, hskip⟩ :=
    importSpecifier_eq i (' ' :: ("import".toList.reverse ++ before)) rest
  refine Prefers.bind_behind (captured_eq_append heq) ?_ ?_
  · intro r hr
    obtain ⟨r', hr', rfl⟩ := List.mem_map.1 hr
    obtain ⟨b, hb⟩ := hskip r' hr'
    refine (bind_eq_of_single (hb ▸ run_none (stops_cons (by decide)))).trans ?_
    exact bind_eq_nil (lit_eq_nil (by simp [hb]))
  · refine Prefers.bind (.of_eq (run_none (stops_cons (by decide)))) ?_
    exact Prefers.bind (.of_eq (lit_append ";" _ rest)) (prefers_pure _ _)

/-- A specifier has single spaces only, so it stays as it is. -/
theorem Import.replace_specifier (i : Import) :
    blanks1.replace [' '] i.specifier = i.specifier := by
  obtain ⟨kind, name⟩ := i
  have hname : ∀ ch ∈ name.chars, Text.isBlank ch = false :=
    fun ch hch => isBlank_of_isDotted (name.dotted ch hch)
  cases kind with
  | single => exact (blanks1_misses hname).replace _
  | onDemand =>
    refine ((blanks1_misses hname).append (blanks1_misses ?_)).replace _
    decide
  | static =>
    have hstatic : Misses blanks1 "static".toList := blanks1_misses (by decide)
    have hgap : blanks1.Prefers ⟨"static".toList.reverse ++ [], ' ' :: name.chars⟩ ()
        ⟨' ' :: ("static".toList.reverse ++ []), name.chars⟩ := by
      have h : blanks1 ⟨"static".toList.reverse ++ [], [' '] ++ name.chars⟩ = _ :=
        run1_append (by simp) (by decide) (by simpa using stops_blank_of_head (name.starts []))
      exact .of_eq h
    have hrest : replaceFrom blanks1 [' '] 0 ("static".toList.reverse ++ []) (' ' :: name.chars) =
        [' '] ++ replaceFrom blanks1 [' '] 0 ([' '].reverse ++ ("static".toList.reverse ++ []))
          name.chars :=
      hgap.replaceFrom [' '] (by simp) rfl [' ']
    have hend := (blanks1_misses hname).replaceFrom [' ']
      ([' '].reverse ++ ("static".toList.reverse ++ [])) []
    have hall := hstatic.replaceFrom [' '] [] (' ' :: name.chars)
    rw [List.append_nil name.chars] at hend
    rw [hrest, hend, replaceFrom, List.append_nil] at hall
    have htext : (⟨.static, name⟩ : Import).specifier = "static".toList ++ ' ' :: name.chars := by
      simp [Import.specifier]
    rw [htext, Pattern.replace, hall]
    rfl

theorem importPattern_header : WordsOnly headerWords importPattern :=
  importPattern_wordsOnly.mono (by decide)

/-- What an import is read as. -/
def importName (m : Match Excerpt) : String := String.ofList (blanks1.replace [' '] m.value.chars)

theorem finds_import (i : Import) (before rest : List Char) (hb : startsWord before = false) :
    Finds importPattern (some ∘ importName) before i.line rest [String.ofList i.specifier] := by
  have hmatch := (prefers_import i hb ('\n' :: rest)).finds (g := some ∘ importName)
    ("import".toList ++ ' ' :: (i.specifier ++ [';'])) (by simp) (by simp) (by simp)
  have hend : Misses importPattern ['\n'] :=
    misses_mark_header importPattern_header (by decide) misses_nil
  have hline : i.line = "import".toList ++ ' ' :: (i.specifier ++ [';']) ++ ['\n'] := by
    unfold Import.line
    simp
  have h := hmatch.append hend.finds
  rw [Function.comp_apply, importName, Excerpt.chars_append, i.replace_specifier,
    Option.toList_some, List.append_nil] at h
  rw [hline]
  exact h

/-- Every line of the header ends, so no word goes on behind it. -/
theorem startsWord_behind_line (s before : List Char) :
    startsWord ((s ++ ['\n']).reverse ++ before) = false := by
  rw [List.reverse_append]
  exact (by decide : Text.isWord '\n' = false)

theorem startsWord_behind_import (i : Import) (before : List Char) :
    startsWord (i.line.reverse ++ before) = false := by
  have h := startsWord_behind_line ("import ".toList ++ (i.specifier ++ [';'])) before
  unfold Import.line
  simpa only [List.append_assoc, List.cons_append, List.nil_append] using h

theorem startsWord_behind_package (u : PlainUnit) :
    startsWord (u.packageLine.reverse ++ []) = false := by
  unfold PlainUnit.packageLine
  split
  · next d _ =>
    have h := startsWord_behind_line ("package ".toList ++ (d.chars ++ [';'])) []
    simpa only [List.append_assoc, List.cons_append, List.nil_append] using h
  · rfl

theorem importNames_text (u : PlainUnit) :
    importNames u.text = u.imports.map fun i => String.ofList i.specifier := by
  have hpackage : Misses importPattern u.packageLine := by
    unfold PlainUnit.packageLine
    split
    · exact misses_package importPattern_wordsOnly (by decide) (by decide) _
    · exact misses_nil
  have himports := Finds.flatMap (fun b => startsWord b = false)
    (fun i (_ : i ∈ u.imports) before rest hb => finds_import i before rest hb)
    (fun i _ before _ => startsWord_behind_import i before)
    (u.packageLine.reverse ++ []) (u.classLine ++ (u.members ++ ['}', '\n']) ++ [])
    (startsWord_behind_package u)
  have hrest := header_misses_class importPattern_header u
  have hall := (Finds.append hpackage.finds himports).append hrest.finds
  have hnames := hall.matchesIn (importPattern_wordsOnly.eq_nil_at_end _)
  rw [List.filterMap_eq_map, List.nil_append, List.append_nil, ← List.map_eq_flatMap] at hnames
  exact hnames

/-! ### The class that is found -/

/-- A whole line that is neither blank, an annotation nor a comment. -/
def SolidLine (text : List Char) : Prop :=
  ∃ line, text = line ++ ['\n'] ∧ Barrier line ∧ '\n' ∉ line

theorem SolidLine.wholeLines {text : List Char} (h : SolidLine text) : WholeLines text := by
  obtain ⟨line, rfl, _⟩ := h
  exact wholeLines_append_newline line

theorem isDotted_newline {s : List Char} (h : ∀ ch ∈ s, isDotted ch = true) : '\n' ∉ s :=
  fun hmem => absurd (h _ hmem) (by decide)

theorem solidLine_import (i : Import) : SolidLine i.line := by
  refine ⟨"import ".toList ++ (i.specifier ++ [';']), ?_,
    barrier_cons (by decide) (by decide) _, ?_⟩
  · unfold Import.line
    simp only [List.append_assoc, List.cons_append, List.nil_append]
  · have hname := isDotted_newline i.name.dotted
    have hspecifier : '\n' ∉ i.specifier := by
      unfold Import.specifier
      split
      · exact hname
      · simp [hname]
      · simp [hname]
    simp [hspecifier]

theorem solidLine_package (d : DottedName) :
    SolidLine ("package ".toList ++ (d.chars ++ [';', '\n'])) := by
  refine ⟨"package ".toList ++ (d.chars ++ [';']), ?_, barrier_cons (by decide) (by decide) _, ?_⟩
  · simp only [List.append_assoc, List.cons_append, List.nil_append]
  · simp [isDotted_newline d.dotted]

theorem wholeLines_package (u : PlainUnit) : WholeLines u.packageLine := by
  unfold PlainUnit.packageLine
  split
  · exact (solidLine_package _).wholeLines
  · simp [WholeLines]

theorem wholeLines_header (u : PlainUnit) : WholeLines u.header :=
  (wholeLines_package u).append (WholeLines.flatMap fun i _ => (solidLine_import i).wholeLines)

/-- Nothing above the class line is an annotation. -/
theorem annotationsBefore_class (u : PlainUnit) (after : List Char) :
    annotationsBefore ⟨u.header.reverse, after⟩ none = [] := by
  have hsolid : ∀ pre text, WholeLines pre → SolidLine text → annotationsIn (pre ++ text) = [] := by
    rintro pre _ hpre ⟨line, rfl, hline, hno⟩
    exact annotationsIn_barrier hpre hline hno (by simp)
  rw [annotationsBefore, Cursor.lookBack, List.reverse_reverse, PlainUnit.header]
  rcases List.eq_nil_or_concat u.imports with himports | ⟨init, last, himports⟩
  · rw [himports, List.flatMap_nil, List.append_nil]
    unfold PlainUnit.packageLine
    split
    · exact hsolid [] _ (by simp [WholeLines]) (solidLine_package _)
    · rfl
  · have hpre : WholeLines (u.packageLine ++ init.flatMap Import.line) :=
      (wholeLines_package u).append (WholeLines.flatMap fun i _ => (solidLine_import i).wholeLines)
    have h := hsolid _ _ hpre (solidLine_import last)
    simpa [himports] using h

/-- A name without dots. -/
def Name.alone (n : Name) : DottedName := ⟨n, []⟩

@[simp] theorem Name.chars_alone (n : Name) : n.alone.chars = n.chars := by
  simp [alone, DottedName.chars, joined]

/-- The header that the class line writes. -/
def PlainUnit.declared (u : PlainUnit) : GenericHeader where
  modifiers := [⟨"public", by decide⟩]
  name := u.name
  parameters := none
  base := u.base.map fun b => (b.alone, none)
  interfaces := u.interfaces.map fun n => .plain n.alone

theorem PlainUnit.baseClause_declared (u : PlainUnit) : u.declared.baseClause = u.baseClause := by
  unfold GenericHeader.baseClause PlainUnit.baseClause declared
  cases u.base with
  | none => rfl
  | some b => simp [angled]

theorem PlainUnit.interfaceClause_declared (u : PlainUnit) :
    u.declared.interfaceClause = u.interfaceClause := by
  have hchars : ∀ names : List Name,
      (names.map fun n => GenericType.plain n.alone).map GenericType.chars =
        names.map Name.chars := by
    intro names
    simp [Function.comp_def]
  unfold GenericHeader.interfaceClause PlainUnit.interfaceClause declared
  cases u.interfaces with
  | nil => rfl
  | cons n names => exact congrArg (fun list => " implements ".toList ++ commaList list) (hchars _)

theorem PlainUnit.text_declared (u : PlainUnit) (rest : List Char) :
    u.declared.text ++ '\n' :: rest = u.classLine ++ rest := by
  have hmodifiers : modifierText u.declared.modifiers = "public ".toList := rfl
  have hparameters : angled u.declared.parameters = [] := rfl
  unfold GenericHeader.text PlainUnit.classLine
  rw [hmodifiers, hparameters, u.baseClause_declared, u.interfaceClause_declared]
  simp [declared]

theorem classHeader_classLine (u : PlainUnit) {pre : List Char} (hmiss : Misses classPattern pre)
    (hlines : WholeLines pre) (rest : List Char) :
    ∃ header, classHeader? (pre ++ (u.classLine ++ rest)) = some header ∧
      header.start = ⟨pre.reverse, u.classLine ++ rest⟩ ∧
      header.name = u.name.text ∧ header.base = u.base.map Name.text ∧
      header.interfaces = u.interfaces.map Name.text := by
  have h := u.declared.exists_classHeader? hmiss hlines ('\n' :: rest)
  rw [u.text_declared] at h
  obtain ⟨header, hheader, hstart, hname, hbase, hinterfaces⟩ := h
  refine ⟨header, hheader, hstart, hname, hbase.trans ?_, hinterfaces.trans ?_⟩
  · simp only [PlainUnit.declared, Option.map_map, Function.comp_def, Name.chars_alone]
    rfl
  · simp only [PlainUnit.declared, List.map_map, Function.comp_def, GenericType.head,
      Name.chars_alone]
    rfl

theorem classHeader_text (u : PlainUnit) :
    ∃ header, classHeader? u.text = some header ∧
      header.start = ⟨u.header.reverse, u.classLine ++ (u.members ++ ['}', '\n'])⟩ ∧
      header.name = u.name.text ∧ header.base = u.base.map Name.text ∧
      header.interfaces = u.interfaces.map Name.text := by
  have hmiss : Misses classPattern u.header := by
    refine Misses.append ?_ (Misses.flatMap fun i _ => ?_)
    · unfold PlainUnit.packageLine
      split
      · exact misses_package classPattern_wordsOnly (by decide) (by decide) _
      · exact misses_nil
    · exact misses_import classPattern_wordsOnly (by decide) (by decide) (by decide) i
  exact classHeader_classLine u hmiss (wholeLines_header u) (u.members ++ ['}', '\n'])

end ClassAtlas.Plain
