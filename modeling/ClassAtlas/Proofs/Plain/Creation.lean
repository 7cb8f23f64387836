import ClassAtlas.Proofs.Plain.InlineFields
import ClassAtlas.Proofs.Plain.Methods
import ClassAtlas.Proofs.Role.Consistency
import ClassAtlas.Proofs.Source.ImportStatements

/-! Objects of an anonymous subclass. `new` and a name with a body behind it look like a constructor
from the name on, and only the text that is shown before the name tells the two apart: with too many
blanks in between, the start of `new` is hidden and the class gets a constructor that it does not
have. -/

namespace ClassAtlas.Plain

open Source Pattern

variable {n : Name} {before gap text rest : List Char}

/-! ### The word `new` -/

theorem needs_creationPattern : creationPattern.Needs (· == 'n') :=
  Needs.bind_right (show boundary.Within anyChar from within_require _) fun _ =>
    (needs_lit (show 'n' ∈ "new".toList by decide) (by decide)).bind_left

/-- Behind text that ends outside of words `new` is found, with the blanks up to the end. -/
theorem occurs_creationPattern (hgap : ∀ ch ∈ gap, Text.isBlank ch = true)
    (hbefore : startsWord text.reverse = false) :
    creationPattern.occurs (text ++ ("new".toList ++ gap)) = true := by
  have hnew : Worded "new".toList := by decide
  have hblanks : blanks ⟨"new".toList.reverse ++ text.reverse, gap ++ []⟩ = _ :=
    run_append hgap stops_nil
  rw [List.append_nil] at hblanks
  have hprefers : creationPattern.Prefers ⟨text.reverse, "new".toList ++ gap⟩ () _ :=
    Prefers.bind (.of_eq (boundary_eq_single hbefore (hnew.startsWord gap))) <|
    Prefers.bind (.of_eq (lit_append "new" _ gap)) <|
    Prefers.bind (.of_eq hblanks) <| prefers_require rfl
  have hoccurs := occurs_of_mem hprefers.mem
  rwa [List.reverse_reverse] at hoccurs

/-- The word is recognised as long as it is shown whole. -/
theorem followsNew_eq (hgap : ∀ ch ∈ gap, Text.isBlank ch = true)
    (after : List Char) :
    followsNew ⟨(text ++ [' '] ++ ("new".toList ++ gap)).reverse, after⟩ =
      decide (gap.length ≤ 17) := by
  have hlen : ("new".toList ++ gap).length = 3 + gap.length := List.length_append
  have hshown : (⟨(text ++ [' '] ++ ("new".toList ++ gap)).reverse, after⟩ : Cursor).lookBack
      (some creationWindow) =
      (text ++ [' ']).rtake (20 - (3 + gap.length)) ++ ("new".toList ++ gap).rtake 20 := by
    have hwindow := lookBack_eq_rtake (text ++ [' '] ++ ("new".toList ++ gap)) after 20
    rw [rtake_append, hlen] at hwindow
    exact hwindow
  rw [followsNew, hshown]
  by_cases hfit : gap.length ≤ 17
  · have hspace : startsWord ((text ++ [' ']).rtake (20 - (3 + gap.length))).reverse = false := by
      rw [List.rtake_eq_reverse_take_reverse, List.reverse_reverse, List.reverse_append]
      cases 20 - (3 + gap.length) with
      | zero => rfl
      | succ k => exact (by decide : Text.isWord ' ' = false)
    have hwhole : ("new".toList ++ gap).rtake 20 = "new".toList ++ gap :=
      rtake_of_length_le (by omega)
    rw [hwhole, occurs_creationPattern hgap hspace, decide_eq_true hfit]
  · -- what is shown starts behind the first letter
    have hhidden : 20 - (3 + gap.length) = 0 := by omega
    have hcut : 20 - gap.length ≤ 2 := by omega
    rw [hhidden, List.rtake_zero, List.nil_append, rtake_append, decide_eq_false hfit]
    refine needs_creationPattern.occurs_eq_false (List.forall_mem_append.2 ⟨?_, ?_⟩)
    · have hend : ∀ k ≤ 2, ∀ ch ∈ "new".toList.rtake k, (ch == 'n') = false := by decide
      exact hend _ hcut
    · intro ch hch
      have hblank := hgap ch ((rtake_suffix gap 20).subset hch)
      rw [beq_eq_false_iff_ne]
      rintro rfl
      exact absurd hblank (by decide)

/-! ### The heads that are read -/

/-- A word is not the name of a constructor if another word follows. -/
theorem constructorPattern_eq_nil {w : List Char} (hw : Worded w) (hgap : Gap gap)
    (hrest : ∃ ch ∈ rest.head?, Text.isWord ch = true) (before : List Char) :
    constructorPattern ⟨before, w ++ (gap ++ rest)⟩ = [] := by
  have hword : word ⟨before, w ++ (gap ++ rest)⟩ = _ :=
    run1_append hw.1 hw.2 (hgap.stops (fun _ => Text.isWord_of_isBlank) rest)
  have hblanks : blanks ⟨w.reverse ++ before, gap ++ rest⟩ = _ :=
    run_append hgap.2 (stops_blank_of_head hrest)
  have hparameters : parameterList ⟨w.reverse ++ before, gap ++ rest⟩ = [] := by
    unfold parameterList
    rw [bind_eq_of_single hblanks]
    refine bind_eq_nil (lit_eq_nil ?_)
    rintro ⟨more, rfl⟩
    obtain ⟨ch, hch, hisWord⟩ := hrest
    obtain rfl : '(' = ch := by simpa using hch
    exact absurd hisWord (by decide)
  refine bind_eq_nil_of_forall fun r hr => bind_eq_nil_of_forall fun q hq => bind_eq_nil ?_
  obtain ⟨_, rfl⟩ := mem_declarationStart.1 hr
  have hmem := (mem_captured.1 hq).1
  rw [hword, List.mem_singleton] at hmem
  rw [congrArg Prod.snd hmem]
  exact hparameters

/-- The scan for constructors passes over a word and the blanks before the next one. -/
theorem finds_word {β : Type} {f : Match ConstructorHead → Option β} {w : List Char} (hw : Worded w)
    (hgap : Gap gap) (hrest : ∃ ch ∈ rest.head?, Text.isWord ch = true) (before : List Char) :
    Finds constructorPattern f before (w ++ gap) rest [] := by
  refine finds_pass fun t s hsplit hs => ?_
  have hinside : ∀ u, u <:+ gap → u ≠ [] → ∀ b, constructorPattern ⟨b, u ++ rest⟩ = [] := by
    intro u hu hne b
    cases u with
    | nil => exact absurd rfl hne
    | cons ch u =>
      have hblank := hgap.2 ch (hu.subset List.mem_cons_self)
      refine constructorPattern_leadsOnly.eq_nil_of_stops (Text.isWord_of_isBlank hblank) ?_
      rintro rfl
      exact absurd hblank (by decide)
  rcases List.append_eq_append_iff.1 hsplit with ⟨u, _, hu⟩ | ⟨u, hu, rfl⟩
  · exact hinside s ⟨u, hu.symm⟩ hs _
  · by_cases hne : u = []
    · subst hne
      exact hinside gap List.suffix_rfl hgap.1 _
    · rw [List.append_assoc]
      refine constructorPattern_eq_nil ⟨hne, fun ch hch => hw.2 ch ?_⟩ hgap hrest _
      rw [hu]
      exact List.mem_append_right _ hch

/-- The head of a constructor without parameters. -/
def bareHead (n : Name) (before rest : List Char) : ConstructorHead where
  name := ⟨⟨before, n.chars ++ '(' :: ')' :: ' ' :: '{' :: rest⟩,
    ⟨n.chars.reverse ++ before, '(' :: ')' :: ' ' :: '{' :: rest⟩⟩
  parameters := ⟨⟨'(' :: (n.chars.reverse ++ before), ')' :: ' ' :: '{' :: rest⟩,
    ⟨'(' :: (n.chars.reverse ++ before), ')' :: ' ' :: '{' :: rest⟩⟩
  opening := ⟨' ' :: ')' :: '(' :: (n.chars.reverse ++ before), '{' :: rest⟩

theorem prefers_bareHead (n : Name) (rest : List Char)
    (hfree : StartsFree ⟨before, n.chars ++ '(' :: ')' :: ' ' :: '{' :: rest⟩) :
    constructorPattern.Prefers ⟨before, n.chars ++ '(' :: ')' :: ' ' :: '{' :: rest⟩
      (bareHead n before rest) ⟨'{' :: ' ' :: ')' :: '(' :: (n.chars.reverse ++ before), rest⟩ := by
  have hword : word ⟨before, n.chars ++ '(' :: ')' :: ' ' :: '{' :: rest⟩ = _ :=
    n.asType.word_eq (stops_cons (by decide)) before
  exact Prefers.bind (.of_eq (declarationStart_eq_single hfree)) <|
    Prefers.bind (Prefers.of_eq hword).captured <|
    Prefers.bind (prefers_parameterList List.not_mem_nil _ rest) <|
    Prefers.bind (prefers_here _) <|
    Prefers.bind (.of_eq (lit_append "\x7b" _ rest)) <| prefers_pure _ _

/-- Behind `new` a name with a body looks like a method of that type. -/
theorem prefers_creation (n : Name) (hgap : Gap gap) (rest : List Char)
    (hfree : StartsFree
      ⟨before, "new".toList ++ (gap ++ (n.chars ++ '(' :: ')' :: ' ' :: '{' :: rest))⟩) :
    ∃ head, methodPattern.Prefers
      ⟨before, "new".toList ++ (gap ++ (n.chars ++ '(' :: ')' :: ' ' :: '{' :: rest))⟩ head
      ⟨'{' :: ' ' :: ')' :: '(' ::
        (n.chars.reverse ++ (gap.reverse ++ ("new".toList.reverse ++ before))),
        rest⟩ ∧ head.returnType.text = "new" := by
  have hparameters : ∀ b, parameterList.Prefers ⟨b, '(' :: ')' :: ' ' :: '{' :: rest⟩ _ _ :=
    fun b => prefers_parameterList List.not_mem_nil b rest
  have hname : ∀ b, word ⟨b, n.chars ++ '(' :: ')' :: ' ' :: '{' :: rest⟩ = _ :=
    fun b => n.asType.word_eq (stops_cons (by decide)) b
  have hstart := n.starts ('(' :: ')' :: ' ' :: '{' :: rest)
  generalize n.chars ++ '(' :: ')' :: ' ' :: '{' :: rest = tail at hname hstart hfree ⊢
  have hstops : Stops Text.isWord (gap ++ tail) :=
    hgap.stops (fun _ => Text.isWord_of_isBlank) tail
  have hmodifiers : ∀ s ∈ ["abstract", "synchronized", "native", "default", "strictfp"],
      Worded s.toList := by decide
  obtain ⟨visibility, hhead, _⟩ := prefers_memberHead hmodifiers ⟨none, false⟩
    (show Worded "new".toList by decide) (by decide) hstops hfree
  have hword : word ⟨before, "new".toList ++ (gap ++ tail)⟩ = _ :=
    run1_append (by decide) (by decide) hstops
  have harguments : ∀ b, maybe genericArguments ⟨b, gap ++ tail⟩ = [((), ⟨b, gap ++ tail⟩)] := by
    intro b
    obtain ⟨ch, gap', rfl⟩ := List.exists_cons_of_ne_nil hgap.1
    refine genericArguments_eq_nil ?_ b (gap' ++ tail)
    rintro rfl
    exact absurd (hgap.2 '<' List.mem_cons_self) (by decide)
  have htype : methodType.Prefers ⟨before, "new".toList ++ (gap ++ tail)⟩ () _ :=
    Prefers.orElse (Prefers.bind (.of_eq hword) (.of_eq (harguments _)))
  have hblanks : ∀ b, blanks1 ⟨b, gap ++ tail⟩ = _ :=
    fun b => run1_append hgap.1 hgap.2 (stops_blank_of_head hstart)
  refine ⟨_, Prefers.bind hhead <| Prefers.bind htype.captured <|
    Prefers.bind (.of_eq (hblanks _)) <| Prefers.bind (Prefers.of_eq (hname _)).captured <|
    Prefers.bind (hparameters _) <| Prefers.bind (prefers_here _) <|
    Prefers.bind (.of_eq (lit_append "\x7b" _ rest)) <| prefers_pure _ _, ?_⟩
  exact Excerpt.text_append _ _ _ _

/-- The scan for methods reads such a head, and the type tells that it is none. -/
theorem finds_creation (n : Name) (hgap : Gap gap) (window : Option Int) (before rest : List Char) :
    Finds methodPattern (fun m => methodOfHead? window m.value) (' ' :: before)
      ("new".toList ++ (gap ++ (n.chars ++ ['(', ')', ' ', '{']))) rest [] := by
  obtain ⟨head, hprefers, htype⟩ := prefers_creation n hgap rest (startsFree_space before _)
  have hnone : methodOfHead? window head = none := by
    have hkeyword : statementKeywords.contains "new" = true := by decide +kernel
    simp only [methodOfHead?]
    rw [htype, hkeyword, Bool.or_true, Bool.true_or, if_pos rfl]
  have hfound := hprefers.finds (g := fun m => methodOfHead? window m.value)
    ("new".toList ++ (gap ++ (n.chars ++ ['(', ')', ' ', '{']))) (by simp) (by simp) (by simp)
  rw [hnone] at hfound
  exact hfound

/-! ### The source -/

/-- A class with a field whose value is an object of an anonymous subclass of the class itself. -/
def creationSource (n : Name) (gap : List Char) : List Char :=
  InlineField.opening n ++ ("    Object f = new".toList ++
    (gap ++ (n.chars ++ "() \x7b\n    \x7d;\n\x7d".toList)))

/-- The text up to `new`. -/
def creationLead (n : Name) : List Char := InlineField.opening n ++ "    Object f =".toList ++ [' ']

/-- The text from the body on. -/
def creationEnd : List Char := "\n    \x7d;\n\x7d".toList

theorem creationSource_eq (n : Name) (gap : List Char) :
    creationSource n gap =
      creationLead n ++
        (("new".toList ++ gap) ++ ((n.chars ++ ['(', ')', ' ', '{']) ++ creationEnd)) := by
  unfold creationSource creationLead creationEnd
  simp

/-- The constructor that has neither modifiers nor parameters and calls nothing. -/
def bareConstructor (n : Name) : Method where
  name := n.text
  returnType := ""
  parameters := []
  annotations := []
  visibility := "package"
  isStatic := false
  calls := .empty
  endpoint := none

theorem mem_creationLead {ch : Char} (h : ch ∈ creationLead n) :
    isPhrase ch = true ∨ ch ∈ ['{', '='] := by
  have hall : ∀ ch ∈ creationLead n, isPhrase ch = true ∨ ch ∈ ['{', '='] := by
    unfold creationLead InlineField.opening
    refine List.forall_mem_append.2 ⟨List.forall_mem_append.2 ⟨List.forall_mem_append.2 ⟨by decide,
      List.forall_mem_append.2 ⟨fun ch hch => ?_, by decide⟩⟩, by decide⟩, by decide⟩
    exact .inl (n.asType.phrase ch hch)
  exact hall ch h

/-- Up to the name there are only words, blanks and two marks. -/
theorem mem_before_name (hgap : Gap gap) {ch : Char}
    (h : ch ∈ creationLead n ++ ("new".toList ++ gap)) : isPhrase ch = true ∨ ch ∈ ['{', '='] := by
  rcases List.mem_append.1 h with h | h
  · exact mem_creationLead h
  · rcases List.mem_append.1 h with h | h
    · have hnew : ∀ ch ∈ "new".toList, isPhrase ch = true := by decide
      exact .inl (hnew ch h)
    · exact .inl (isPhrase_of_isBlank (hgap.2 ch h))

section Missed

variable {α : Type} {gapped : Bool} {p : Pattern α}

theorem misses_creationLead (hp : LeadsOnly gapped ['('] p) (n : Name) :
    Misses p (creationLead n) := by
  have hmarks : ∀ ch ∈ ['{', '='], Breaks ['('] ch := by decide
  have hsplit : creationLead n =
      (InlineField.opening n ++ "    Object f ".toList) ++ '=' :: [' '] := by
    simp [creationLead]
  have hlead : ∀ ch ∈ InlineField.opening n ++ "    Object f ".toList,
      isPhrase ch = true ∨ Breaks ['('] ch := by
    intro ch hch
    refine (mem_creationLead (n := n) ?_).imp_right (hmarks ch)
    rw [hsplit]
    exact List.mem_append_left _ hch
  rw [hsplit]
  exact hp.misses_marked parenthesis_proper hlead (by decide)
    (hp.misses_mark (by decide) (by decide))

theorem misses_creationEnd (hp : LeadsOnly gapped ['('] p) : Misses p creationEnd := by
  have hmarks : ∀ ch ∈ creationEnd, Text.isWord ch = false ∧ ch ≠ '@' := by decide
  exact misses_of_forall_mem fun ch hch _ _ =>
    hp.eq_nil_of_stops (hmarks ch hch).1 (hmarks ch hch).2

end Missed

/-- The scan for methods finds nothing. -/
theorem declaredMethods_creationSource (n : Name) (hgap : Gap gap) (window : Option Int) :
    declaredMethods (creationSource n gap) window = [] := by
  have hlead : (creationLead n).reverse ++ [] =
      ' ' :: (InlineField.opening n ++ "    Object f =".toList).reverse := by
    simp [creationLead]
  have hcreation := finds_creation n hgap window
    (InlineField.opening n ++ "    Object f =".toList).reverse (creationEnd ++ [])
  rw [← hlead] at hcreation
  have hall := Finds.append (misses_creationLead methodPattern_leadsOnly n).finds
    (Finds.append hcreation (misses_creationEnd methodPattern_leadsOnly).finds)
  have hfound := hall.matchesIn (progress_methodPattern.eq_nil_at_end _)
  rw [declaredMethods, creationSource_eq]
  simpa only [List.append_assoc, List.append_nil] using hfound

theorem startsFree_name (hgap : Gap gap) (after : List Char) :
    StartsFree ⟨(text ++ gap).reverse, after⟩ := by
  obtain ⟨last, more, hlast⟩ := List.exists_cons_of_ne_nil hgap.reverse.1
  have hblank : Text.isBlank last = true := hgap.reverse.2 last (hlast ▸ List.mem_cons_self)
  intro ch hch
  rw [List.reverse_append, hlast] at hch
  obtain rfl : last = ch := by simpa using hch
  refine ⟨Text.isWord_of_isBlank hblank, ?_, ?_⟩ <;> rintro rfl <;> exact absurd hblank (by decide)

/-- The text before the name of the class that is extended. -/
def beforeName (n : Name) (gap : List Char) : List Char := creationLead n ++ ("new".toList ++ gap)

/-- The scan for constructors finds one head, that behind `new`. -/
theorem matchesIn_creationSource (n : Name) (hgap : Gap gap) :
    ∃ m, constructorPattern.matchesIn (creationSource n gap) = [m] ∧
      m.start = ⟨(beforeName n gap).reverse, n.chars ++ '(' :: ')' :: ' ' :: '{' :: creationEnd⟩ ∧
      m.value = bareHead n (beforeName n gap).reverse creationEnd := by
  have hbefore : (beforeName n gap).reverse =
      ("new".toList ++ gap).reverse ++ ((creationLead n).reverse ++ []) := by
    simp [beforeName]
  have hfree : StartsFree ⟨(beforeName n gap).reverse,
      n.chars ++ '(' :: ')' :: ' ' :: '{' :: creationEnd⟩ := by
    unfold beforeName
    rw [← List.append_assoc]
    exact startsFree_name hgap _
  have hname := (prefers_bareHead n creationEnd hfree).finds (g := some)
    (n.chars ++ ['(', ')', ' ', '{']) (by simp) (by simp) (by simp)
  have hnew : Finds constructorPattern some ((creationLead n).reverse ++ []) ("new".toList ++ gap)
      (n.chars ++ ['(', ')', ' ', '{'] ++ creationEnd ++ []) [] := by
    refine finds_word (by decide) hgap ?_ _
    rw [List.append_assoc, List.append_assoc]
    exact n.starts _
  rw [hbefore] at hname
  have hall := Finds.append (misses_creationLead constructorPattern_leadsOnly n).finds
    (Finds.append hnew (Finds.append hname (misses_creationEnd constructorPattern_leadsOnly).finds))
  have hfound := hall.matchesIn (progress_constructorPattern.eq_nil_at_end _)
  rw [List.filterMap_some, ← hbefore, ← creationSource_eq] at hfound
  exact ⟨_, hfound, rfl, rfl⟩

/-! ### The constructor -/

theorem inCommentLine_beforeName (n : Name) (hgap : Gap gap) (after : List Char) :
    inCommentLine ⟨(beforeName n gap).reverse, after⟩ = false := by
  refine inCommentLine_eq_false fun ch hch => ?_
  have hmem : ch ∈ beforeName n gap :=
    List.mem_reverse.1 ((List.takeWhile_sublist _).subset (List.mem_reverse.1 hch))
  have hplain := mem_before_name hgap hmem
  refine ⟨?_, ?_, ?_, ?_⟩ <;> rintro rfl <;> exact absurd hplain (by decide)

theorem annotationsBefore_beforeName (n : Name) (hgap : Gap gap) (after : List Char)
    (window : Option Int) : annotationsBefore ⟨(beforeName n gap).reverse, after⟩ window = [] := by
  refine annotationsIn_of_not_mem fun hat => ?_
  have hshown := (Cursor.lookBack_suffix ⟨(beforeName n gap).reverse, after⟩ window).subset hat
  rw [List.reverse_reverse] at hshown
  exact absurd (mem_before_name hgap hshown) (by decide)

theorem followsNew_beforeName (n : Name) (hgap : Gap gap) (after : List Char) :
    followsNew ⟨(beforeName n gap).reverse, after⟩ = decide (gap.length ≤ 17) :=
  followsNew_eq hgap.2 after

/-- What is located at the name is the bare constructor. -/
theorem method_locateMethod (n : Name) (hgap : Gap gap) (window : Option Int) (after : List Char) :
    (locateMethod window ⟨(beforeName n gap).reverse, after⟩
      (bareHead n (beforeName n gap).reverse creationEnd).opening n.text "" "package" false
      (bareHead n (beforeName n gap).reverse creationEnd).parameters.chars).method =
      bareConstructor n := by
  have hend : creationEnd = "\n    ".toList ++ '}' :: ";\n\x7d".toList := by decide
  have hblock : ∀ b, blockEnd ⟨b, '{' :: creationEnd⟩ = b.length + 1 + 5 := by
    intro b
    rw [hend]
    exact blockEnd_of_not_mem (by decide) (by decide) b _
  have hcalls : calledNames (creationEnd.take 5) = .empty := by decide +kernel
  simp only [locateMethod, annotationsBefore_beforeName n hgap, bareConstructor, bareHead,
    hblock, Cursor.offset, List.drop_one, List.tail_cons, Nat.add_sub_cancel_left, hcalls]
  rfl

/-- Behind `new` the name is taken for a constructor exactly if the word is not shown whole. -/
theorem methods_creationSource (n : Name) (hgap : Gap gap) (window : Option Int) :
    (locatedMethods (creationSource n gap) window n.text).map (·.method) =
      if gap.length ≤ 17 then [] else [bareConstructor n] := by
  obtain ⟨m, hmatches, hstart, hvalue⟩ := matchesIn_creationSource n hgap
  have hname : m.value.name.text = n.text := by
    rw [hvalue]
    exact Excerpt.text_append _ _ _ _
  have hne : n.text.isEmpty = false := by simp [Name.text, n.worded.1]
  have hmethod :=
    method_locateMethod n hgap window (n.chars ++ '(' :: ')' :: ' ' :: '{' :: creationEnd)
  rw [← hstart, ← hvalue] at hmethod
  have hcomment : inCommentLine m.start = false := by
    rw [hstart]
    exact inCommentLine_beforeName n hgap _
  have hnew : followsNew m.start = decide (gap.length ≤ 17) := by
    rw [hstart]
    exact followsNew_beforeName n hgap _
  have hbare : bareConstructors (creationSource n gap) window n.text [] =
      if gap.length ≤ 17 then []
      else [locateMethod window m.start m.value.opening n.text "" "package" false
        m.value.parameters.chars] := by
    rw [bareConstructors, hne, hmatches, List.map_nil, bareConstructorsFrom, hname, hcomment, hnew]
    simp [bareConstructorsFrom]
  rw [locatedMethods, declaredMethods_creationSource n hgap, List.nil_append, hbare]
  split
  · rfl
  · rw [sortBy_decide, (List.pairwise_singleton _ _).insertionSort_eq, List.map_singleton, hmethod]

/-- For any blanks between `new` and the name the class is read. It has no methods as long as there
are at most seventeen of them, and the bare constructor behind more. -/
theorem methods_of_anonymous_subclass (settings : Settings) (path : String) (n : Name)
    (gap : List Char) (hgap : Gap gap) :
    ∃ c, readClass? settings path (creationSource n gap) = some c ∧ c.name = n.text ∧
      c.methods = if gap.length ≤ 17 then [] else [bareConstructor n] := by
  have hheader := GenericHeader.exists_classHeader? ⟨[], n, none, none, []⟩ misses_nil
    (show WholeLines [] by simp [WholeLines]) ('\n' :: ("    Object f = new".toList ++
      (gap ++ (n.chars ++ "() \x7b\n    \x7d;\n\x7d".toList))))
  rw [InlineField.header_opening, List.nil_append, ← creationSource] at hheader
  obtain ⟨header, hheader, _, hname, _⟩ := hheader
  obtain ⟨c, hread, hclass⟩ :
      ∃ c, readClass? settings path (creationSource n gap) = some c ∧ c.name = n.text := by
    rw [readClass?, hheader, Option.map_some]
    exact ⟨_, rfl, hname⟩
  refine ⟨c, hread, hclass, ?_⟩
  have hserved : c.methods =
      ((locatedMethods (creationSource n gap) settings.methodWindow n.text).map (·.method)).map
        fun m => { m with endpoint := Role.endpoint? m (Role.basePath? c.annotations) } := by
    rw [methods_of_readClass? hread, hclass, List.map_map]
    rfl
  rw [hserved, methods_creationSource n hgap]
  split
  · rfl
  · -- without annotations the constructor serves no endpoint
    rw [List.map_singleton]
    rfl

/-- A line break and an indentation are no obstacle. -/
theorem methods_of_anonymous_subclass_broken_line :
    Gap "\n            ".toList ∧
      ∃ c, readClass? .default "N.java" (creationSource .sample "\n            ".toList) = some c ∧
        c.name = "N" ∧ c.methods = [] :=
  ⟨⟨by decide, by decide⟩,
    methods_of_anonymous_subclass .default "N.java" .sample _ ⟨by decide, by decide⟩⟩

/-- Behind eighteen spaces the class gets a constructor. -/
theorem spaced_creation_declares :
    Gap (List.replicate 18 ' ') ∧
      creationSource .sample (List.replicate 18 ' ') =
        "class N \x7b\n    Object f = new                  N() \x7b\n    \x7d;\n\x7d".toList ∧
      (readClass? .default "N.java" (creationSource .sample (List.replicate 18 ' '))).map
        (·.methods) = some [bareConstructor .sample] :=
  ⟨⟨by decide, by decide⟩, by decide +kernel, by decide +kernel⟩

end ClassAtlas.Plain
