import ClassAtlas.Proofs.Plain.Members
import ClassAtlas.Proofs.Source.Calls
import ClassAtlas.Proofs.StableSort

/-! The methods of a plain file: where they stand, what they call, and that they are all the methods
that the scan over the whole file finds. -/

namespace ClassAtlas.Plain

open Source Pattern

variable {text before rest : List Char}

/-! ### Bodies -/

theorem blockEndFrom_of_not_mem {s : List Char} (hopen : '{' ∉ s) (hclose : '}' ∉ s)
    (position : Nat) (rest : List Char) :
    blockEndFrom 1 position (s ++ '}' :: rest) = some (position + s.length) := by
  induction s generalizing position with
  | nil => simp [blockEndFrom]
  | cons ch s ih =>
    have hch : ch ≠ '{' ∧ ch ≠ '}' := by
      constructor <;> rintro rfl <;> simp at hopen hclose
    have hrest := ih (fun h => hopen (List.mem_cons_of_mem _ h))
      (fun h => hclose (List.mem_cons_of_mem _ h)) (position + 1)
    rw [List.cons_append, blockEndFrom]
    simp [hch.1, hch.2, hrest]
    omega

/-- A text without braces fills the block up to the brace behind it. -/
theorem blockEnd_of_not_mem {s : List Char} (hopen : '{' ∉ s) (hclose : '}' ∉ s)
    (before rest : List Char) :
    blockEnd ⟨before, '{' :: (s ++ '}' :: rest)⟩ = before.length + 1 + s.length := by
  rw [blockEnd_of_opens rfl, blockEndFrom_of_not_mem hopen hclose]
  rfl

theorem callPattern_eq_nil {ch : Char} (h : Text.isWord ch = false) (before rest : List Char) :
    callPattern ⟨before, ch :: rest⟩ = [] := by
  refine bind_eq_nil_of_forall fun r hr => bind_eq_nil ?_
  obtain ⟨_, rfl⟩ := mem_require.1 hr
  have hnil : word ⟨before, ch :: rest⟩ = [] := run1_eq_nil (stops_cons h)
  rw [captured, hnil, List.map_nil]

theorem misses_call {s : List Char} (h : ∀ ch ∈ s, Text.isWord ch = false) :
    Misses callPattern s :=
  misses_of_forall_mem fun ch hch => callPattern_eq_nil (h ch hch)

theorem prefers_call (n : Name) (hb : startsWord before = false) (rest : List Char) :
    callPattern.Prefers ⟨before, n.chars ++ '(' :: rest⟩
      ⟨⟨before, n.chars ++ '(' :: rest⟩, ⟨n.chars.reverse ++ before, '(' :: rest⟩⟩
      ⟨'(' :: (n.chars.reverse ++ before), rest⟩ :=
  prefers_calledWord hb n.worded (List.forall_mem_nil _) rest

theorem finds_call (n : Name) (hb : startsWord before = false) (rest : List Char) :
    Finds callPattern (fun m => some m.value.text) before (n.chars ++ ['(']) rest [n.text] := by
  have hfound := (prefers_call n hb rest).finds (g := fun m => some m.value.text)
    (n.chars ++ ['(']) (by simp) (by simp) (by simp)
  simp only [Excerpt.text_append] at hfound
  exact hfound

theorem finds_callLine (n : Name) (before rest : List Char) :
    Finds callPattern (fun m => some m.value.text) before (PlainMethod.callLine n) rest
      [n.text] := by
  have hindent : Misses callPattern "        ".toList := misses_call (by decide)
  have htail : Misses callPattern [')', ';', '\n'] := misses_call (by decide)
  have hb : startsWord ("        ".toList.reverse ++ before) = false := by
    have hspace : Text.isWord ' ' = false := by decide
    simpa [startsWord] using hspace
  have hcall := (finds_call n hb ([')', ';', '\n'] ++ rest)).append htail.finds
  have hall := Finds.append hindent.finds hcall
  unfold PlainMethod.callLine
  simpa only [List.append_assoc, List.cons_append, List.nil_append] using hall

theorem finds_body (m : PlainMethod) :
    Finds callPattern (fun x => some x.value.text) [] m.body [] (m.calls.map Name.text) := by
  have hline : Misses callPattern ['\n'] := misses_call (by decide)
  have hindent : Misses callPattern "    ".toList := misses_call (by decide)
  have hlines : Finds callPattern (fun x => some x.value.text) ['\n']
      (m.calls.flatMap PlainMethod.callLine) ("    ".toList ++ [])
      (m.calls.flatMap fun n => [n.text]) :=
    Finds.flatMap (fun _ => True) (fun n _ before rest _ => finds_callLine n before rest)
      (fun _ _ _ _ => trivial) _ _ trivial
  rw [← List.map_eq_flatMap] at hlines
  have hall := Finds.append hline.finds (Finds.append hlines hindent.finds)
  rw [List.append_nil, List.nil_append] at hall
  exact hall

/-- The names called in a body are those of its calls. -/
theorem calledNames_body (m : PlainMethod) :
    calledNames m.body = .ofList (m.calls.map Name.text) := by
  have hend : callPattern ⟨m.body.reverse, []⟩ = [] := by
    refine bind_eq_nil_of_forall fun r hr => bind_eq_nil ?_
    obtain ⟨_, rfl⟩ := mem_require.1 hr
    rfl
  have hfound : (callPattern.matchesIn m.body).map (fun x => x.value.text) =
      m.calls.map Name.text := by
    rw [← (finds_body m).matchesIn hend, List.filterMap_eq_map']
  have hkeyword : ∀ w ∈ callKeywords, w ∈ declarationWords := by decide +kernel
  rw [calledNames, hfound, List.filter_eq_self.2]
  intro name hname
  obtain ⟨n, _, rfl⟩ := List.mem_map.1 hname
  have hfree : n.text ∉ callKeywords := n.asType.text_not_mem hkeyword
  simpa using hfree

theorem PlainMethod.mem_body (m : PlainMethod) {ch : Char} (h : ch ∈ m.body) :
    Text.isWord ch = true ∨ ch ∈ [' ', '(', ')', ';', '\n'] := by
  rw [PlainMethod.body, List.mem_cons, List.mem_append, List.mem_flatMap] at h
  have hspaces : ∀ k, ch ∈ List.replicate k ' ' → ch ∈ [' ', '(', ')', ';', '\n'] := by
    intro k hk
    simp [List.eq_of_mem_replicate hk]
  rcases h with rfl | ⟨n, _, h⟩ | h
  · exact .inr (by simp)
  · rcases List.mem_append.1 h with h | h
    · exact .inr (hspaces 8 h)
    · rcases List.mem_append.1 h with h | h
      · exact .inl (n.worded.2 ch h)
      · exact .inr (List.mem_cons_of_mem _ h)
  · exact .inr (hspaces 4 h)

/-- The brace behind a body closes its block. -/
theorem blockEnd_body (m : PlainMethod) (before rest : List Char) :
    blockEnd ⟨before, '{' :: (m.body ++ '}' :: rest)⟩ = before.length + 1 + m.body.length :=
  blockEnd_of_not_mem (fun h => absurd (m.mem_body h) (by decide))
    (fun h => absurd (m.mem_body h) (by decide)) before rest

/-! ### Parameters -/

theorem words_append_of_isBlank {s : List Char} (hs : ∀ ch ∈ s, Text.isBlank ch = true)
    (rest : List Char) : Text.words (s ++ rest) = Text.words rest := by
  induction s with
  | nil => rfl
  | cons ch s ih =>
    have hch := hs ch List.mem_cons_self
    rw [List.cons_append, Text.words, List.splitOnP_cons_eq_if_modifyHead, if_pos hch]
    exact ih fun x hx => hs x (List.mem_cons_of_mem _ hx)

theorem words_append {w : List Char} (hne : w ≠ []) (hw : ∀ ch ∈ w, Text.isBlank ch = false)
    {x : Char} (hx : Text.isBlank x = true) (rest : List Char) :
    Text.words (w ++ x :: rest) = w :: Text.words rest := by
  rw [Text.words, List.splitOnP_append_cons_of_forall_mem hw x hx, List.filter_cons,
    if_pos (by simpa using hne)]
  rfl

theorem words_single {w t : List Char} (hne : w ≠ []) (hw : ∀ ch ∈ w, Text.isBlank ch = false)
    (ht : ∀ ch ∈ t, Text.isBlank ch = true) : Text.words (w ++ t) = [w] := by
  cases t with
  | nil =>
    rw [List.append_nil, Text.words, List.splitOnP_eq_singleton hw]
    simpa using hne
  | cons x t =>
    have hnone := words_append_of_isBlank (fun ch hch => ht ch (List.mem_cons_of_mem _ hch)) []
    rw [List.append_nil] at hnone
    rw [words_append hne hw (ht x List.mem_cons_self), hnone]
    rfl

theorem parameterOf?_eq (p : PlainParameter) {s t : List Char} (hs : ∀ ch ∈ s, ch = ' ')
    (ht : ∀ ch ∈ t, ch = ' ') :
    parameterOf? (s ++ (p.chars ++ t)) = some ⟨p.type.text, p.name.text⟩ := by
  have hname : ∀ ch ∈ p.name.chars, Text.isBlank ch = false :=
    fun ch hch => Text.isBlank_of_isWord (p.name.worded.2 ch hch)
  have htype : ∀ ch ∈ p.type.chars, Text.isBlank ch = false := by
    have hmarks : ∀ ch ∈ ['<', '>', '[', ']'], Text.isBlank ch = false := by decide
    intro ch hch
    rcases p.type.mem_chars hch with hword | hmark
    · exact Text.isBlank_of_isWord hword
    · exact hmarks ch hmark
  have hne : p.type.chars ≠ [] := by simp [PlainType.chars, p.type.base.worded.1]
  have hwords : Text.words (s ++ (p.chars ++ t)) = [p.type.chars, p.name.chars] := by
    rw [words_append_of_isBlank (isBlank_of_spaces hs), PlainParameter.chars, List.append_assoc,
      List.cons_append, words_append hne htype (by decide),
      words_single p.name.worded.1 hname (isBlank_of_spaces ht)]
  rw [parameterOf?, hwords]
  rfl

theorem parametersOf_eq (ps : List PlainParameter) :
    parametersOf (commaList (ps.map PlainParameter.chars)) =
      ps.map fun p => ⟨p.type.text, p.name.text⟩ := by
  by_cases hne : ps = []
  · subst hne
    rfl
  have hcomma : ∀ p ∈ ps, ',' ∉ p.chars := by
    intro p _ hmem
    rcases List.mem_append.1 hmem with hmem | hmem
    · rcases p.type.mem_chars hmem with hword | hmark
      · exact absurd hword (by decide)
      · exact absurd hmark (by decide)
    · rcases List.mem_cons.1 hmem with hmem | hmem
      · exact absurd hmem (by decide)
      · exact p.name.not_mem (by decide) hmem
  have hall : ((commaList (ps.map PlainParameter.chars) ++ []).splitOn ',').filterMap parameterOf? =
      _ := filterMap_splitOn_commaList hne hcomma (by simp)
        (fun p _ s t hs ht => parameterOf?_eq p hs ht)
  rw [List.append_nil] at hall
  exact hall

/-! ### Methods in place -/

/-- A method whose lines start at the position. -/
def PlainMethod.located (m : PlainMethod) (position : Nat) : LocatedMethod where
  start := position + 4
  method := m.method
  body := ⟨position + 4 + m.signature.length, position + 4 + m.signature.length + 1 + m.body.length⟩

/-- Methods whose lines follow each other from the position on. -/
def placed {ι : Type} (lines : ι → List Char) (locate : ι → Nat → LocatedMethod) :
    Nat → List ι → List LocatedMethod
  | _, [] => []
  | position, i :: items =>
    locate i position :: placed lines locate (position + (lines i).length) items

def located : Nat → List PlainMethod → List LocatedMethod :=
  placed PlainMethod.lines PlainMethod.located

theorem map_placed {ι β : Type} {lines : ι → List Char} {locate : ι → Nat → LocatedMethod}
    {f : LocatedMethod → β} {g : ι → β} (h : ∀ i position, f (locate i position) = g i)
    (position : Nat) (items : List ι) :
    (placed lines locate position items).map f = items.map g := by
  induction items generalizing position with
  | nil => rfl
  | cons i items ih => rw [placed, List.map_cons, List.map_cons, ih, h]

theorem PlainMethod.fenced (m : PlainMethod) (text : List Char) : Fenced (text ++ m.lines) := by
  have hcall : ∀ n ∈ m.calls, WholeLines (PlainMethod.callLine n) := by
    intro n _
    have hline : PlainMethod.callLine n =
        ("        ".toList ++ (n.chars ++ ['(', ')', ';'])) ++ ['\n'] := by
      unfold PlainMethod.callLine
      simp only [List.append_assoc, List.cons_append, List.nil_append]
    rw [hline]
    exact wholeLines_append_newline _
  have hwhole :=
    (wholeLines_append_newline (text ++ ("    ".toList ++ (m.signature ++ ['{'])))).append
    (WholeLines.flatMap hcall)
  have hfence : Fence ("    ".toList ++ ['}']) := ⟨⟨_, _, rfl, by decide⟩, by decide⟩
  have hall := hwhole.fenced hfence
  unfold PlainMethod.lines PlainMethod.body
  simpa only [List.append_assoc, List.cons_append, List.nil_append] using hall

/-- A method's head is read as the method, with the annotations that stand before it. -/
theorem PlainMethod.methodOfHead?_eq (m : PlainMethod) (h : WholeLines text) (window : Option Int)
    {head : MethodHead} (hhead : m.Heads head)
    (hstart : head.start = ⟨"    ".toList.reverse ++ text.reverse,
      m.signature ++ '{' :: (m.body ++ '}' :: rest)⟩)
    (hopening : head.opening = ⟨m.signature.reverse ++ ("    ".toList.reverse ++ text.reverse),
      '{' :: (m.body ++ '}' :: rest)⟩) :
    methodOfHead? window head = some { m.located text.length with
      method := { m.method with annotations := annotationsBefore head.start window } } := by
  have hname : m.name.text ∉ statementKeywords := m.name.asType.text_not_mem statementKeywords_words
  have htype := m.returnType.text_not_mem statementKeywords_words
  have hcomment : inCommentLine head.start = false := by
    rw [hstart]
    exact inCommentLine_indented h.head_reverse _
  have hvisibility : m.returnType.text ∉ visibilities :=
    m.returnType.text_not_mem (by decide +kernel)
  have hkept : ¬(statementKeywords.contains head.name.text ||
      statementKeywords.contains head.returnType.text || inCommentLine head.start) = true := by
    rw [hhead.name, hhead.returnType, hcomment]
    simp [hname, htype]
  have hplain : ¬visibilities.contains head.returnType.text = true := by
    rw [hhead.returnType]
    simpa using hvisibility
  have hbody : ((head.opening.after.drop 1).take
      (blockEnd head.opening - (head.opening.offset + 1))) = m.body := by
    rw [hopening, blockEnd_body]
    simp [Cursor.offset]
  simp only [methodOfHead?]
  rw [if_neg hkept, if_neg hplain, locateMethod]
  simp only [hhead.name, hhead.returnType, hhead.visibility, hhead.isStatic,
    hhead.parameters, hbody, parametersOf_eq, calledNames_body]
  have hposition : head.start.offset = text.length + 4 := by
    simp [hstart, Cursor.offset]
  have hbrace : head.opening.offset = text.length + 4 + m.signature.length := by
    simp [hopening, Cursor.offset]
    omega
  have hstop : blockEnd head.opening =
      text.length + 4 + m.signature.length + 1 + m.body.length := by
    rw [← hbrace, hopening, blockEnd_body]
    rfl
  rw [hposition, hbrace, hstop]
  rfl

/-- Where the head of a method is found behind the indentation, its body adds nothing. -/
theorem finds_of_head {g : Match MethodHead → Option LocatedMethod} {seg : List Char}
    {out : List LocatedMethod} (m : PlainMethod)
    (h : Finds methodPattern g ("    ".toList.reverse ++ before) seg
      (m.body ++ '}' :: '\n' :: rest) out) :
    Finds methodPattern g before ("    ".toList ++ (seg ++ (m.body ++ ['}', '\n']))) rest out := by
  have hindent : Misses methodPattern ("    ".toList ++ []) :=
    methodPattern_leadsOnly.misses_spaces (by decide) misses_nil
  have hsplit : m.body ++ '}' :: '\n' :: rest = (m.body ++ ['}', '\n']) ++ rest := by simp
  rw [List.append_nil] at hindent
  rw [hsplit] at h
  have hall := Finds.append hindent.finds (Finds.append h (method_misses_body m).finds)
  simpa only [List.nil_append, List.append_nil] using hall

/-- The scan for methods finds a method in its lines. -/
theorem finds_method (m : PlainMethod) (h : Fenced text) (window : Option Int) (rest : List Char) :
    Finds methodPattern (fun x => methodOfHead? window x.value) text.reverse m.lines rest
      [m.located text.length] := by
  have hspace : StartsFree ⟨"    ".toList.reverse ++ text.reverse,
      m.signature ++ '{' :: (m.body ++ '}' :: '\n' :: rest)⟩ := by
    exact startsFree_space ("   ".toList.reverse ++ text.reverse) _
  obtain ⟨head, hprefers, hstart, hopening, hhead⟩ := prefers_signature m hspace
  have hannotations : annotationsBefore head.start window = m.method.annotations := by
    have habove := annotationsBefore_fenced h (show ∀ ch ∈ "    ".toList, ch = ' ' by decide)
      (m.signature ++ '{' :: (m.body ++ '}' :: '\n' :: rest)) window
    rw [List.reverse_append] at habove
    rw [hstart, habove]
    rfl
  have hmethod : methodOfHead? window head = some (m.located text.length) := by
    rw [m.methodOfHead?_eq h.wholeLines window hhead hstart hopening, hannotations]
    rfl
  have hfound := hprefers.finds (g := fun x => methodOfHead? window x.value)
    (m.signature ++ ['{']) (by simp) (by simp) (by simp)
  rw [hmethod] at hfound
  have hall := finds_of_head m hfound
  unfold PlainMethod.lines
  simpa only [List.append_assoc, List.cons_append, List.nil_append, Option.toList_some] using hall

/-! ### Constructors -/

/-- Wherever a constructor without modifiers can be read in the stretch, which starts at the given
position, one of the spans covers the place. -/
def Occupied (spans : List Span) (position : Nat) (seg : List Char) : Prop :=
  ∀ t s, seg = t ++ s → s ≠ [] → ∀ before rest, before.length = position →
    constructorPattern ⟨t.reverse ++ before, s ++ rest⟩ = [] ∨
      ∃ span ∈ spans, span.covers (position + t.length)

theorem occupied_of_misses {seg : List Char} (h : Misses constructorPattern seg)
    (spans : List Span) (position : Nat) : Occupied spans position seg :=
  fun t s hsplit hs before rest _ => .inl (h t s hsplit hs before rest)

theorem Occupied.append {spans : List Span} {position : Nat} {a b : List Char}
    (ha : Occupied spans position a) (hb : Occupied spans (position + a.length) b) :
    Occupied spans position (a ++ b) := by
  intro t s hsplit hs before rest hbefore
  rcases List.append_eq_append_iff.1 hsplit with ⟨u, rfl, hb'⟩ | ⟨u, rfl, rfl⟩
  · have h := hb u s hb' hs (a.reverse ++ before) rest (by simp [hbefore]; omega)
    simpa [Nat.add_assoc] using h
  · by_cases hu : u = []
    · subst hu
      have h := hb [] b rfl (by simpa using hs) (t.reverse ++ before) rest
        (by simp [hbefore]; omega)
      simpa using h
    · have h := ha t u rfl hu before (b ++ rest) hbefore
      simpa using h

theorem Occupied.mono {spans spans' : List Span} {position : Nat} {seg : List Char}
    (h : Occupied spans position seg) (hsub : ∀ s ∈ spans, s ∈ spans') :
    Occupied spans' position seg := by
  intro t s hsplit hs before rest hbefore
  rcases h t s hsplit hs before rest hbefore with h | ⟨span, hspan, hcovers⟩
  · exact .inl h
  · exact .inr ⟨span, hsub span hspan, hcovers⟩

/-- From its signature to its last brace a method covers its lines. -/
theorem occupied_method (m : PlainMethod) (position : Nat) :
    Occupied [(m.located position).extent] position m.lines := by
  have hindent : Misses constructorPattern ("    ".toList ++ []) :=
    constructorPattern_leadsOnly.misses_spaces (by decide) misses_nil
  have hline : Misses constructorPattern ['\n'] :=
    constructorPattern_leadsOnly.misses_mark (by decide) (by decide)
  have hcovered : Occupied [(m.located position).extent] (position + 4)
      (m.signature ++ '{' :: (m.body ++ ['}'])) := by
    intro t s hsplit hs before rest _
    refine .inr ⟨_, List.mem_singleton_self _, ?_⟩
    have hlen := congrArg List.length hsplit
    have hpos : 0 < s.length := List.length_pos_iff.2 hs
    simp only [List.length_append, List.length_cons, List.length_nil] at hlen
    simp only [Span.covers, LocatedMethod.extent, PlainMethod.located]
    omega
  have hall := (occupied_of_misses hindent [(m.located position).extent] position).append
    (hcovered.append (occupied_of_misses hline _ _))
  unfold PlainMethod.lines
  simpa only [List.append_assoc, List.cons_append, List.nil_append, List.append_nil] using hall

/-- Where the known methods occupy the whole source, there are no other constructors. -/
theorem bareConstructors_eq_nil {content : List Char} {known : List LocatedMethod}
    (h : Occupied (known.map (·.extent)) 0 content) (window : Option Int) (className : String) :
    bareConstructors content window className known = [] := by
  rw [List.eq_nil_iff_forall_not_mem]
  intro k hk
  unfold bareConstructors at hk
  split at hk
  · exact absurd hk List.not_mem_nil
  · obtain ⟨hfree, m, hm, rfl⟩ := mem_bareConstructorsFrom hk
    obtain ⟨htext, hmem⟩ := mem_matchesIn progress_constructorPattern hm
    have hne : m.start.after ≠ [] := by
      intro hnil
      have hend := progress_constructorPattern.eq_nil_at_end m.start.before
      rw [← hnil] at hend
      rw [hend] at hmem
      exact absurd hmem List.not_mem_nil
    rcases h m.start.before.reverse m.start.after htext.symm hne [] [] rfl with
      hnil | ⟨s, hs, hcovers⟩
    · rw [List.reverse_reverse, List.append_nil, List.append_nil] at hnil
      rw [hnil] at hmem
      exact absurd hmem List.not_mem_nil
    · refine hfree s hs ?_
      simpa [locateMethod, Cursor.offset] using hcovers

/-! ### All methods -/

section Placed

variable {ι : Type} {items : List ι} {lines : ι → List Char} {locate : ι → Nat → LocatedMethod}
  {window : Option Int}

/-- The scan for methods finds them one after the other, as each of them ends with a fence. -/
theorem finds_placed (hlines : ∀ i text, Fenced (text ++ lines i))
    (hfinds : ∀ i ∈ items, ∀ text rest, Fenced text →
      Finds methodPattern (fun x => methodOfHead? window x.value) text.reverse (lines i) rest
        [locate i text.length]) (h : Fenced text) (rest : List Char) :
    Finds methodPattern (fun x => methodOfHead? window x.value) text.reverse (items.flatMap lines)
      rest (placed lines locate text.length items) := by
  induction items generalizing text with
  | nil => exact misses_nil.finds
  | cons i items ih =>
    have hrest := ih (fun j hj => hfinds j (List.mem_cons_of_mem _ hj)) (hlines i text)
    rw [List.reverse_append, List.length_append] at hrest
    exact (hfinds i List.mem_cons_self text _ h).append hrest

theorem occupied_placed (h : ∀ i position, Occupied [(locate i position).extent] position (lines i))
    (items : List ι) (position : Nat) :
    Occupied ((placed lines locate position items).map (·.extent)) position
      (items.flatMap lines) := by
  induction items generalizing position with
  | nil => exact occupied_of_misses misses_nil _ _
  | cons i items ih =>
    refine Occupied.append ((h i position).mono ?_) ((ih (position + (lines i).length)).mono ?_)
    · intro s hs
      simpa [placed] using .inl (List.mem_singleton.1 hs)
    · intro s hs
      exact List.mem_cons_of_mem _ hs

/-- Behind a fence and up to the last brace of the class, the methods are read where they stand. -/
theorem locatedMethods_placed {pre : List Char} (hpre : Fenced pre)
    (hmethod : Misses methodPattern pre) (hconstructor : Misses constructorPattern pre)
    (hlines : ∀ i text, Fenced (text ++ lines i))
    (hfinds : ∀ i ∈ items, ∀ text rest, Fenced text →
      Finds methodPattern (fun x => methodOfHead? window x.value) text.reverse (lines i) rest
        [locate i text.length])
    (hoccupied : ∀ i position, Occupied [(locate i position).extent] position (lines i))
    (className : String) :
    locatedMethods (pre ++ (items.flatMap lines ++ ['}', '\n'])) window className =
      placed lines locate pre.length items := by
  have hend : ∀ {α : Type} {gapped : Bool} {p : Pattern α}, LeadsOnly gapped ['('] p →
      Misses p ['}', '\n'] := fun hp =>
    Misses.cons (hp.misses_mark (by decide) (by decide)) (hp.misses_mark (by decide) (by decide))
  have hdeclared : declaredMethods (pre ++ (items.flatMap lines ++ ['}', '\n'])) window =
      placed lines locate pre.length items := by
    have hmethods := finds_placed hlines hfinds hpre (['}', '\n'] ++ [])
    rw [← List.append_nil pre.reverse] at hmethods
    have hall := Finds.append hmethod.finds
      (Finds.append hmethods (hend methodPattern_leadsOnly).finds)
    have hfound := hall.matchesIn (progress_methodPattern.eq_nil_at_end _)
    simpa [declaredMethods] using hfound
  have hknown : Occupied ((placed lines locate pre.length items).map (·.extent)) 0
      (pre ++ (items.flatMap lines ++ ['}', '\n'])) := by
    refine (occupied_of_misses hconstructor _ 0).append (Occupied.append ?_
      (occupied_of_misses (hend constructorPattern_leadsOnly) _ _))
    rw [Nat.zero_add]
    exact occupied_placed hoccupied items pre.length
  have hsorted := pairwise_declaredMethods (pre ++ (items.flatMap lines ++ ['}', '\n'])) window
  rw [hdeclared] at hsorted
  simp only [locatedMethods, hdeclared, bareConstructors_eq_nil hknown, List.append_nil]
  rw [sortBy_decide]
  exact (hsorted.imp Nat.le_of_lt).insertionSort_eq

end Placed

/-- What stands before the methods of a file. -/
def PlainUnit.preamble (u : PlainUnit) : List Char :=
  u.header ++ u.classLine ++ u.fields.flatMap PlainField.lines

theorem PlainUnit.text_eq (u : PlainUnit) :
    u.text = u.preamble ++ (u.methods.flatMap PlainMethod.lines ++ ['}', '\n']) := by
  simp only [PlainUnit.text, PlainUnit.preamble, PlainUnit.members, List.append_assoc]

/-- The methods of a plain file are read where they stand. -/
theorem locatedMethods_text (u : PlainUnit) (window : Option Int) (className : String) :
    locatedMethods u.text window className = located u.preamble.length u.methods := by
  have hmethod : Misses methodPattern u.preamble :=
    (member_misses_header methodPattern_leadsOnly u).append
      (Misses.flatMap fun f _ => method_misses_field f)
  have hconstructor : Misses constructorPattern u.preamble :=
    (member_misses_header constructorPattern_leadsOnly u).append
      (Misses.flatMap fun f _ => constructor_misses_field f)
  have hpre : Fenced u.preamble :=
    fenced_fields u.fields (u.fenced_classLine (wholeLines_header u))
  rw [u.text_eq]
  exact locatedMethods_placed hpre hmethod hconstructor PlainMethod.fenced
    (fun m _ _ rest h => finds_method m h window rest) occupied_method className

theorem map_method_located (position : Nat) (methods : List PlainMethod) :
    (located position methods).map (·.method) = methods.map PlainMethod.method := by
  refine map_placed (fun m position => ?_) position methods
  rfl

/-- The bodies of the methods lie behind the position where the first method's lines start. -/
theorem le_body_located {position : Nat} {methods : List PlainMethod} {m : LocatedMethod}
    (h : m ∈ located position methods) : position ≤ m.body.start := by
  induction methods generalizing position with
  | nil => exact absurd h List.not_mem_nil
  | cons first methods ih =>
    rcases List.mem_cons.1 h with rfl | h
    · simp only [PlainMethod.located]
      omega
    · have hle := ih h
      omega

end ClassAtlas.Plain
