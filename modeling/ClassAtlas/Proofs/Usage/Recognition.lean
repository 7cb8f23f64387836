import ClassAtlas.Proofs.Usage.Mining
import ClassAtlas.Proofs.Usage.Samples

/-! Samples are found again. A file that holds nothing but a sample has exactly one usage of the
method or the class that the sample was written for. -/

namespace ClassAtlas.Usage

open Pattern Source

variable {α : Type} {p : Pattern α}

theorem stops_isBlank_of_worded {w : List Char} (h : Worded w) (rest : List Char) :
    Stops Text.isBlank (w ++ rest) := by
  intro ch hch
  obtain ⟨x, hx, hword⟩ := h.head rest
  obtain rfl : x = ch := Option.some.inj (hx.symm.trans hch)
  exact Text.isBlank_of_isWord hword

theorem worded_reverse {w : List Char} (h : Worded w) : Worded w.reverse :=
  ⟨by simpa using h.1, by simpa using h.2⟩

/-! ### The call in a sample -/

/-- The characters of a call up to its opening parenthesis. -/
def isCallChar (c : Char) : Bool := Text.isWord c || Text.isBlank c || c == '.'

/-- Each reading starts with a word and reads on to a parenthesis. -/
def ReadsCall (p : Pattern α) : Prop :=
  ∀ c, ∀ r ∈ p c, ∃ s rest, startsWord s = true ∧ (∀ ch ∈ s, isCallChar ch = true) ∧
    c.after = s ++ '(' :: rest

theorem isCallChar_of_worded {w : List Char} (h : Worded w) : ∀ ch ∈ w, isCallChar ch = true := by
  intro ch hch
  simp [isCallChar, h.2 ch hch]

theorem isCallChar_of_blank {gap : List Char} (h : ∀ ch ∈ gap, Text.isBlank ch = true) :
    ∀ ch ∈ gap, isCallChar ch = true := by
  intro ch hch
  simp [isCallChar, h ch hch]

theorem callPattern_readsCall {methodName : String} (hname : Worded methodName.toList) :
    ReadsCall (callPattern methodName) := by
  intro c r hr
  obtain ⟨lead, gap, hlead, hblank, _, hread⟩ := mem_callPattern hr
  refine ⟨lead ++ (methodName.toList ++ gap), r.1.chars ++ ([')'] ++ r.2.after), ?_, ?_, ?_⟩
  · rcases hlead with ⟨rfl, _⟩ | ⟨w, hw, rfl⟩
    · exact hname.startsWord gap
    · rw [List.append_assoc]
      exact hw.startsWord _
  · have hfirst : ∀ ch ∈ lead, isCallChar ch = true := by
      rcases hlead with ⟨rfl, _⟩ | ⟨w, hw, rfl⟩
      · simp
      · exact List.forall_mem_append.2 ⟨isCallChar_of_worded hw, by decide⟩
    simp only [List.forall_mem_append]
    exact ⟨hfirst, isCallChar_of_worded hname, isCallChar_of_blank hblank⟩
  · rw [hread.after_eq]
    simp

theorem qualifiedCallPattern_readsCall {methodName : String} (hname : Worded methodName.toList) :
    ReadsCall (qualifiedCallPattern methodName) := by
  intro c r hr
  obtain ⟨gap₁, gap₂, gap₃, _, hw, hblank₁, hblank₂, hblank₃, hread⟩ :=
    mem_qualifiedCallPattern hr
  refine ⟨r.1.chars ++ (gap₁ ++ '.' :: (gap₂ ++ (methodName.toList ++ gap₃))), r.2.after,
    hw.startsWord _, ?_, ?_⟩
  · simp only [List.forall_mem_append, List.forall_mem_cons]
    exact ⟨isCallChar_of_worded hw, isCallChar_of_blank hblank₁, by decide,
      isCallChar_of_blank hblank₂, isCallChar_of_worded hname, isCallChar_of_blank hblank₃⟩
  · rw [hread.after_eq]
    simp

/-- A stretch with another character in it, and no parenthesis, is not read. -/
theorem ReadsCall.eq_nil_of_mem (hp : ReadsCall p) {s : List Char} {x : Char} (hx : x ∈ s)
    (hother : isCallChar x = false) (hopen : '(' ∉ s) (before rest : List Char) :
    p ⟨before, s ++ rest⟩ = [] := by
  rw [List.eq_nil_iff_forall_not_mem]
  intro r hr
  obtain ⟨call, more, _, hcall, heq⟩ := hp _ r hr
  have hnot : x ∉ call := by
    intro hmem
    rw [hcall x hmem] at hother
    simp at hother
  rcases List.append_eq_append_iff.1 heq with ⟨t, rfl, _⟩ | ⟨t, rfl, ht⟩
  · exact hnot (List.mem_append_left _ hx)
  · cases t with
    | nil => exact hnot (by simpa using hx)
    | cons ch t =>
      obtain rfl : '(' = ch := (List.cons.inj ht).1
      exact hopen (by simp)

theorem ReadsCall.eq_nil_of_not_word (hp : ReadsCall p) {x : Char} (hx : Text.isWord x = false)
    (before rest : List Char) : p ⟨before, x :: rest⟩ = [] := by
  rw [List.eq_nil_iff_forall_not_mem]
  intro r hr
  obtain ⟨call, more, hstart, _, heq⟩ := hp _ r hr
  cases call with
  | nil => simp [startsWord] at hstart
  | cons ch call =>
    obtain rfl : x = ch := (List.cons.inj heq).1
    simp [startsWord, hx] at hstart

theorem ReadsCall.eq_nil_at_end (hp : ReadsCall p) (before : List Char) : p ⟨before, []⟩ = [] := by
  rw [List.eq_nil_iff_forall_not_mem]
  intro r hr
  obtain ⟨call, more, _, _, heq⟩ := hp _ r hr
  simp at heq

/-- No call starts in what stands before the call of a sample. -/
theorem ReadsCall.misses_lead (hp : ReadsCall p) {lead : List Char} (h : Lead lead) :
    Misses p lead := by
  have hopen : '(' ∉ lead := h.not_mem (by decide) (by decide)
  cases h with
  | nothing => exact misses_nil
  | @kept type result htype hresult =>
    have hsplit : type ++ ' ' :: (result ++ [' ', '=', ' ']) =
        ((type ++ ' ' :: (result ++ [' '])) ++ ['=']) ++ [' '] := by simp
    rw [hsplit] at hopen ⊢
    refine Misses.append_left ?_ (misses_single fun _ _ => hp.eq_nil_of_not_word (by decide) _ _)
    intro s hs hne before rest
    -- the sign of assignment ends the stretch, and so each of its ends holds it
    have hequals : '=' ∈ s := by
      obtain ⟨t, rfl, _⟩ := (List.suffix_concat_iff.1 hs).resolve_left hne
      simp
    exact hp.eq_nil_of_mem hequals (by decide)
      (fun hmem => hopen (List.mem_append_left _ (hs.subset hmem))) _ _

section Call

variable {instanceChars args before rest : List Char} {methodName : String}
  (hinstance : Worded instanceChars)

include hinstance

theorem prefers_callPattern (hb : startsWord before = false) (hargs : ')' ∉ args) :
    (callPattern methodName).Prefers
      ⟨before, instanceChars ++ '.' :: (methodName.toList ++ '(' :: (args ++ ')' :: rest))⟩
      ⟨⟨'(' :: (methodName.toList.reverse ++ '.' :: (instanceChars.reverse ++ before)),
          args ++ ')' :: rest⟩,
        ⟨args.reverse ++ '(' ::
          (methodName.toList.reverse ++ '.' :: (instanceChars.reverse ++ before)), ')' :: rest⟩⟩
      ⟨')' :: (args.reverse ++
          '(' :: (methodName.toList.reverse ++ '.' :: (instanceChars.reverse ++ before))),
          rest⟩ := by
  have hopen : ∀ ch ∈ args, (ch != ')') = true := bne_of_not_mem hargs
  refine Prefers.bind (.of_eq (boundary_eq_single hb (hinstance.startsWord _))) ?_
  refine Prefers.bind (Prefers.maybe (Prefers.bind
    (.of_eq (run1_append hinstance.1 hinstance.2 (stops_cons (by decide))))
    (.of_eq (lit_append "." _ _)))) ?_
  refine Prefers.bind (.of_eq (lit_append methodName _ _)) ?_
  refine Prefers.bind (.of_eq (run_none (stops_cons (by decide)))) ?_
  refine Prefers.bind (.of_eq (lit_append "(" _ _)) ?_
  refine Prefers.bind (Prefers.of_eq (run_append hopen (stops_cons (by decide)))).captured ?_
  exact Prefers.bind (.of_eq (lit_append ")" _ rest)) (prefers_pure _ _)

theorem prefers_qualifiedCallPattern (hname : Worded methodName.toList)
    (hb : startsWord before = false) :
    (qualifiedCallPattern methodName).Prefers
      ⟨before, instanceChars ++ '.' :: (methodName.toList ++ '(' :: rest)⟩
      ⟨⟨before, instanceChars ++ '.' :: (methodName.toList ++ '(' :: rest)⟩,
        ⟨instanceChars.reverse ++ before, '.' :: (methodName.toList ++ '(' :: rest)⟩⟩
      ⟨'(' :: (methodName.toList.reverse ++ '.' :: (instanceChars.reverse ++ before)), rest⟩ := by
  refine Prefers.bind (.of_eq (boundary_eq_single hb (hinstance.startsWord _))) ?_
  refine Prefers.bind (Prefers.of_eq
    (run1_append hinstance.1 hinstance.2 (stops_cons (by decide)))).captured ?_
  refine Prefers.bind (.of_eq (run_none (stops_cons (by decide)))) ?_
  refine Prefers.bind (.of_eq (lit_append "." _ _)) ?_
  refine Prefers.bind (.of_eq (prefixes_of_stops (stops_isBlank_of_worded hname _) [])) ?_
  refine Prefers.bind (.of_eq (lit_append methodName _ _)) ?_
  refine Prefers.bind (.of_eq (run_none (stops_cons (by decide)))) ?_
  exact Prefers.bind (.of_eq (lit_append "(" _ rest)) (prefers_pure _ _)

/-- A line that holds a sample's call has no other one. -/
theorem calls_of_sample (hname : Worded methodName.toList) {lead : List Char} (hlead : Lead lead)
    (hargs : ')' ∉ args) :
    ((callPattern methodName).matchesIn (lead ++ (instanceChars ++ '.' :: (methodName.toList ++
      '(' :: (args ++ [')', ';']))))).map (·.value.text) = [String.ofList args] := by
  have hreads := callPattern_readsCall hname
  have hb : startsWord (lead.reverse ++ []) = false := by
    rw [List.append_nil]
    exact hlead.startsWord_reverse
  have htail : Misses (callPattern methodName) [';'] :=
    misses_single fun _ _ => hreads.eq_nil_of_not_word (by decide) _ _
  have hprefers : (callPattern methodName).Prefers ⟨lead.reverse ++ [],
      instanceChars ++ '.' :: (methodName.toList ++ '(' :: (args ++ ')' :: ([';'] ++ [])))⟩ _ _ :=
    prefers_callPattern hinstance hb hargs
  have hcall := hprefers.finds (g := fun m => some m.value.text)
    (instanceChars ++ '.' :: (methodName.toList ++ '(' :: (args ++ [')']))) (by simp) (by simp)
    (by simp)
  simp only [Excerpt.text_append] at hcall
  have hall := (hreads.misses_lead hlead).finds.append (hcall.append htail.finds)
  have hfound := Finds.matchesIn hall (hreads.eq_nil_at_end _)
  rw [List.filterMap_eq_map'] at hfound
  simpa using hfound

end Call

/-- Both rules accept the line of a sample. -/
theorem isLikelyCall_of_sample (acceptance : UsageAcceptance) {className methodName line : String}
    {lead rest : List Char} (hclass : isIdentifier className.toList = true)
    (hname : isIdentifier methodName.toList = true) (hlead : Lead lead)
    (hline : line.toList =
      lead ++ ((instanceName className).toList ++ '.' :: (methodName.toList ++ '(' :: rest))) :
    isLikelyCall acceptance className methodName line = true := by
  have hword := worded_of_isIdentifier hname
  have hinstance := worded_instanceName hclass
  have hmention : Text.occursIn (Text.lower methodName) (Text.lower line) = true := by
    rw [Text.occursIn_iff, Text.toList_lower, Text.toList_lower]
    refine Text.infix_lowerChars ?_ ?_
    · intro hmem
      exact absurd (isIdentifierChar_of_mem hname hmem) (by decide)
    · rw [hline]
      exact ⟨lead ++ ((instanceName className).toList ++ ['.']), '(' :: rest, by simp⟩
  simp only [isLikelyCall, hmention, Bool.true_and]
  cases acceptance with
  | permissive =>
    have hdot := Text.occursIn_dot (s := line) (by simp [hline])
    simp [hdot]
  | strict =>
    have hb : startsWord lead.reverse = false := hlead.startsWord_reverse
    have hmissed := (qualifiedCallPattern_readsCall hword).misses_lead hlead
    have hcall : (qualifiedCallPattern methodName).Prefers ⟨lead.reverse,
        (instanceName className).toList ++ '.' :: (methodName.toList ++ '(' :: rest)⟩ _ _ :=
      prefers_qualifiedCallPattern hinstance hword hb
    obtain ⟨more, hfirst⟩ := hcall.matchesIn hmissed (by simp)
    simp [hline, hfirst]

/-! ### Usages of a method -/

section Method

variable {c : JavaClass} {m : Method} (h : PlainlyNamed c m)

include h

/-- The line of a basic sample is accepted, and it holds one call, which has the sample's
arguments. -/
theorem calls_basicSample (acceptance : UsageAcceptance) :
    isLikelyCall acceptance c.name m.name (basicSample c m).snippet = true ∧
      ∃ call, (callPattern m.name).matchesIn (basicSample c m).snippet.toList = [call] ∧
        arguments call.value.text = (basicSample c m).parameters := by
  obtain ⟨lead, hlead, hsnippet⟩ := h.toList_basicSample
  have hcalls := calls_of_sample (worded_instanceName h.className)
    (worded_of_isIdentifier h.methodName) hlead (not_mem_intercalate h.isArgument_values (.inl rfl))
  rw [← hsnippet, String.ofList_toList] at hcalls
  obtain ⟨call, hcall, htext⟩ := List.map_eq_singleton_iff.1 hcalls
  refine ⟨isLikelyCall_of_sample acceptance h.className h.methodName hlead hsnippet, call,
    hcall, ?_⟩
  rw [htext, arguments_intercalate h.isArgument_values]
  rfl

/-- A file that holds a basic sample has one usage of its method. -/
theorem methodUsages_basicSample (settings : Settings) {load : Loader} {d : JavaClass}
    (hother : d.name ≠ c.name) (hload : (load d.filePath).value = .text (basicSample c m).snippet)
    (edges : List Relationship) :
    (methodUsages settings load ⟨[d], edges⟩ c.name m.name).value =
      [⟨d.filePath, d.name, m.name, 1, (basicSample c m).snippet,
        contextOf settings.contextRadius [(basicSample c m).snippet] 0,
        (basicSample c m).parameters⟩] := by
  obtain ⟨haccepted, call, hcall, harguments⟩ := calls_basicSample h settings.usageAcceptance
  rw [value_methodUsages, otherSources_single hother hload, h.lines_basicSample]
  simp only [List.flatMap_singleton, methodUsagesIn_eq, List.zipIdx_singleton, haccepted, if_true,
    hcall, List.map_singleton, harguments, SourceLines.usage, h.trim_basicSample]
  rfl

end Method

/-! ### Usages of a class -/

theorem needs_gap : gap.Needs Text.isBlank := (needs_one Text.isBlank).bind_left

theorem within_typeArguments : (maybe typeArguments).Within anyChar := by
  refine Within.maybe ((within_lit fun _ _ => rfl).bind fun _ => ?_)
  exact (within_run _).forward.bind fun _ => within_lit fun _ _ => rfl

/-- A line without a blank uses no class. -/
theorem usesClass_eq_false {line : String} (h : ∀ ch ∈ line.toList, Text.isBlank ch = false)
    (className : String) : usesClass className line = false := by
  have hlit : ∀ s, (lit s).Within anyChar := fun s => within_lit fun _ _ => rfl
  have hone : ∀ names, (oneOf names).Within anyChar := fun names => within_oneOf fun _ _ _ _ => rfl
  have hbound : boundary.Within anyChar := within_require _
  have hinjection : (injectionPattern className).Needs Text.isBlank :=
    .bind_right (hlit _) fun _ => .bind_right (hone _) fun _ => needs_gap.bind_left
  have hmember : (memberPattern className).Needs Text.isBlank :=
    .bind_right hbound fun _ => .bind_right (hone _) fun _ => needs_gap.bind_left
  have hcreation : (creationPattern className).Needs Text.isBlank :=
    .bind_right hbound fun _ => .bind_right (hlit _) fun _ => needs_gap.bind_left
  have hassignment : (assignmentPattern className).Needs Text.isBlank :=
    .bind_right hbound fun _ => .bind_right (hlit _) fun _ => .bind_right hbound fun _ =>
      .bind_right within_typeArguments fun _ => (needs_one Text.isBlank).bind_left.bind_left
  simp only [usesClass, List.any_cons, List.any_nil, hinjection.occurs_eq_false h,
    hmember.occurs_eq_false h, hcreation.occurs_eq_false h, hassignment.occurs_eq_false h,
    Bool.or_self]

section Class

variable {className line : String} (hclass : Worded className.toList)

include hclass

/-- A line that creates an instance uses the class. -/
theorem usesClass_of_creation {before : List Char}
    (hline : line.toList =
      before ++ ("new".toList ++ ([' '] ++ (className.toList ++ "();".toList))))
    (hb : startsWord before.reverse = false) : usesClass className line = true := by
  have hangle : ¬"<".toList <+: "();".toList := by decide
  have hread : (creationPattern className).Prefers
      ⟨before.reverse, "new".toList ++ ([' '] ++ (className.toList ++ "();".toList))⟩ ()
      ⟨"(".toList.reverse ++ (className.toList.reverse ++ ([' '].reverse ++
        ("new".toList.reverse ++ before.reverse))), ");".toList⟩ := by
    refine Prefers.bind (.of_eq (boundary_eq_single hb rfl)) ?_
    refine Prefers.bind (.of_eq (lit_append "new" _ _)) ?_
    refine Prefers.bind (prefers_many1 (by simp) (by decide) (stops_isBlank_of_worded hclass _)) ?_
    refine Prefers.bind (.of_eq (lit_append className _ _)) ?_
    refine Prefers.bind (.of_eq (run_none (stops_cons (by decide)))) ?_
    refine Prefers.bind (.of_eq (maybe_eq_single (bind_eq_nil (lit_eq_nil hangle)))) ?_
    refine Prefers.bind (.of_eq (run_none (stops_cons (by decide)))) ?_
    exact .of_eq (lit_append "(" _ ");".toList)
  have hoccurs := occurs_of_mem hread.mem
  rw [List.reverse_reverse, ← hline] at hoccurs
  simp [usesClass, hoccurs]

/-- A line that declares a private member uses its class. -/
theorem usesClass_of_member {member : List Char} (hmember : Worded member)
    (hline : line.toList =
      "private".toList ++ ([' '] ++ (className.toList ++ ([' '] ++ (member ++ [';']))))) :
    usesClass className line = true := by
  have hend : startsWord (className.toList.reverse ++ ([' '].reverse ++ "private".toList.reverse)) =
      true := (worded_reverse hclass).startsWord _
  have hread : ((), (⟨member.reverse ++ ([' '].reverse ++ (className.toList.reverse ++
      ([' '].reverse ++ "private".toList.reverse))), [';']⟩ : Cursor)) ∈
      memberPattern className ⟨[], line.toList⟩ := by
    rw [hline]
    refine mem_bind_of_mem (Prefers.of_eq (boundary_eq_single rfl rfl)).mem ?_
    refine mem_bind_of_mem (Prefers.of_eq (lit_append "private" _ _)).orElse.mem ?_
    refine mem_bind_of_mem
      (prefers_many1 (by simp) (by decide) (stops_isBlank_of_worded hclass _)).mem ?_
    -- The class may be called as if a modifier came first, so the modifiers are skipped.
    refine mem_bind_of_mem (mem_maybe.2 (.inr rfl)) ?_
    refine mem_bind_of_mem (mem_maybe.2 (.inr rfl)) ?_
    refine mem_bind_of_mem (Prefers.of_eq (lit_append className _ _)).mem ?_
    refine mem_bind_of_mem (Prefers.of_eq (boundary_at_end hend rfl)).mem ?_
    refine mem_bind_of_mem (mem_maybe.2 (.inr rfl)) ?_
    refine mem_bind_of_mem (Prefers.of_eq
      (run1_append (by simp) (by decide) (stops_isBlank_of_worded hmember _))).mem ?_
    exact (Prefers.of_eq (run1_append hmember.1 hmember.2 (stops_cons (by decide)))).mem
  have hoccurs := occurs_of_mem hread
  simp only [List.reverse_nil, List.nil_append] at hoccurs
  simp [usesClass, hoccurs]

end Class

/-- The last line of a text, and no other, uses a class, and it needs no trimming. -/
def EndsInUse (className text : String) : Prop :=
  ∃ above line, Text.lines text = above ++ [line] ∧ (∀ l ∈ above, usesClass className l = false) ∧
    usesClass className line = true ∧ Text.trim line = line

section Samples

variable {c : JavaClass} (h : isIdentifier c.name.toList = true)

include h

theorem endsInUse_constructorSample : EndsInUse c.name (constructorSample c).snippet := by
  have hclass := worded_of_isIdentifier h
  obtain ⟨lead, hlead, hline⟩ : ∃ lead, Lead lead ∧ (constructorSample c).snippet.toList =
      lead ++ ("new".toList ++ ([' '] ++ (c.name.toList ++ "();".toList))) :=
    ⟨_, .kept hclass (worded_instanceName h), by simp [constructorSample]⟩
  refine ⟨[], (constructorSample c).snippet, lines_eq_single ?_, by simp,
    usesClass_of_creation hclass hline hlead.startsWord_reverse, ?_⟩
  · rw [hline]
    simp only [List.mem_append, not_or]
    exact ⟨hlead.not_mem (by decide) (by decide), by decide, by decide,
      not_mem_of_worded hclass (by decide), by decide⟩
  · have hcore : (constructorSample c).snippet.toList =
        (lead ++ ("new".toList ++ ([' '] ++ (c.name.toList ++ "()".toList)))) ++ [';'] := by
      rw [hline]
      simp
    refine trim_statement hcore ?_
    rw [hline]
    exact hlead.append_starts rfl

theorem endsInUse_injectionSample (role : RolePattern) :
    EndsInUse c.name (injectionSample c role).snippet := by
  have hclass := worded_of_isIdentifier h
  have hinstance := worded_instanceName h
  let member := "private".toList ++ ([' '] ++ (c.name.toList ++ ([' '] ++
    ((instanceName c.name).toList ++ [';']))))
  have hsnippet : (injectionSample c role).snippet.toList =
      "@Autowired".toList ++ '\n' :: member := by
    simp [injectionSample, member]
  have hmember : '\n' ∉ member := by
    simp only [member, List.mem_append, not_or]
    exact ⟨by decide, by decide, not_mem_of_worded hclass (by decide), by decide,
      not_mem_of_worded hinstance (by decide), by decide⟩
  refine ⟨["@Autowired"], String.ofList member, ?_, ?_, ?_, ?_⟩
  · rw [Text.lines, Text.splitAt, hsnippet, List.splitOn_append_cons_self_of_not_mem (by decide),
      List.splitOn_eq_singleton hmember]
    rfl
  · intro l hl
    obtain rfl := List.mem_singleton.1 hl
    exact usesClass_eq_false (by decide) _
  · exact usesClass_of_member hclass hinstance (String.toList_ofList)
  · have hcore : (String.ofList member).toList = ("private".toList ++ ([' '] ++ (c.name.toList ++
        ([' '] ++ (instanceName c.name).toList)))) ++ [';'] := by
      rw [String.toList_ofList]
      simp [member]
    refine trim_statement hcore ?_
    rw [String.toList_ofList]
    rfl

/-- A class has one sample, which ends in a use of the class. -/
theorem exists_classSample :
    ∃ sample, classSamples c = [sample] ∧ EndsInUse c.name sample.snippet := by
  cases hroles : c.rolePatterns with
  | nil => exact ⟨constructorSample c, by rw [classSamples, hroles], endsInUse_constructorSample h⟩
  | cons role roles =>
    exact ⟨injectionSample c role, by rw [classSamples, hroles], endsInUse_injectionSample h role⟩

end Samples

theorem EndsInUse.classUsages {className content : String} (h : EndsInUse className content)
    (settings : Settings) (hlimit : ∀ n ∈ settings.classUsageLimit, 1 ≤ n) {load : Loader}
    {d : JavaClass} (hother : d.name ≠ className) (hload : (load d.filePath).value = .text content)
    (edges : List Relationship) :
    ∃ u, (classUsages settings load ⟨[d], edges⟩ className).value = [u] ∧
      u.lineNumber = (Text.lines content).length ∧
      (Text.lines content).getLast? = some u.snippet := by
  obtain ⟨above, line, hlines, habove, hline, htrim⟩ := h
  let source : SourceLines := ⟨d.filePath, d.name, Text.lines content⟩
  refine ⟨source.usage settings.contextRadius classUsageTag line above.length [], ?_, ?_, ?_⟩
  · rw [value_classUsages, otherSources_single hother hload, List.flatMap_singleton,
      classUsagesIn_of_last settings hlines habove hline, takeUpTo_single hlimit]
  · simp [SourceLines.usage, hlines]
  · simp [SourceLines.usage, hlines, htrim]

/-- A sample that is taken for a source is found again, whichever calls are accepted. A basic sample
is one usage of its method, with the sample's arguments, and the sample of a class is one usage of
the class, in the sample's last line. -/
theorem usages_of_samples (settings : Settings) (load : Loader) (edges : List Relationship)
    {c d : JavaClass} {m : Method} (h : PlainlyNamed c m) (hother : d.name ≠ c.name) :
    ((load d.filePath).value = .text (basicSample c m).snippet →
      ∃ u, (methodUsages settings load ⟨[d], edges⟩ c.name m.name).value = [u] ∧
        u.snippet = (basicSample c m).snippet ∧ u.parameters = (basicSample c m).parameters) ∧
    ∃ sample, classSamples c = [sample] ∧
      ((load d.filePath).value = .text sample.snippet →
        (∀ n ∈ settings.classUsageLimit, 1 ≤ n) →
        ∃ u, (classUsages settings load ⟨[d], edges⟩ c.name).value = [u] ∧
          u.lineNumber = (Text.lines sample.snippet).length ∧
          (Text.lines sample.snippet).getLast? = some u.snippet) := by
  constructor
  · intro hload
    exact ⟨_, methodUsages_basicSample h settings hother hload edges, rfl, rfl⟩
  · obtain ⟨sample, hsample, huse⟩ := exists_classSample h.className
    refine ⟨sample, hsample, fun hload hlimit => ?_⟩
    exact huse.classUsages settings hlimit hother hload edges

/-- A text, a number and an object are passed, and the result is kept. -/
def placing : Method where
  name := "place"
  returnType := "Receipt"
  parameters := [⟨"String", "userEmail"⟩, ⟨"long", "count"⟩, ⟨"Cart", "cart"⟩]
  annotations := []
  visibility := "public"
  isStatic := false
  calls := .empty
  endpoint := none

theorem usages_of_samples_placing :
    let settings := { Settings.default with usageAcceptance := .strict }
    let atlas : Atlas := ⟨[bareClass "Checkout" "Checkout.java"], []⟩
    let call := "Receipt result = orders.place(\"user@example.com\", 10L, cart);"
    let creation := "Orders orders = new Orders();"
    (∃ u, (methodUsages settings (everywhere call) atlas "Orders" "place").value = [u] ∧
      u.snippet = call ∧ u.parameters = ["\"user@example.com\"", "10L", "cart"]) ∧
    ∃ u, (classUsages settings (everywhere creation) atlas "Orders").value = [u] ∧
      u.lineNumber = 1 ∧ u.snippet = creation := by
  intro settings atlas call creation
  let orders := bareClass "Orders" "Orders.java"
  have hplain : PlainlyNamed orders placing :=
    ⟨by decide, by decide, by decide, by decide⟩
  have hother : (bareClass "Checkout" "Checkout.java").name ≠ orders.name := by decide
  have hcall : (basicSample orders placing).snippet = call := by decide +kernel
  have hvalues : (basicSample orders placing).parameters =
      ["\"user@example.com\"", "10L", "cart"] := by decide +kernel
  have hcreation : (constructorSample orders).snippet = creation := by decide +kernel
  have hlines : Text.lines creation = [creation] := by decide +kernel
  constructor
  · have hfound := (usages_of_samples settings (everywhere call) [] hplain hother).1
    rw [hcall, hvalues] at hfound
    exact hfound rfl
  · obtain ⟨sample, hsample, hfound⟩ :=
      (usages_of_samples settings (everywhere creation) [] hplain hother).2
    obtain rfl : constructorSample orders = sample := List.head_eq_of_cons_eq hsample
    rw [hcreation, hlines] at hfound
    obtain ⟨u, hu, hnumber, hlast⟩ := hfound rfl (by decide)
    exact ⟨u, hu, hnumber, (Option.some.inj hlast).symm⟩

end ClassAtlas.Usage
