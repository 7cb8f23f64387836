import ClassAtlas.Proofs.Plain.Unit
import ClassAtlas.Proofs.Source.LinesAbove
import ClassAtlas.Usage.Mining
import ClassAtlas.Usage.Samples

/-! The text of samples. For parameters whose types are identifiers, the values that are made up can
be told apart in an argument list again, and a call stands on one line that starts and ends with a
character that is not blank. -/

namespace ClassAtlas.Usage

open Pattern Source

/-! ### Identifiers -/

def isIdentifierChar (c : Char) : Bool := c.isAlphanum || c == '_'

/-- A letter or an underscore, then letters, digits and underscores, all of them in ASCII. -/
def isIdentifier : List Char → Bool
  | [] => false
  | c :: rest => (c.isAlpha || c == '_') && rest.all isIdentifierChar

theorem toNat_lt_of_isIdentifierChar {c : Char} (h : isIdentifierChar c = true) :
    c.toNat < 128 := by
  rcases Bool.or_eq_true_iff.1 h with h | h
  · exact Plain.toNat_lt_of_isAlphanum h
  · obtain rfl := eq_of_beq h
    decide

theorem isWord_of_isIdentifierChar {c : Char} (h : isIdentifierChar c = true) :
    Text.isWord c = true := by
  rw [Text.isWord, if_pos (toNat_lt_of_isIdentifierChar h)]
  exact h

theorem isIdentifierChar_toLower {c : Char} (h : isIdentifierChar c = true) :
    isIdentifierChar c.toLower = true := by
  have hall : ∀ n < 128, isIdentifierChar (Char.ofNat n) = true →
      isIdentifierChar (Char.ofNat n).toLower = true := by decide
  have hc := hall c.toNat (toNat_lt_of_isIdentifierChar h)
  rw [Char.ofNat_toNat] at hc
  exact hc h

section Identifier

variable {s : String} (h : isIdentifier s.toList = true)

include h

theorem isIdentifierChar_of_mem {ch : Char} (hch : ch ∈ s.toList) : isIdentifierChar ch = true := by
  cases hs : s.toList with
  | nil => simp [hs] at hch
  | cons c rest =>
    simp only [hs, isIdentifier, Bool.and_eq_true, List.all_eq_true] at h
    rw [hs] at hch
    rcases List.mem_cons.1 hch with rfl | hch
    · have hfirst := h.1
      simp only [isIdentifierChar, Char.isAlphanum, Bool.or_eq_true] at hfirst ⊢
      exact hfirst.imp_left .inl
    · exact h.2 ch hch

theorem worded_of_isIdentifier : Worded s.toList := by
  refine ⟨?_, fun ch hch => isWord_of_isIdentifierChar (isIdentifierChar_of_mem h hch)⟩
  intro hnil
  simp [hnil, isIdentifier] at h

theorem worded_instanceName : Worded (instanceName s).toList := by
  have hchars : ∀ ch ∈ s.toList, isIdentifierChar ch = true :=
    fun ch hch => isIdentifierChar_of_mem h hch
  have hne := (worded_of_isIdentifier h).1
  unfold instanceName
  cases hs : s.toList with
  | nil => exact absurd hs hne
  | cons c rest =>
    have hc : isIdentifierChar c = true := hchars c (by simp [hs])
    have hsmall : Text.lowerChars [c] = [c.toLower] := by
      simp [Text.lowerChars, Text.lowerFrom, Text.lowerChar, toNat_lt_of_isIdentifierChar hc]
    dsimp only
    rw [hsmall, String.toList_ofList]
    refine ⟨by simp, ?_⟩
    intro ch hch
    rcases List.mem_cons.1 hch with rfl | hch
    · exact isWord_of_isIdentifierChar (isIdentifierChar_toLower hc)
    · exact isWord_of_isIdentifierChar (hchars ch (by rw [hs]; exact List.mem_cons_of_mem _ hch))

end Identifier

/-! ### Values for parameters -/

/-- A text that an argument list can hold: it is not empty, has no blank at its ends, and no comma,
no closing parenthesis and no line end in it. -/
def isArgument (text : List Char) : Bool :=
  !text.isEmpty && text.head?.all (!Text.isBlank ·) && text.getLast?.all (!Text.isBlank ·) &&
    text.all fun ch => ch != ',' && ch != ')' && ch != '\n'

theorem isArgument_of_worded {text : List Char} (h : Worded text) : isArgument text = true := by
  have hblank : ∀ ch ∈ text, Text.isBlank ch = false :=
    fun ch hch => Text.isBlank_of_isWord (h.2 ch hch)
  have hmark : ∀ ch ∈ text, (ch ≠ ',' ∧ ch ≠ ')') ∧ ch ≠ '\n' := by
    intro ch hch
    have hword := h.2 ch hch
    refine ⟨⟨?_, ?_⟩, ?_⟩ <;> rintro rfl <;> exact absurd hword (by decide)
  simp only [isArgument, Bool.and_eq_true, List.all_eq_true, bne_iff_ne]
  refine ⟨⟨⟨by simpa using h.1, ?_⟩, ?_⟩, hmark⟩
  · cases text with
    | nil => rfl
    | cons c rest => simpa using hblank c List.mem_cons_self
  · cases hl : text.getLast? with
    | none => rfl
    | some c => simpa using hblank c (List.mem_of_getLast? hl)

theorem hinted_mem (hints : List (String × String)) (default name : String) :
    hinted hints default name ∈ default :: hints.map (·.2) := by
  unfold hinted
  split
  · next hint value hfound =>
    exact List.mem_cons_of_mem _ (List.mem_map.2 ⟨_, List.mem_of_find?_eq_some hfound, rfl⟩)
  · exact List.mem_cons_self

theorem isArgument_stringValue (name : String) :
    isArgument ('"' :: ((stringValue name).toList ++ ['"'])) = true := by
  have hall : ∀ v ∈ ["example", "John Doe", "user@example.com", "12345", "https://example.com",
      "/api/users", "Hello World"], isArgument ('"' :: (v.toList ++ ['"'])) = true := by decide
  exact hall _ (hinted_mem _ _ name)

theorem isArgument_integerValue (name : String) :
    isArgument (integerValue name).toList = true ∧
      isArgument ((integerValue name).toList ++ ['L']) = true := by
  have hall : ∀ v ∈ ["1", "1", "10", "100", "0"],
      isArgument v.toList = true ∧ isArgument (v.toList ++ ['L']) = true := by decide
  exact hall _ (hinted_mem _ _ name)

theorem isArgument_valueFor {type : String} (htype : isIdentifier type.toList = true)
    (hplain : Text.lower type ∉ ["date", "list", "arraylist"]) (name : String) :
    isArgument (valueFor type name).toList = true := by
  unfold valueFor
  dsimp only
  split
  · simpa using isArgument_stringValue name
  split
  · exact (isArgument_integerValue name).1
  split
  · simpa using (isArgument_integerValue name).2
  split
  · decide
  split
  · decide
  split
  · next hdate => exact absurd (eq_of_beq hdate ▸ by simp) hplain
  split
  · next hlist =>
    rcases Bool.or_eq_true_iff.1 hlist with h | h
    · exact absurd (eq_of_beq h ▸ by simp) hplain
    · exact absurd (eq_of_beq h ▸ by simp) hplain
  · exact isArgument_of_worded (worded_instanceName htype)

/-! ### Argument lists -/

theorem part_of_isArgument {text : List Char} (h : isArgument text = true) : Text.Part text := by
  simp only [isArgument, Bool.and_eq_true, List.all_eq_true] at h
  obtain ⟨⟨⟨hne, hfirst⟩, hlast⟩, hmarks⟩ := h
  refine ⟨by simpa using hne, ⟨?_, ?_⟩, ?_⟩
  · intro ch hch
    rw [Option.mem_def.1 hch] at hfirst
    simpa using hfirst
  · intro ch hch
    rw [List.head?_reverse] at hch
    rw [Option.mem_def.1 hch] at hlast
    simpa using hlast
  · intro hcomma
    simpa using hmarks _ hcomma

theorem arguments_eq (text : String) :
    arguments text = (text.toList.splitOn ',').filterMap Text.part? := by
  have hpiece : ∀ pieces : List (List Char),
      ((pieces.map String.ofList).map Text.trim).filter (!·.isEmpty) =
        pieces.filterMap Text.part? := by
    intro pieces
    induction pieces with
    | nil => rfl
    | cons piece pieces ih =>
      rw [List.filterMap_cons, ← ih, Text.part?]
      cases hp : Text.trimChars piece with
      | nil => simp [Text.trim, hp]
      | cons ch chars => simp [Text.trim, hp]
  exact hpiece _

/-- The arguments of a list are the values that it was made from. -/
theorem arguments_intercalate {values : List String}
    (h : ∀ v ∈ values, isArgument v.toList = true) :
    arguments (", ".intercalate values) = values := by
  rw [arguments_eq]
  exact Plain.filterMap_part?_intercalate fun v hv => part_of_isArgument (h v hv)

/-- The list holds no closing parenthesis and no line end, since no value does. -/
theorem not_mem_intercalate {values : List String}
    (h : ∀ v ∈ values, isArgument v.toList = true) {ch : Char} (hch : ch = ')' ∨ ch = '\n') :
    ch ∉ (", ".intercalate values).toList := by
  rw [Plain.toList_intercalate]
  intro hmem
  have hall : ∀ x ∈ Plain.commaList (values.map String.toList), x ≠ ')' ∧ x ≠ '\n' := by
    refine Plain.forall_mem_joined _ (by decide) ?_
    intro item hitem x hx
    obtain ⟨v, hv, rfl⟩ := List.mem_map.1 hitem
    have hv := h v hv
    simp only [isArgument, Bool.and_eq_true, List.all_eq_true, bne_iff_ne] at hv
    exact ⟨(hv.2 x hx).1.2, (hv.2 x hx).2⟩
  rcases hch with rfl | rfl
  · exact (hall _ hmem).1 rfl
  · exact (hall _ hmem).2 rfl

/-! ### Statements -/

/-- A statement starts with a word and ends in a semicolon, so there is nothing to trim. -/
theorem trim_statement {s : String} {core : List Char} (hs : s.toList = core ++ [';'])
    (hword : startsWord s.toList = true) : Text.trim s = s := by
  have htrim : Text.trimChars ([] ++ (s.toList ++ [])) = s.toList := by
    refine Text.trimChars_append (by simp) (by simp) (by simp [hs]) ?_ ?_
    · cases hl : s.toList with
      | nil => exact stops_nil
      | cons ch rest =>
        rw [hl] at hword
        exact stops_cons (Text.isBlank_of_isWord hword)
    · rw [hs, List.reverse_append]
      exact stops_cons (by decide)
  rw [List.nil_append, List.append_nil] at htrim
  rw [Text.trim, htrim, String.ofList_toList]

theorem lines_eq_single {s : String} (h : '\n' ∉ s.toList) : Text.lines s = [s] := by
  rw [Text.lines, Text.splitAt, List.splitOn_eq_singleton h]
  simp

/-! ### Calls in samples -/

/-- What may stand before the call of a sample: nothing, or the variable that keeps its result. -/
inductive Lead : List Char → Prop where
  | nothing : Lead []
  | kept {type result : List Char} (htype : Worded type) (hresult : Worded result) :
      Lead (type ++ ' ' :: (result ++ [' ', '=', ' ']))

theorem Lead.startsWord_reverse {lead : List Char} (h : Lead lead) :
    startsWord lead.reverse = false := by
  cases h with
  | nothing => rfl
  | kept _ _ =>
    have hspace : Text.isWord ' ' = false := by decide
    simpa [startsWord] using hspace

theorem Lead.not_mem {lead : List Char} (h : Lead lead) {ch : Char}
    (hword : Text.isWord ch = false) (hother : ch ≠ ' ' ∧ ch ≠ '=') : ch ∉ lead := by
  cases h with
  | nothing => exact List.not_mem_nil
  | @kept type result htype hresult =>
    simp [not_mem_of_worded htype hword, not_mem_of_worded hresult hword, hother.1, hother.2]

theorem Lead.append_starts {lead call : List Char} (h : Lead lead)
    (hcall : startsWord call = true) : startsWord (lead ++ call) = true := by
  cases h with
  | nothing => exact hcall
  | kept htype _ =>
    rw [List.append_assoc]
    exact htype.startsWord _

theorem worded_resultName (returnType : String) : Worded (resultName returnType).toList := by
  have hall : ∀ v ∈ ["result", "items", "response", "user"], Worded v.toList := by decide
  exact hall _ (hinted_mem _ _ returnType)

theorem toList_callStatement (c : JavaClass) (m : Method) :
    (callStatement c m).toList = (instanceName c.name).toList ++ '.' :: (m.name.toList ++
      '(' :: ((", ".intercalate (argumentValues m)).toList ++ [')', ';'])) := by
  simp only [callStatement, String.toList_append, List.append_assoc]
  rfl

/-- The names and types of a class's method are identifiers, a constructor's missing return type
apart, and no parameter is a date or a list. -/
structure PlainlyNamed (c : JavaClass) (m : Method) : Prop where
  className : isIdentifier c.name.toList = true
  methodName : isIdentifier m.name.toList = true
  returnType : m.returnType = "" ∨ isIdentifier m.returnType.toList = true
  parameters : ∀ p ∈ m.parameters, isIdentifier p.type.toList = true ∧
    Text.lower p.type ∉ ["date", "list", "arraylist"]

namespace PlainlyNamed

variable {c : JavaClass} {m : Method} (h : PlainlyNamed c m)

include h

theorem isArgument_values : ∀ v ∈ argumentValues m, isArgument v.toList = true := by
  intro v hv
  obtain ⟨p, hp, rfl⟩ := List.mem_map.1 hv
  exact isArgument_valueFor (h.parameters p hp).1 (h.parameters p hp).2 p.name

/-- A basic sample is a call, with a variable before it when there is a result. -/
theorem toList_basicSample : ∃ lead, Lead lead ∧ (basicSample c m).snippet.toList =
    lead ++ ((instanceName c.name).toList ++ '.' :: (m.name.toList ++
      '(' :: ((", ".intercalate (argumentValues m)).toList ++ [')', ';']))) := by
  rw [← toList_callStatement]
  by_cases hnothing : returnsNothing m = true
  · refine ⟨[], .nothing, ?_⟩
    simp [basicSample, hnothing]
  · have htype : isIdentifier m.returnType.toList = true := by
      refine h.returnType.resolve_left fun hempty => hnothing ?_
      simp [returnsNothing, hempty]
    refine ⟨_, .kept (worded_of_isIdentifier htype) (worded_resultName m.returnType), ?_⟩
    simp [basicSample, hnothing]

theorem lines_basicSample : Text.lines (basicSample c m).snippet = [(basicSample c m).snippet] := by
  obtain ⟨lead, hlead, hsnippet⟩ := h.toList_basicSample
  have hargs := not_mem_intercalate h.isArgument_values (.inr rfl)
  apply lines_eq_single
  rw [hsnippet]
  simp only [List.mem_append, List.mem_cons, not_or]
  exact ⟨hlead.not_mem (by decide) (by decide),
    not_mem_of_worded (worded_instanceName h.className) (by decide), by decide,
    not_mem_of_worded (worded_of_isIdentifier h.methodName) (by decide), by decide, hargs,
    by decide, by decide, List.not_mem_nil⟩

theorem trim_basicSample : Text.trim (basicSample c m).snippet = (basicSample c m).snippet := by
  obtain ⟨lead, hlead, hsnippet⟩ := h.toList_basicSample
  have hcore : (basicSample c m).snippet.toList =
      (lead ++ ((instanceName c.name).toList ++ '.' :: (m.name.toList ++
        '(' :: ((", ".intercalate (argumentValues m)).toList ++ [')'])))) ++ [';'] := by
    rw [hsnippet]
    simp
  apply trim_statement hcore
  rw [hsnippet]
  exact hlead.append_starts ((worded_instanceName h.className).startsWord _)

end PlainlyNamed

end ClassAtlas.Usage
