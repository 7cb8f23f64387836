import Mathlib.Data.List.Flatten
import ClassAtlas.Proofs.Source.Keywords
import ClassAtlas.Proofs.StableSort
import ClassAtlas.Usage.Mining

/-! Where mined usages come from: the sources that are searched, the calls that stand in a line, and
the line that a usage points at. -/

namespace ClassAtlas.Text

theorem occursInChars_iff {part text : List Char} :
    occursInChars part text = true ↔ part <:+: text := by
  induction text with
  | nil => simp [occursInChars]
  | cons c rest ih =>
    rw [occursInChars, Bool.or_eq_true, ih, List.isPrefixOf_iff_prefix, List.infix_cons_iff]

theorem occursIn_iff {part s : String} : occursIn part s = true ↔ part.toList <:+: s.toList :=
  occursInChars_iff

@[simp] theorem toList_lower (s : String) : (lower s).toList = lowerChars s.toList :=
  String.toList_ofList

/-- Only a sigma is lowered with an eye to what stands around it. -/
theorem lowerChar_eq {c : Char} (h : c ≠ 'Σ') (before after : List Char) :
    lowerChar before c after = lowerChar [] c [] := by
  simp [lowerChar, h]

theorem exists_lowerFrom_append (before s rest : List Char) :
    ∃ small, lowerFrom before (s ++ rest) = small ++ lowerFrom (s.reverse ++ before) rest := by
  induction s generalizing before with
  | nil => exact ⟨[], rfl⟩
  | cons c s ih =>
    obtain ⟨small, hsmall⟩ := ih (c :: before)
    refine ⟨lowerChar before c (s ++ rest) ++ small, ?_⟩
    rw [List.cons_append, lowerFrom, hsmall]
    simp

theorem lowerFrom_append {s : List Char} (h : 'Σ' ∉ s) (before before' rest : List Char) :
    lowerFrom before (s ++ rest) = lowerFrom before' s ++ lowerFrom (s.reverse ++ before) rest := by
  induction s generalizing before before' with
  | nil => rfl
  | cons c s ih =>
    have hc : c ≠ 'Σ' := fun heq => h (heq ▸ List.mem_cons_self)
    have hrest := ih (fun hmem => h (List.mem_cons_of_mem _ hmem)) (c :: before) (c :: before')
    rw [List.cons_append, lowerFrom, lowerFrom, hrest, lowerChar_eq hc before,
      lowerChar_eq hc before']
    simp

/-- What a text holds is also found when both are lowered, unless it has a sigma. -/
theorem infix_lowerChars {part text : List Char} (h : 'Σ' ∉ part) (hin : part <:+: text) :
    lowerChars part <:+: lowerChars text := by
  obtain ⟨s, t, rfl⟩ := hin
  rw [List.append_assoc]
  obtain ⟨small, hsmall⟩ := exists_lowerFrom_append [] s (part ++ t)
  refine ⟨small, lowerFrom (part.reverse ++ (s.reverse ++ [])) t, ?_⟩
  unfold lowerChars
  rw [hsmall, lowerFrom_append h _ [], List.append_assoc]

theorem occursIn_dot {s : String} (h : '.' ∈ s.toList) : occursIn "." (lower s) = true := by
  obtain ⟨before, after, hs⟩ := List.append_of_mem h
  have hin : ['.'] <:+: s.toList := ⟨before, after, by simp [hs]⟩
  rw [occursIn_iff, toList_lower]
  exact infix_lowerChars (by decide) hin

end ClassAtlas.Text

namespace ClassAtlas.Usage

open Pattern Source

/-! ### Calls in a line -/

/-- Behind `before` the line holds a call of the method: its name, which does not go on a word,
then blanks and an opening parenthesis with `rest` behind it. -/
structure CallAt (methodName line before rest : List Char) : Prop where
  fresh : startsWord before.reverse = false
  written : ∃ gap, (∀ ch ∈ gap, Text.isBlank ch = true) ∧
    line = before ++ (methodName ++ (gap ++ '(' :: rest))

/-- What stands before a call ends in its qualifier, which is a whole word, and a dot, which may
have blanks around it. -/
def QualifiedBy (qualifier before : List Char) : Prop :=
  ∃ head gap gap', Worded qualifier ∧ startsWord head.reverse = false ∧
    (∀ ch ∈ gap, Text.isBlank ch = true) ∧ (∀ ch ∈ gap', Text.isBlank ch = true) ∧
    before = head ++ (qualifier ++ (gap ++ '.' :: gap'))

theorem QualifiedBy.fresh {qualifier before : List Char} (h : QualifiedBy qualifier before) :
    startsWord before.reverse = false := by
  obtain ⟨head, gap, gap', _, _, _, hgap', rfl⟩ := h
  have hlast : ∀ s : List Char, (∀ ch ∈ s, Text.isBlank ch = true) →
      ∀ more, startsWord (s ++ '.' :: more) = false := by
    intro s hs more
    cases s with
    | nil => exact (by decide : Text.isWord '.' = false)
    | cons ch s => exact Text.isWord_of_isBlank (hs ch List.mem_cons_self)
  have hrev : ∀ ch ∈ gap'.reverse, Text.isBlank ch = true :=
    fun ch hch => hgap' ch (List.mem_reverse.1 hch)
  simpa using hlast _ hrev (gap.reverse ++ (qualifier.reverse ++ head.reverse))

/-- A call reads an optional qualifier, the name and the arguments between the parentheses. -/
theorem mem_callPattern {methodName : String} {c : Cursor} {r : Excerpt × Cursor}
    (h : r ∈ callPattern methodName c) :
    ∃ lead gap, (lead = [] ∧ startsWord c.before ≠ startsWord c.after ∨
        ∃ w, Worded w ∧ lead = w ++ ['.']) ∧
      (∀ ch ∈ gap, Text.isBlank ch = true) ∧ ')' ∉ r.1.chars ∧
      c.Reads (lead ++ (methodName.toList ++ (gap ++ '(' :: (r.1.chars ++ [')'])))) r.2 := by
  unfold callPattern at h
  obtain ⟨q₁, h₁, h⟩ := mem_bind.1 h
  obtain ⟨q₂, h₂, h⟩ := mem_bind.1 h
  obtain ⟨q₃, h₃, h⟩ := mem_bind.1 h
  obtain ⟨q₄, h₄, h⟩ := mem_bind.1 h
  obtain ⟨q₅, h₅, h⟩ := mem_bind.1 h
  obtain ⟨q₆, h₆, h⟩ := mem_bind.1 h
  obtain ⟨q₇, h₇, h⟩ := mem_bind.1 h
  obtain rfl := mem_pure.1 h
  obtain ⟨hbound, rfl⟩ := mem_require.1 h₁
  obtain ⟨gap, hgap, hblank, _⟩ := mem_run h₄
  obtain ⟨hargs, hexcerpt⟩ := mem_captured.1 h₆
  obtain ⟨args, hargs, hopen, _⟩ := mem_run hargs
  have hchars : q₆.1.chars = args := by rw [hexcerpt, Excerpt.chars_of_reads hargs]
  obtain ⟨lead, hlead, hread⟩ : ∃ lead, (lead = [] ∧ startsWord c.before ≠ startsWord c.after ∨
      ∃ w, Worded w ∧ lead = w ++ ['.']) ∧ c.Reads lead q₂.2 := by
    rcases mem_maybe.1 h₂ with h | rfl
    · obtain ⟨q, hq, h⟩ := mem_bind.1 h
      obtain ⟨w, hne, hw, hword, _⟩ := mem_run1 hq
      exact ⟨w ++ ['.'], .inr ⟨w, ⟨hne, hword⟩, rfl⟩, hw.trans (mem_lit h)⟩
    · exact ⟨[], .inl ⟨rfl, by simpa using hbound⟩, .refl c⟩
  refine ⟨lead, gap, hlead, hblank, ?_, ?_⟩
  · rw [hchars]
    intro hmem
    simpa using hopen _ hmem
  · have hall := hread.trans ((mem_lit h₃).trans (hgap.trans ((mem_lit h₅).trans
      (hargs.trans (mem_lit h₇)))))
    simpa [hchars] using hall

/-- A qualified call starts a word and reads its qualifier up to the parenthesis behind the name. -/
theorem mem_qualifiedCallPattern {methodName : String} {c : Cursor} {r : Excerpt × Cursor}
    (h : r ∈ qualifiedCallPattern methodName c) :
    ∃ gap₁ gap₂ gap₃, startsWord c.before = false ∧ Worded r.1.chars ∧
      (∀ ch ∈ gap₁, Text.isBlank ch = true) ∧ (∀ ch ∈ gap₂, Text.isBlank ch = true) ∧
        (∀ ch ∈ gap₃, Text.isBlank ch = true) ∧
      c.Reads (r.1.chars ++
        (gap₁ ++ '.' :: (gap₂ ++ (methodName.toList ++ (gap₃ ++ ['(']))))) r.2 := by
  unfold qualifiedCallPattern at h
  obtain ⟨q₁, h₁, h⟩ := mem_bind.1 h
  obtain ⟨q₂, h₂, h⟩ := mem_bind.1 h
  obtain ⟨q₃, h₃, h⟩ := mem_bind.1 h
  obtain ⟨q₄, h₄, h⟩ := mem_bind.1 h
  obtain ⟨q₅, h₅, h⟩ := mem_bind.1 h
  obtain ⟨q₆, h₆, h⟩ := mem_bind.1 h
  obtain ⟨q₇, h₇, h⟩ := mem_bind.1 h
  obtain ⟨q₈, h₈, h⟩ := mem_bind.1 h
  obtain rfl := mem_pure.1 h
  obtain ⟨hbound, rfl⟩ := mem_require.1 h₁
  obtain ⟨hword, hexcerpt⟩ := mem_captured.1 h₂
  obtain ⟨w, hne, hw, hchars, _⟩ := mem_run1 hword
  obtain ⟨gap₁, hgap₁, hblank₁, _⟩ := mem_run h₃
  obtain ⟨gap₂, hgap₂, hblank₂⟩ := mem_many h₅
  obtain ⟨gap₃, hgap₃, hblank₃, _⟩ := mem_run h₇
  have hw' : q₂.1.chars = w := by rw [hexcerpt, Excerpt.chars_of_reads hw]
  have hbefore : startsWord c.before = false := by
    have hworded : Worded w := ⟨hne, hchars⟩
    rw [hw.after_eq, hworded.startsWord] at hbound
    simpa using hbound
  refine ⟨gap₁, gap₂, gap₃, hbefore, hw' ▸ ⟨hne, hchars⟩, hblank₁, hblank₂, hblank₃, ?_⟩
  have hall := hw.trans (hgap₁.trans ((mem_lit h₄).trans (hgap₂.trans ((mem_lit h₆).trans
    (hgap₃.trans (mem_lit h₈))))))
  simpa [hw'] using hall

theorem callPattern_requires (methodName : String) : (callPattern methodName).Requires '(' := by
  intro c r hr
  obtain ⟨lead, gap, _, _, _, hread⟩ := mem_callPattern hr
  exact ⟨_, by simp, hread⟩

theorem qualifiedCallPattern_requires (methodName : String) :
    (qualifiedCallPattern methodName).Requires '(' := by
  intro c r hr
  obtain ⟨_, _, _, _, _, _, _, _, hread⟩ := mem_qualifiedCallPattern hr
  exact ⟨_, by simp, hread⟩

/-- A match in a line is a call that stands there. -/
theorem callAt_of_match {methodName : String} (hname : Worded methodName.toList)
    {line : List Char} {m : Match Excerpt} (h : m ∈ (callPattern methodName).matchesIn line) :
    ')' ∉ m.value.chars ∧
      ∃ before rest, CallAt methodName.toList line before (m.value.chars ++ ')' :: rest) := by
  obtain ⟨htext, hmem⟩ := mem_matchesIn (callPattern_requires methodName).progress h
  obtain ⟨lead, gap, hlead, hblank, hclosed, hread⟩ := mem_callPattern hmem
  refine ⟨hclosed, m.start.before.reverse ++ lead, m.stop.after, ?_, gap, hblank, ?_⟩
  · rcases hlead with ⟨rfl, hbound⟩ | ⟨w, _, rfl⟩
    · -- the name starts a word at a boundary, so no word ends there
      rw [hread.after_eq, List.nil_append, List.append_assoc, hname.startsWord] at hbound
      simpa using hbound
    · have hdot : Text.isWord '.' = false := by decide
      simpa [startsWord] using hdot
  · rw [← htext, Cursor.text, hread.after_eq]
    simp

theorem callAt_of_qualified_match {methodName : String} {line : List Char} {m : Match Excerpt}
    (h : m ∈ (qualifiedCallPattern methodName).matchesIn line) :
    ∃ before rest,
      CallAt methodName.toList line before rest ∧ QualifiedBy m.value.chars before := by
  obtain ⟨htext, hmem⟩ := mem_matchesIn (qualifiedCallPattern_requires methodName).progress h
  obtain ⟨gap₁, gap₂, gap₃, hbefore, hword, hblank₁, hblank₂, hblank₃, hread⟩ :=
    mem_qualifiedCallPattern hmem
  have hqualified : QualifiedBy m.value.chars
      (m.start.before.reverse ++ (m.value.chars ++ (gap₁ ++ '.' :: gap₂))) :=
    ⟨_, gap₁, gap₂, hword, by rwa [List.reverse_reverse], hblank₁, hblank₂, rfl⟩
  refine ⟨_, m.stop.after, ⟨hqualified.fresh, gap₃, hblank₃, ?_⟩, hqualified⟩
  rw [← htext, Cursor.text, hread.after_eq]
  simp

/-! ### The sources that are searched -/

/-- The source of a class, once its file is read. -/
theorem value_sourceLines? (load : Loader) (c : JavaClass) (source : SourceLines) :
    (sourceLines? load c).value = some source ↔ ∃ content, (load c.filePath).value = .text content ∧
      source = ⟨c.filePath, c.name, Text.lines content⟩ := by
  unfold sourceLines?
  rw [Log.Logged.value_bind]
  cases (load c.filePath).value with
  | text content => simp [eq_comm]
  | absent => simp
  | failed reason =>
    rw [Log.Logged.value_bind]
    simp

theorem value_otherSources (load : Loader) (className : String) (atlas : Atlas) :
    (otherSources load className atlas).value =
      (atlas.classes.filter (·.name != className)).filterMap fun c =>
        (sourceLines? load c).value := by
  rw [otherSources, Log.Logged.value_bind, Log.Logged.value_pure, Log.Logged.value_mapM,
    List.filterMap_map]
  rfl

/-- Where there is one class of another name, its lines are searched. -/
theorem otherSources_single {load : Loader} {className content : String} {d : JavaClass}
    (hname : d.name ≠ className) (hload : (load d.filePath).value = .text content)
    (edges : List Relationship) :
    (otherSources load className ⟨[d], edges⟩).value =
      [⟨d.filePath, d.name, Text.lines content⟩] := by
  have hsource := (value_sourceLines? load d _).2 ⟨content, hload, rfl⟩
  simp [value_otherSources, hname, hsource]

theorem mem_otherSources {load : Loader} {className : String} {atlas : Atlas}
    {source : SourceLines} :
    source ∈ (otherSources load className atlas).value ↔
      ∃ c ∈ atlas.classes, c.name ≠ className ∧ ∃ content,
        (load c.filePath).value = .text content ∧
        source = ⟨c.filePath, c.name, Text.lines content⟩ := by
  simp only [value_otherSources, List.mem_filterMap, List.mem_filter, bne_iff_ne,
    value_sourceLines?, and_assoc]

/-! ### Usages of a method -/

/-- Every call of a line is a usage when the line is accepted, and none is when it is not. -/
theorem methodUsagesIn_eq (settings : Settings) (className methodName : String)
    (source : SourceLines) :
    methodUsagesIn settings className methodName source =
      source.lines.zipIdx.flatMap fun (line, index) =>
      if isLikelyCall settings.usageAcceptance className methodName line then
        ((callPattern methodName).matchesIn line.toList).map fun m =>
          source.usage settings.contextRadius methodName line index (arguments m.value.text)
      else [] := by
  unfold methodUsagesIn
  congr 1
  funext ⟨line, index⟩
  cases hcalls : (callPattern methodName).matchesIn line.toList with
  | nil => simp only [hcalls, List.map_nil, ite_self]
  | cons m calls => simp only [hcalls]

/-- The order of usages: more arguments come first. -/
def ByArguments (a b : Usage) : Prop := b.parameters.length ≤ a.parameters.length

instance : DecidableRel ByArguments := fun a b =>
  inferInstanceAs (Decidable (b.parameters.length ≤ a.parameters.length))

instance : IsTrans Usage ByArguments := ⟨fun _ _ _ hab hbc => Nat.le_trans hbc hab⟩

instance : Std.Total ByArguments := ⟨fun _ _ => Nat.le_total _ _⟩

theorem value_methodUsages (settings : Settings) (load : Loader) (atlas : Atlas)
    (className methodName : String) :
    (methodUsages settings load atlas className methodName).value =
      ((otherSources load className atlas).value.flatMap
        (methodUsagesIn settings className methodName)).insertionSort ByArguments :=
  sortBy_decide _

theorem mem_methodUsages {settings : Settings} {load : Loader} {atlas : Atlas}
    {className methodName : String} {u : Usage} :
    u ∈ (methodUsages settings load atlas className methodName).value ↔
      ∃ source ∈ (otherSources load className atlas).value, ∃ line index,
        source.lines[index]? = some line ∧
        isLikelyCall settings.usageAcceptance className methodName line = true ∧
        ∃ m ∈ (callPattern methodName).matchesIn line.toList,
          u = source.usage settings.contextRadius methodName line index
            (arguments m.value.text) := by
  rw [value_methodUsages, List.mem_insertionSort]
  simp only [List.mem_flatMap, methodUsagesIn_eq]
  constructor
  · rintro ⟨source, hsource, ⟨line, index⟩, hline, hu⟩
    simp only at hu
    split at hu
    · next haccepted =>
      obtain ⟨m, hm, rfl⟩ := List.mem_map.1 hu
      exact ⟨source, hsource, line, index, List.mk_mem_zipIdx_iff_getElem?.1 hline, haccepted,
        m, hm, rfl⟩
    · exact absurd hu List.not_mem_nil
  · rintro ⟨source, hsource, line, index, hline, haccepted, m, hm, rfl⟩
    refine ⟨source, hsource, (line, index), List.mk_mem_zipIdx_iff_getElem?.2 hline, ?_⟩
    simp only [haccepted, if_true]
    exact List.mem_map.2 ⟨m, hm, rfl⟩

/-- A usage points at a line of the source of a class of another name. -/
structure PointsAt (load : Loader) (atlas : Atlas) (className : String) (u : Usage)
    (line : String) : Prop where
  source : ∃ c ∈ atlas.classes, c.name ≠ className ∧ u.sourceClass = c.name ∧
    u.sourceFile = c.filePath ∧ ∃ content, (load c.filePath).value = .text content ∧
      ∃ index, u.lineNumber = index + 1 ∧ (Text.lines content)[index]? = some line
  snippet : u.snippet = Text.trim line

theorem pointsAt_usage {load : Loader} {atlas : Atlas} {className : String} {source : SourceLines}
    (hsource : source ∈ (otherSources load className atlas).value) {line : String} {index : Nat}
    (hline : source.lines[index]? = some line) (radius : Nat) (methodName : String)
    (parameters : List String) :
    PointsAt load atlas className (source.usage radius methodName line index parameters) line := by
  obtain ⟨c, hc, hne, content, hload, rfl⟩ := mem_otherSources.1 hsource
  exact ⟨⟨c, hc, hne, rfl, rfl, content, hload, index, rfl, hline⟩, rfl⟩

/-! ### Usages of a class -/

theorem value_classUsages (settings : Settings) (load : Loader) (atlas : Atlas)
    (className : String) :
    (classUsages settings load atlas className).value =
      takeUpTo settings.classUsageLimit ((otherSources load className atlas).value.flatMap
        (classUsagesIn settings className)) := rfl

theorem takeUpTo_single {α : Type} {limit : Option Int} (h : ∀ n ∈ limit, 1 ≤ n) (a : α) :
    takeUpTo limit [a] = [a] := by
  cases limit with
  | none => rfl
  | some n =>
    have hn : 1 ≤ n := h n rfl
    rw [takeUpTo, if_pos (by omega), List.take_of_length_le (by simp; omega)]

/-- Where the last line alone uses the class, there is one usage. -/
theorem classUsagesIn_of_last (settings : Settings) {className line : String}
    {source : SourceLines} {above : List String} (hlines : source.lines = above ++ [line])
    (habove : ∀ l ∈ above, usesClass className l = false)
    (hline : usesClass className line = true) :
    classUsagesIn settings className source =
      [source.usage settings.contextRadius classUsageTag line above.length []] := by
  have hnone : (above.zipIdx.filterMap fun (line, index) =>
      if usesClass className line then
        some (source.usage settings.contextRadius classUsageTag line index [])
      else none) = [] := by
    rw [List.filterMap_eq_nil_iff]
    rintro ⟨l, index⟩ hl
    simp [habove l (List.fst_mem_of_mem_zipIdx hl)]
  rw [classUsagesIn, hlines, List.zipIdx_append, List.filterMap_append, hnone]
  simp [hline]

/-- A class that is known by its name and its file only. -/
def bareClass (name filePath : String) : JavaClass where
  name := name
  filePath := filePath
  package := ""
  imports := []
  annotations := []
  base := none
  interfaces := []
  fields := []
  methods := []
  dependencies := .empty
  isController := false
  endpoints := []
  rolePatterns := []
  injections := []

/-- Every file holds the same text. -/
def everywhere (content : String) : Loader := fun _ => pure (.text content)

end ClassAtlas.Usage
