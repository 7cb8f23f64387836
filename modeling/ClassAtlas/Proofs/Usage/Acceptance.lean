import ClassAtlas.Proofs.Usage.Mining

/-! What the two acceptance rules let through. Every line that the strict rule accepts is accepted
by the permissive one too. The strict rule asks for one qualified call in a line and then reports
all calls of the method in it, so a call is sure to be qualified itself only where it is the only
one. -/

namespace ClassAtlas.Usage

open Pattern Source

/-- The names that qualify a call of a class's method. -/
def qualifiers (className : String) : List String := [className, instanceName className, "this"]

theorem of_isLikelyCall_strict {className methodName line : String}
    (h : isLikelyCall .strict className methodName line = true) :
    Text.occursIn (Text.lower methodName) (Text.lower line) = true ∧
      ∃ q ∈ qualifiers className, ∃ before rest,
        CallAt methodName.toList line.toList before rest ∧ QualifiedBy q.toList before := by
  simp only [isLikelyCall, Bool.and_eq_true, List.any_eq_true, List.contains_iff_mem] at h
  obtain ⟨hname, m, hm, hqualifier⟩ := h
  obtain ⟨before, rest, hcall, hqualified⟩ := callAt_of_qualified_match hm
  refine ⟨hname, m.value.text, hqualifier, before, rest, hcall, ?_⟩
  rw [Excerpt.text, String.toList_ofList]
  exact hqualified

theorem QualifiedBy.dot_mem {qualifier before : List Char} (h : QualifiedBy qualifier before) :
    '.' ∈ before := by
  obtain ⟨head, gap, gap', _, _, _, _, rfl⟩ := h
  simp

/-! ### The strict rule accepts less -/

theorem isLikelyCall_permissive_of_strict {className methodName line : String}
    (h : isLikelyCall .strict className methodName line = true) :
    isLikelyCall .permissive className methodName line = true := by
  obtain ⟨hname, q, _, before, rest, hcall, hqualified⟩ := of_isLikelyCall_strict h
  have hdot : '.' ∈ line.toList := by
    obtain ⟨gap, _, hline⟩ := hcall.written
    rw [hline]
    exact List.mem_append_left _ hqualified.dot_mem
  simp only [isLikelyCall, hname, Text.occursIn_dot hdot, Bool.or_true, Bool.and_true]

theorem methodUsagesIn_sublist (settings : Settings) {strong weak : UsageAcceptance}
    {className methodName : String}
    (h : ∀ line, isLikelyCall strong className methodName line = true →
      isLikelyCall weak className methodName line = true) (source : SourceLines) :
    (methodUsagesIn { settings with usageAcceptance := strong } className methodName source).Sublist
      (methodUsagesIn { settings with usageAcceptance := weak } className methodName source) := by
  rw [methodUsagesIn_eq, methodUsagesIn_eq]
  refine List.Sublist.flatMap_right _ fun ⟨line, index⟩ _ => ?_
  dsimp only
  split
  · next hline => exact (if_pos (h line hline)).symm ▸ .refl _
  · exact List.nil_sublist _

/-- Whatever is mined by the strict rule is mined by the permissive one, and in the same order, so
there is no more of it. -/
theorem methodUsages_strict_sublist (settings : Settings) (load : Loader) (atlas : Atlas)
    (className methodName : String) :
    let strict := { settings with usageAcceptance := .strict }
    let permissive := { settings with usageAcceptance := .permissive }
    (methodUsages strict load atlas className methodName).value.Sublist
        (methodUsages permissive load atlas className methodName).value ∧
      (methodStats strict load atlas className methodName).value.usageCount ≤
        (methodStats permissive load atlas className methodName).value.usageCount := by
  intro strict permissive
  have hpart : (methodUsages strict load atlas className methodName).value.Sublist
      (methodUsages permissive load atlas className methodName).value := by
    rw [value_methodUsages, value_methodUsages]
    apply insertionSort_sublist
    refine List.Sublist.flatMap_right _ fun source _ => ?_
    exact methodUsagesIn_sublist settings (fun _ => isLikelyCall_permissive_of_strict) source
  exact ⟨hpart, hpart.length_le⟩

/-! ### What the strict rule reports -/

/-- The usage is made from a call that one of the class's names qualifies. -/
def FromQualifiedCall (load : Loader) (atlas : Atlas) (className methodName : String)
    (u : Usage) : Prop :=
  ∃ line, PointsAt load atlas className u line ∧ ∃ q ∈ qualifiers className, ∃ before args rest,
    CallAt methodName.toList line.toList before (args ++ ')' :: rest) ∧
    QualifiedBy q.toList before ∧ ')' ∉ args ∧ u.parameters = arguments (String.ofList args)

/-- The line holds no more than one call of the method. -/
def OneCall (methodName line : List Char) : Prop :=
  ∀ before rest before' rest', CallAt methodName line before rest →
    CallAt methodName line before' rest' → before = before'

/-- A usage under the strict rule points at a line with a qualified call of the method and is made
from a call in that line. The other calls in the line are reported with it, whatever qualifies them;
a call that is the only one is qualified itself. -/
theorem strict_usages_of_qualified_line (settings : Settings) (load : Loader) (atlas : Atlas)
    (className methodName : String) (hname : Worded methodName.toList) :
    let usages := (methodUsages { settings with usageAcceptance := .strict } load atlas className
      methodName).value
    ∀ u ∈ usages, ∃ line, PointsAt load atlas className u line ∧
      (∃ q ∈ qualifiers className, ∃ before rest,
        CallAt methodName.toList line.toList before rest ∧ QualifiedBy q.toList before) ∧
      (∃ before args rest, CallAt methodName.toList line.toList before (args ++ ')' :: rest) ∧
        ')' ∉ args ∧ u.parameters = arguments (String.ofList args)) ∧
      (∀ m ∈ (callPattern methodName).matchesIn line.toList,
        { u with parameters := arguments m.value.text } ∈ usages) ∧
      (OneCall methodName.toList line.toList →
        FromQualifiedCall load atlas className methodName u) := by
  intro usages u hu
  obtain ⟨source, hsource, line, index, hline, haccepted, m, hm, rfl⟩ := mem_methodUsages.1 hu
  obtain ⟨_, q, hq, before', rest', hqualifiedCall, hqualified⟩ := of_isLikelyCall_strict haccepted
  obtain ⟨hclosed, before, rest, hcall⟩ := callAt_of_match hname hm
  have hpoints := pointsAt_usage hsource hline settings.contextRadius methodName
    (arguments m.value.text)
  refine ⟨line, hpoints, ⟨q, hq, before', rest', hqualifiedCall, hqualified⟩,
    ⟨before, m.value.chars, rest, hcall, hclosed, rfl⟩, ?_, ?_⟩
  · intro m' hm'
    exact mem_methodUsages.2 ⟨source, hsource, line, index, hline, haccepted, m', hm', rfl⟩
  · intro hone
    obtain rfl : before = before' := hone _ _ _ _ hcall hqualifiedCall
    exact ⟨line, hpoints, q, hq, before, m.value.chars, rest, hcall, hqualified, hclosed, rfl⟩

/-- The places of a line where the name stands. -/
def placesOf (name line : List Char) : List Nat :=
  (List.range (line.length + 1)).filter fun k => name.isPrefixOf (line.drop k)

theorem CallAt.mem_placesOf {methodName line before rest : List Char}
    (h : CallAt methodName line before rest) :
    before = line.take before.length ∧ before.length ∈ placesOf methodName line := by
  obtain ⟨gap, _, rfl⟩ := h.written
  refine ⟨by simp, List.mem_filter.2 ⟨?_, ?_⟩⟩
  · rw [List.mem_range, List.length_append]
    omega
  · rw [List.drop_left, List.isPrefixOf_iff_prefix]
    exact List.prefix_append _ _

def batch : JavaClass := bareClass "Batch" "Batch.java"

theorem PointsAt.eq_of_batch {className content line : String} {u : Usage}
    (h : PointsAt (everywhere content) ⟨[batch], []⟩ className u line)
    (hlines : Text.lines content = [content]) : line = content := by
  obtain ⟨c, _, _, _, _, text, hload, index, _, hline⟩ := h.source
  obtain rfl : content = text := Reading.text.inj hload
  rw [hlines] at hline
  have hmem := List.mem_of_getElem? hline
  exact List.mem_singleton.1 hmem

/-- Blanks around the dot and before the parenthesis do not matter. -/
theorem strict_usages_of_qualified_line_this :
    let load := everywhere "  this . save (a, b);"
    let u : Usage := ⟨"Batch.java", "Batch", "save", 1, "this . save (a, b);",
      "→ this . save (a, b);", ["a", "b"]⟩
    u ∈ (methodUsages { Settings.default with usageAcceptance := .strict } load ⟨[batch], []⟩
        "Orders" "save").value ∧
      FromQualifiedCall load ⟨[batch], []⟩ "Orders" "save" u := by
  intro load u
  have hu : u ∈ (methodUsages { Settings.default with usageAcceptance := .strict } load
      ⟨[batch], []⟩ "Orders" "save").value := by decide +kernel
  obtain ⟨line, hpoints, _, _, _, hone⟩ := strict_usages_of_qualified_line Settings.default load
    ⟨[batch], []⟩ "Orders" "save" (by decide) u hu
  refine ⟨hu, hone ?_⟩
  obtain rfl := hpoints.eq_of_batch (by decide)
  have hplaces : placesOf "save".toList "  this . save (a, b);".toList = [9] := by decide
  intro before rest before' rest' h h'
  obtain ⟨hb, hk⟩ := h.mem_placesOf
  obtain ⟨hb', hk'⟩ := h'.mem_placesOf
  rw [hplaces, List.mem_singleton] at hk hk'
  rw [hb, hb', hk, hk']

/-- Of two calls in a line, the second one is reported for the qualifier of the first. -/
theorem strict_usage_not_from_qualified_call :
    let load := everywhere "orders.save(a); other.save(b);"
    ∃ u ∈ (methodUsages { Settings.default with usageAcceptance := .strict } load ⟨[batch], []⟩
        "Orders" "save").value,
      u.parameters = ["b"] ∧ ¬FromQualifiedCall load ⟨[batch], []⟩ "Orders" "save" u := by
  intro load
  refine ⟨⟨"Batch.java", "Batch", "save", 1, "orders.save(a); other.save(b);",
    "→ orders.save(a); other.save(b);", ["b"]⟩, by decide +kernel, rfl, ?_⟩
  rintro ⟨line, hpoints, q, hq, before, args, rest, hcall, hqualified, hclosed, hparameters⟩
  obtain rfl := hpoints.eq_of_batch (by decide)
  obtain ⟨hbefore, hplace⟩ := hcall.mem_placesOf
  have hplaces : placesOf "save".toList "orders.save(a); other.save(b);".toList = [7, 22] := by
    decide
  obtain ⟨gap, hblank, hline⟩ := hcall.written
  rw [hplaces] at hplace
  have hopen : ∀ ch ∈ args, (ch != ')') = true := by
    intro ch hch
    simpa using ne_of_mem_of_not_mem hch hclosed
  rcases List.mem_cons.1 hplace with hk | hk
  · -- the first call has another argument
    rw [hbefore, hk] at hline
    have htext : "orders.save(a); other.save(b);".toList =
        List.take 7 "orders.save(a); other.save(b);".toList ++
          ("save".toList ++ ([] ++ '(' :: "a); other.save(b);".toList)) := by decide
    have hgap := List.append_cancel_left (List.append_cancel_left (htext.symm.trans hline))
    obtain ⟨_, _, hargs⟩ := split_unique (by simp) hblank (by decide) (by decide) hgap
    obtain ⟨rfl, _⟩ := split_unique (s := ['a']) (by decide) hopen (by decide) (by decide) hargs
    exact absurd hparameters (by decide)
  · -- and the second one has another qualifier
    rw [List.mem_singleton] at hk
    have hends : ∀ q ∈ qualifiers "Orders", q.toList.getLast? = some 's' := by decide
    obtain ⟨name, hname⟩ := List.getLast?_eq_some_iff.1 (hends q hq)
    obtain ⟨head, gap₁, gap₂, _, _, hblank₁, hblank₂, hlead⟩ := hqualified
    rw [hbefore, hk, hname] at hlead
    have hspaces₁ : ∀ ch ∈ gap₁.reverse, Text.isBlank ch = true :=
      fun ch hch => hblank₁ ch (List.mem_reverse.1 hch)
    have hspaces₂ : ∀ ch ∈ gap₂.reverse, Text.isBlank ch = true :=
      fun ch hch => hblank₂ ch (List.mem_reverse.1 hch)
    have hdot : [] ++ '.' :: "rehto ;)a(evas.sredro".toList =
        gap₂.reverse ++ '.' :: (gap₁.reverse ++ 's' :: (name.reverse ++ head.reverse)) := by
      have hrev := congrArg List.reverse hlead
      simpa using hrev
    obtain ⟨_, _, hname⟩ := split_unique (by simp) hspaces₂ (by decide) (by decide) hdot
    obtain ⟨_, hne, _⟩ :=
      split_unique (s := []) (by simp) hspaces₁ (by decide) (by decide) hname
    exact absurd hne (by decide)

end ClassAtlas.Usage
