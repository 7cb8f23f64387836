import Mathlib.Data.List.Basic
import ClassAtlas.Proofs.Usage.Mining

/-! The order of mined usages. Usages with more parameters come first; those with the same number
stand in the order of their calls: by class, then by line, then from left to right. Classes of the
name that is looked for and classes that cannot be read have no part in it. -/

namespace ClassAtlas.Usage

open Pattern

/-- A class without usages: it has the name itself, or its file is not read. -/
def Idle (load : Loader) (className : String) (c : JavaClass) : Prop :=
  c.name = className ∨ (load c.filePath).value = .absent ∨
    ∃ reason, (load c.filePath).value = .failed reason

/-- Where a call stands: the place of its class, the line, and the part of the line. -/
structure Site where
  place : Nat
  line : Nat
  call : Match Excerpt

/-- By class, then by line, then from left to right. -/
def Site.Before (a b : Site) : Prop :=
  a.place < b.place ∨ a.place = b.place ∧
    (a.line < b.line ∨ a.line = b.line ∧ a.call.start.offset < b.call.start.offset)

/-- The usages with a number of parameters. -/
def ofArity (k : Nat) (usages : List Usage) : List Usage :=
  usages.filter fun u => u.parameters.length = k

section

variable (settings : Settings) (load : Loader) (className methodName : String)

/-- The call at a site is reported as this usage. -/
def ReportedAs (classes : List JavaClass) (s : Site) (u : Usage) : Prop :=
  ∃ c content line, classes[s.place]? = some c ∧ c.name ≠ className ∧
    (load c.filePath).value = .text content ∧ (Text.lines content)[s.line]? = some line ∧
    isLikelyCall settings.usageAcceptance className methodName line = true ∧
    s.call ∈ (callPattern methodName).matchesIn line.toList ∧
    u = SourceLines.usage settings.contextRadius ⟨c.filePath, c.name, Text.lines content⟩ methodName
      line s.line (arguments s.call.value.text)

/-! ### Usages class by class -/

/-- The lines of a class that are searched. -/
def searched? (c : JavaClass) : Option SourceLines :=
  if c.name != className then (sourceLines? load c).value else none

def usagesFrom (c : JavaClass) : List Usage :=
  (searched? load className c).toList.flatMap (methodUsagesIn settings className methodName)

/-- The calls of a line, each with its usage. -/
def sitesInLine (source : SourceLines) (place index : Nat) (line : String) : List (Site × Usage) :=
  if isLikelyCall settings.usageAcceptance className methodName line then
    ((callPattern methodName).matchesIn line.toList).map fun m =>
      (⟨place, index, m⟩,
        source.usage settings.contextRadius methodName line index (arguments m.value.text))
  else []

def sitesInSource (place : Nat) (source : SourceLines) : List (Site × Usage) :=
  source.lines.zipIdx.flatMap fun (line, index) =>
    sitesInLine settings className methodName source place index line

def sites (classes : List JavaClass) : List (Site × Usage) :=
  classes.zipIdx.flatMap fun (c, place) =>
    (searched? load className c).toList.flatMap (sitesInSource settings className methodName place)

end

section

variable {settings : Settings} {load : Loader} {className methodName : String}

theorem searched?_eq_some {c : JavaClass} {source : SourceLines} :
    searched? load className c = some source ↔ c.name ≠ className ∧
      ∃ content, (load c.filePath).value = .text content ∧
        source = ⟨c.filePath, c.name, Text.lines content⟩ := by
  unfold searched?
  split
  · next hname => simp [value_sourceLines?, bne_iff_ne.1 hname]
  · next hname => simp_all

theorem Idle.usagesFrom_eq {c : JavaClass} (h : Idle load className c) :
    usagesFrom settings load className methodName c = [] := by
  have hnone : searched? load className c = none := by
    refine Option.eq_none_iff_forall_ne_some.2 fun source hsource => ?_
    obtain ⟨hname, content, hload, _⟩ := searched?_eq_some.1 hsource
    rcases h with h | h | ⟨reason, h⟩
    · exact hname h
    · exact absurd (hload.symm.trans h) (by simp)
    · exact absurd (hload.symm.trans h) (by simp)
  rw [usagesFrom, hnone]
  rfl

/-- What is found in the sources is found in one class after the other. -/
theorem flatMap_otherSources (found : SourceLines → List Usage) (classes : List JavaClass)
    (edges : List Relationship) :
    (otherSources load className ⟨classes, edges⟩).value.flatMap found =
      classes.flatMap fun c => (searched? load className c).toList.flatMap found := by
  rw [value_otherSources, List.filterMap_filter, List.filterMap_eq_flatMap_toList,
    List.flatMap_assoc]
  rfl

/-- The usages are those of the classes one after the other, sorted. -/
theorem methodUsages_eq (classes : List JavaClass) (edges : List Relationship) :
    (methodUsages settings load ⟨classes, edges⟩ className methodName).value =
      (classes.flatMap (usagesFrom settings load className methodName)).insertionSort
        ByArguments := by
  rw [value_methodUsages, flatMap_otherSources]
  rfl

/-- Sorting leaves the usages with the same number of parameters in their order. -/
theorem ofArity_methodUsages (k : Nat) (classes : List JavaClass) (edges : List Relationship) :
    ofArity k (methodUsages settings load ⟨classes, edges⟩ className methodName).value =
      ofArity k (classes.flatMap (usagesFrom settings load className methodName)) := by
  rw [methodUsages_eq]
  refine filter_insertionSort (fun a b ha hb => ?_) _
  rw [ByArguments, of_decide_eq_true ha, of_decide_eq_true hb]

theorem flatMap_usagesFrom_of_idle {marked : List (JavaClass × Bool)}
    (h : ∀ p ∈ marked, p.2 = false → Idle load className p.1) :
    ((marked.filter (·.2)).map (·.1)).flatMap (usagesFrom settings load className methodName) =
      (marked.map (·.1)).flatMap (usagesFrom settings load className methodName) := by
  induction marked with
  | nil => rfl
  | cons p marked ih =>
    obtain ⟨hp, hmarked⟩ := List.forall_mem_cons.1 h
    obtain ⟨c, kept⟩ := p
    cases kept with
    | true => simp only [List.filter_cons_of_pos, List.map_cons, List.flatMap_cons, ih hmarked]
    | false =>
      simp only [Bool.false_eq_true, not_false_eq_true, List.filter_cons_of_neg, List.map_cons,
        List.flatMap_cons, (hp rfl).usagesFrom_eq, List.nil_append, ih hmarked]

/-! ### Calls and their order -/

theorem flatMap_zipIdx {α β : Type} (items : List α) (f : α → List β) :
    (items.zipIdx.flatMap fun p => f p.1) = items.flatMap f := by
  rw [← List.flatMap_map, List.zipIdx_map_fst]

theorem pairwise_zipIdx {α : Type} (items : List α) :
    items.zipIdx.Pairwise fun a b => a.2 < b.2 := by
  have h : (List.range' 0 items.length).Pairwise (· < ·) := List.pairwise_lt_range'
  rw [← List.zipIdx_map_snd] at h
  exact List.pairwise_map.1 h

theorem map_sitesInSource (place : Nat) (source : SourceLines) :
    (sitesInSource settings className methodName place source).map (·.2) =
      methodUsagesIn settings className methodName source := by
  rw [sitesInSource, methodUsagesIn_eq, List.map_flatMap]
  refine congrArg (List.flatMap · _) (funext fun ⟨line, index⟩ => ?_)
  dsimp only
  unfold sitesInLine
  split
  · exact List.map_map
  · rfl

theorem map_sites (classes : List JavaClass) :
    (sites settings load className methodName classes).map (·.2) =
      classes.flatMap (usagesFrom settings load className methodName) := by
  rw [sites, List.map_flatMap, ← flatMap_zipIdx classes]
  refine congrArg (List.flatMap · _) (funext fun ⟨c, place⟩ => ?_)
  dsimp only
  rw [List.map_flatMap, usagesFrom]
  exact congrArg (List.flatMap · _) (funext fun source => map_sitesInSource place source)

theorem mem_sitesInLine {source : SourceLines} {place index : Nat} {line : String} {s : Site}
    {u : Usage} : (s, u) ∈ sitesInLine settings className methodName source place index line ↔
      s.place = place ∧ s.line = index ∧
        isLikelyCall settings.usageAcceptance className methodName line = true ∧
        s.call ∈ (callPattern methodName).matchesIn line.toList ∧
        u = source.usage settings.contextRadius methodName line s.line
          (arguments s.call.value.text) := by
  unfold sitesInLine
  split
  · next haccepted =>
    constructor
    · intro h
      obtain ⟨m, hm, heq⟩ := List.mem_map.1 h
      obtain ⟨rfl, rfl⟩ := Prod.mk.inj heq
      exact ⟨rfl, rfl, haccepted, hm, rfl⟩
    · rintro ⟨rfl, rfl, _, hm, rfl⟩
      exact List.mem_map.2 ⟨s.call, hm, rfl⟩
  · next hrefused => simp [hrefused]

theorem mem_sitesInSource {source : SourceLines} {place : Nat} {s : Site} {u : Usage} :
    (s, u) ∈ sitesInSource settings className methodName place source ↔
      s.place = place ∧ ∃ line, source.lines[s.line]? = some line ∧
        isLikelyCall settings.usageAcceptance className methodName line = true ∧
        s.call ∈ (callPattern methodName).matchesIn line.toList ∧
        u = source.usage settings.contextRadius methodName line s.line
          (arguments s.call.value.text) := by
  unfold sitesInSource
  rw [List.mem_flatMap]
  constructor
  · rintro ⟨⟨line, index⟩, hline, hs⟩
    obtain ⟨hplace, rfl, hrest⟩ := mem_sitesInLine.1 hs
    exact ⟨hplace, line, List.mk_mem_zipIdx_iff_getElem?.1 hline, hrest⟩
  · rintro ⟨hplace, line, hline, hrest⟩
    exact ⟨(line, s.line), List.mk_mem_zipIdx_iff_getElem?.2 hline,
      mem_sitesInLine.2 ⟨hplace, rfl, hrest⟩⟩

/-- The sites are those of the calls that are reported. -/
theorem mem_sites {classes : List JavaClass} {s : Site} {u : Usage} :
    (s, u) ∈ sites settings load className methodName classes ↔
      ReportedAs settings load className methodName classes s u := by
  unfold sites
  rw [List.mem_flatMap]
  constructor
  · rintro ⟨⟨c, place⟩, hc, hs⟩
    obtain ⟨source, hsource, hs⟩ := List.mem_flatMap.1 hs
    obtain ⟨hname, content, hload, rfl⟩ := searched?_eq_some.1 (Option.mem_toList.1 hsource)
    obtain ⟨rfl, line, hline, hrest⟩ := mem_sitesInSource.1 hs
    exact ⟨c, content, line, List.mk_mem_zipIdx_iff_getElem?.1 hc, hname, hload, hline, hrest⟩
  · rintro ⟨c, content, line, hc, hname, hload, hline, hrest⟩
    have hsource := searched?_eq_some.2 ⟨hname, content, hload, rfl⟩
    exact ⟨(c, s.place), List.mk_mem_zipIdx_iff_getElem?.2 hc, List.mem_flatMap.2
      ⟨_, Option.mem_toList.2 hsource, mem_sitesInSource.2 ⟨rfl, line, hline, hrest⟩⟩⟩

theorem pairwise_sitesInLine (source : SourceLines) (place index : Nat) (line : String) :
    (sitesInLine settings className methodName source place index line).Pairwise
      fun a b => a.1.Before b.1 := by
  have hstarts := pairwise_starts (callPattern_requires methodName).progress line.toList
  unfold sitesInLine
  split
  · exact List.pairwise_map.2 (hstarts.imp fun h => .inr ⟨rfl, .inr ⟨rfl, h⟩⟩)
  · exact .nil

theorem pairwise_sitesInSource (place : Nat) (source : SourceLines) :
    (sitesInSource settings className methodName place source).Pairwise fun a b =>
      a.1.Before b.1 := by
  refine List.pairwise_flatMap.2 ⟨fun _ _ => pairwise_sitesInLine source place _ _, ?_⟩
  refine (pairwise_zipIdx source.lines).imp fun hlt a ha b hb => ?_
  obtain ⟨hplace, hline, _⟩ := mem_sitesInLine.1 ha
  obtain ⟨hplace', hline', _⟩ := mem_sitesInLine.1 hb
  exact .inr ⟨hplace.trans hplace'.symm, .inl (hline ▸ hline' ▸ hlt)⟩

theorem pairwise_sites (classes : List JavaClass) :
    (sites settings load className methodName classes).Pairwise fun a b => a.1.Before b.1 := by
  refine List.pairwise_flatMap.2 ⟨fun ⟨c, place⟩ _ => ?_, ?_⟩
  · dsimp only
    cases searched? load className c with
    | none => exact .nil
    | some source => simpa using pairwise_sitesInSource place source
  · refine (pairwise_zipIdx classes).imp fun hlt a ha b hb => ?_
    obtain ⟨_, _, ha⟩ := List.mem_flatMap.1 ha
    obtain ⟨_, _, hb⟩ := List.mem_flatMap.1 hb
    exact .inl ((mem_sitesInSource.1 ha).1 ▸ (mem_sitesInSource.1 hb).1 ▸ hlt)

end

/-- Usages are ordered by their number of parameters, the highest first. Those with one number are
the reported calls with it, by class, by line and from left to right, so that they compose when
lists of classes are joined. Idle classes can be left out wherever they stand. -/
theorem methodUsages_by_arity (settings : Settings) (load : Loader) (className methodName : String)
    (xs ys : List JavaClass) (edges edges₁ edges₂ : List Relationship) :
    let usages := fun classes edges =>
      (methodUsages settings load ⟨classes, edges⟩ className methodName).value
    (usages (xs ++ ys) edges).Pairwise (fun a b => b.parameters.length ≤ a.parameters.length) ∧
    (∀ k, ofArity k (usages (xs ++ ys) edges) =
      ofArity k (usages xs edges₁) ++ ofArity k (usages ys edges₂)) ∧
    (∀ k classes, ∃ calls : List (Site × Usage),
      calls.Pairwise (fun a b => a.1.Before b.1) ∧
      (∀ s u, (s, u) ∈ calls ↔
        ReportedAs settings load className methodName classes s u ∧ u.parameters.length = k) ∧
      ofArity k (usages classes edges) = calls.map (·.2)) ∧
    (∀ marked : List (JavaClass × Bool), (∀ p ∈ marked, p.2 = false → Idle load className p.1) →
      usages ((marked.filter (·.2)).map (·.1)) edges = usages (marked.map (·.1)) edges) := by
  intro usages
  refine ⟨?_, fun k => ?_, fun k classes => ?_, fun marked h => ?_⟩
  · dsimp only [usages]
    rw [methodUsages_eq]
    exact List.pairwise_insertionSort ByArguments _
  · dsimp only [usages]
    rw [ofArity_methodUsages, ofArity_methodUsages, ofArity_methodUsages, List.flatMap_append]
    exact List.filter_append _ _
  · refine ⟨(sites settings load className methodName classes).filter
      fun p => p.2.parameters.length = k, (pairwise_sites classes).filter _, fun s u => ?_, ?_⟩
    · simp [mem_sites]
    · dsimp only [usages]
      rw [ofArity_methodUsages, ← map_sites, ofArity, List.filter_map]
      rfl
  · dsimp only [usages]
    rw [methodUsages_eq, methodUsages_eq, flatMap_usagesFrom_of_idle h]

/-- One file is missing and one cannot be read; all others hold the same line. -/
def patchy : Loader := fun path =>
  pure (match path with
    | "Gone.java" => .absent
    | "Locked.java" => .failed "locked"
    | _ => .text "orders.save(a); orders.save(b, c);")

/-- Three idle classes around the one with the calls. -/
theorem methodUsages_by_arity_patchy :
    let marked := [(bareClass "Orders" "Orders.java", false), (bareClass "Gone" "Gone.java", false),
      (bareClass "Batch" "Batch.java", true), (bareClass "Locked" "Locked.java", false)]
    (∀ p ∈ marked, p.2 = false → Idle patchy "Orders" p.1) ∧
    (methodUsages Settings.default patchy ⟨marked.map (·.1), []⟩ "Orders" "save").value =
      (methodUsages Settings.default patchy ⟨[bareClass "Batch" "Batch.java"], []⟩ "Orders"
        "save").value ∧
    (methodUsages Settings.default patchy ⟨marked.map (·.1), []⟩ "Orders" "save").value.map
      (·.parameters) = [["b", "c"], ["a"]] := by
  intro marked
  have hidle : ∀ p ∈ marked, p.2 = false → Idle patchy "Orders" p.1 := by
    simp only [marked, List.forall_mem_cons]
    exact ⟨fun _ => .inl rfl, fun _ => .inr (.inl rfl), fun h => absurd h (by decide),
      fun _ => .inr (.inr ⟨_, rfl⟩), by simp⟩
  obtain ⟨_, _, _, hremoved⟩ :=
    methodUsages_by_arity Settings.default patchy "Orders" "save" [] [] [] [] []
  exact ⟨hidle, (hremoved marked hidle).symm, by decide +kernel⟩

end ClassAtlas.Usage
