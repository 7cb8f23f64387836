import ClassAtlas.Proofs.Usage.Arity

/-! The usages of a class. A line that uses the class is reported once, in however many ways it does
so. The reports stand by class and then by line, a limit keeps the first of them, and the files of
classes that have the name themselves are not looked at. -/

namespace ClassAtlas.Usage

open Pattern

section

variable (settings : Settings) (load : Loader) (className : String)

/-- The line injects, declares, creates or assigns an instance of the class. -/
def Mentions (line : List Char) : Prop :=
  (injectionPattern className).occurs line = true ∨ (memberPattern className).occurs line = true ∨
    (creationPattern className).occurs line = true ∨
      (assignmentPattern className).occurs line = true

/-- A line of a class's file is reported as this usage. -/
def MentionedIn (c : JavaClass) (u : Usage) : Prop :=
  c.name ≠ className ∧ ∃ content line index, (load c.filePath).value = .text content ∧
    (Text.lines content)[index]? = some line ∧ Mentions className line.toList ∧
    u = SourceLines.usage settings.contextRadius ⟨c.filePath, c.name, Text.lines content⟩
      classUsageTag line index []

def mentionsFrom (c : JavaClass) : List Usage :=
  (searched? load className c).toList.flatMap (classUsagesIn settings className)

end

section

variable {settings : Settings} {load : Loader} {className : String}

theorem usesClass_iff {line : String} : usesClass className line = true ↔
    Mentions className line.toList := by
  simp [usesClass, Mentions]

/-! ### Usages class by class -/

theorem classUsages_limited (limit : Option Int) (classes : List JavaClass)
    (edges : List Relationship) :
    (classUsages { settings with classUsageLimit := limit } load ⟨classes, edges⟩ className).value =
      takeUpTo limit (classes.flatMap (mentionsFrom settings load className)) := by
  rw [value_classUsages, flatMap_otherSources]
  rfl

theorem mem_classUsagesIn {source : SourceLines} {u : Usage} :
    u ∈ classUsagesIn settings className source ↔ ∃ line index, source.lines[index]? = some line ∧
      Mentions className line.toList ∧
      u = source.usage settings.contextRadius classUsageTag line index [] := by
  unfold classUsagesIn
  rw [List.mem_filterMap]
  constructor
  · rintro ⟨⟨line, index⟩, hline, hu⟩
    obtain ⟨huses, hu⟩ := Option.ite_none_right_eq_some.1 hu
    exact ⟨line, index, List.mk_mem_zipIdx_iff_getElem?.1 hline, usesClass_iff.1 huses,
      (Option.some.inj hu).symm⟩
  · rintro ⟨line, index, hline, hmentions, rfl⟩
    exact ⟨(line, index), List.mk_mem_zipIdx_iff_getElem?.2 hline,
      if_pos (usesClass_iff.2 hmentions)⟩

theorem mem_mentionsFrom {c : JavaClass} {u : Usage} :
    u ∈ mentionsFrom settings load className c ↔ MentionedIn settings load className c u := by
  unfold mentionsFrom
  rw [List.mem_flatMap]
  constructor
  · rintro ⟨source, hsource, hu⟩
    obtain ⟨hname, content, hload, rfl⟩ := searched?_eq_some.1 (Option.mem_toList.1 hsource)
    obtain ⟨line, index, hline, hmentions, rfl⟩ := mem_classUsagesIn.1 hu
    exact ⟨hname, content, line, index, hload, hline, hmentions, rfl⟩
  · rintro ⟨hname, content, line, index, hload, hline, hmentions, rfl⟩
    have hsource := searched?_eq_some.2 ⟨hname, content, hload, rfl⟩
    exact ⟨_, Option.mem_toList.2 hsource, mem_classUsagesIn.2 ⟨line, index, hline, hmentions, rfl⟩⟩

theorem pairwise_classUsagesIn (source : SourceLines) :
    (classUsagesIn settings className source).Pairwise fun a b => a.lineNumber < b.lineNumber := by
  refine List.Pairwise.filterMap _ ?_ (pairwise_zipIdx source.lines)
  rintro ⟨line, index⟩ ⟨line', index'⟩ hlt a ha b hb
  obtain ⟨_, ha⟩ := Option.ite_none_right_eq_some.1 ha
  obtain ⟨_, hb⟩ := Option.ite_none_right_eq_some.1 hb
  obtain rfl := Option.some.inj ha
  obtain rfl := Option.some.inj hb
  exact Nat.succ_lt_succ hlt

theorem pairwise_mentionsFrom (c : JavaClass) :
    (mentionsFrom settings load className c).Pairwise fun a b => a.lineNumber < b.lineNumber := by
  unfold mentionsFrom
  cases searched? load className c with
  | none => exact .nil
  | some source => simpa using pairwise_classUsagesIn source

/-- Of a class with the name itself not even the file matters. -/
theorem mentionsFrom_congr {load' : Loader} {c : JavaClass}
    (h : c.name ≠ className → (load c.filePath).value = (load' c.filePath).value) :
    mentionsFrom settings load className c = mentionsFrom settings load' className c := by
  have hsource : searched? load className c = searched? load' className c := by
    refine Option.ext fun source => ?_
    rw [searched?_eq_some, searched?_eq_some]
    refine and_congr_right fun hname => ?_
    rw [h hname]
  rw [mentionsFrom, mentionsFrom, hsource]

/-! ### The limit -/

theorem takeUpTo_natCast {α : Type} (n : Nat) (items : List α) :
    takeUpTo (some (n : Int)) items = items.take n := by
  rw [takeUpTo, if_pos (Int.natCast_nonneg n), Int.toNat_natCast]

theorem takeUpTo_sublist {α : Type} (limit : Option Int) (items : List α) :
    (takeUpTo limit items).Sublist items := by
  cases limit with
  | none => exact .refl _
  | some n => exact List.take_sublist _ _

end

/-- Without a limit, the usages in two lists of classes follow each other. Those in one class are
the lines that mention the class, each one once and from the top down. A limit keeps the first ones,
so that nothing is added once it is reached. What files hold that only belong to classes of the same
name makes no difference. -/
theorem classUsages_compose (settings : Settings) (load : Loader) (className : String)
    (xs ys : List JavaClass) (edges edges₁ edges₂ : List Relationship) :
    let usages := fun load limit classes edges =>
      (classUsages { settings with classUsageLimit := limit } load ⟨classes, edges⟩ className).value
    usages load none (xs ++ ys) edges = usages load none xs edges₁ ++ usages load none ys edges₂ ∧
    (∀ c u, u ∈ usages load none [c] edges ↔ MentionedIn settings load className c u) ∧
    (∀ c limit, (usages load limit [c] edges).Pairwise fun a b => a.lineNumber < b.lineNumber) ∧
    (∀ n : Nat, usages load (some n) xs edges = (usages load none xs edges).take n ∧
      ((usages load (some n) xs edges).length = n →
        usages load (some n) (xs ++ ys) edges₁ = usages load (some n) xs edges)) ∧
    (∀ load' limit, (∀ c ∈ xs, c.name ≠ className →
        (load c.filePath).value = (load' c.filePath).value) →
      usages load limit xs edges = usages load' limit xs edges) := by
  intro usages
  have heq : ∀ load limit classes edges, usages load limit classes edges =
      takeUpTo limit (classes.flatMap (mentionsFrom settings load className)) :=
    fun _ => classUsages_limited
  simp only [heq]
  refine ⟨List.flatMap_append, fun c u => ?_, fun c limit => ?_, fun n => ?_,
    fun load' limit h => ?_⟩
  · simp [takeUpTo, mem_mentionsFrom]
  · rw [List.flatMap_singleton]
    exact (pairwise_mentionsFrom c).sublist (takeUpTo_sublist limit _)
  · rw [takeUpTo_natCast, takeUpTo_natCast, List.flatMap_append]
    refine ⟨rfl, fun hreached => List.take_append_of_le_length ?_⟩
    rw [List.length_take] at hreached
    omega
  · have hsame : ∀ c ∈ xs, mentionsFrom settings load className c =
        mentionsFrom settings load' className c := fun c hc => mentionsFrom_congr (h c hc)
    rw [List.flatMap_congr hsame]

/-- A line that declares, creates and assigns is one usage, and the file of the class itself is not
read. -/
theorem classUsages_compose_batch :
    let settings := { Settings.default with classUsageLimit := some 2 }
    let load := everywhere "private Orders a = new Orders();\nint n;\nOrders b = new Orders();"
    let load' : Loader := fun path => if path = "Orders.java" then pure .absent else load path
    let batch := bareClass "Batch" "Batch.java"
    let orders := bareClass "Orders" "Orders.java"
    let usages := fun (load : Loader) classes =>
        (classUsages settings load ⟨classes, []⟩ "Orders").value
    (usages load [batch]).map (·.lineNumber) = [1, 3] ∧
      usages load ([batch] ++ [bareClass "Other" "Other.java"]) = usages load [batch] ∧
      usages load [orders, batch] = usages load' [orders, batch] := by
  intro settings load load' batch orders usages
  have hlines : (usages load [batch]).map (·.lineNumber) = [1, 3] := by decide +kernel
  have hlength : (usages load [batch]).length = 2 := by
    rw [← List.length_map, hlines]
    rfl
  obtain ⟨_, _, _, hlimit, _⟩ := classUsages_compose settings load "Orders" [batch]
    [bareClass "Other" "Other.java"] [] [] []
  obtain ⟨_, _, _, _, hload⟩ :=
    classUsages_compose settings load "Orders" [orders, batch] [] [] [] []
  refine ⟨hlines, (hlimit 2).2 hlength, hload load' (some 2) ?_⟩
  simp only [List.forall_mem_cons]
  exact ⟨fun hne => absurd rfl hne, fun _ => rfl, by simp⟩

end ClassAtlas.Usage
