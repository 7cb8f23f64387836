import Mathlib.Data.List.Sigma
import Mathlib.Data.Set.Card
import ClassAtlas.Graph.Relationships

/-! The relationships between classes, kind by kind: how many there are, where they start and where
they lead. A call counts at every place where it is written, so the calls are compared with the
places in the methods of the classes. -/

namespace ClassAtlas.Graph

variable {resolution : CallResolution} {classes : List JavaClass}

/-! ### Targets -/

theorem pick?_firstMatch {α : Type} (candidates : List α) :
    pick? .firstMatch candidates = candidates.head? := by
  cases candidates with
  | nil => rfl
  | cons c rest => rfl

theorem mem_of_pick? {α : Type} {candidates : List α} {c : α}
    (h : pick? resolution candidates = some c) : c ∈ candidates := by
  unfold pick? at h
  split at h
  · cases h
  · cases h
    exact List.mem_cons_self
  · cases h
    exact List.mem_cons_self
  · cases h

/-- A call goes to a class of another name that declares what is called. -/
theorem of_callTarget?_eq_some {source target : JavaClass} {called : String}
    (h : callTarget? resolution classes source called = some target) :
    target ∈ classes ∧ target.name ≠ source.name ∧ target.declaresMethod called = true := by
  obtain ⟨hmem, hcandidate⟩ := List.mem_filter.1 (mem_of_pick? h)
  rw [isCandidate, Bool.and_eq_true, bne_iff_ne] at hcandidate
  exact ⟨hmem, hcandidate.1, hcandidate.2⟩

theorem targetKind_eq_internal {name : String} :
    targetKind classes name = .internal ↔ ∃ c ∈ classes, c.name = name := by
  have hknown : known classes name = true ↔ ∃ c ∈ classes, c.name = name := by
    simp [known]
  rw [← hknown, targetKind]
  cases known classes name <;> simp

/-! ### The relationships of one kind -/

/-- The relationships of one kind that a class has. -/
def edgesOf (resolution : CallResolution) (classes : List JavaClass) (c : JavaClass) :
    RelationshipKind → List Relationship
  | .extends => extensionOf classes c
  | .implements => implementationsOf classes c
  | .calls => callsOf resolution classes c
  | .injects => injectionsOf classes c

theorem relationshipsOf_eq_flatMap (c : JavaClass) :
    relationshipsOf resolution classes c =
      RelationshipKind.all.flatMap (edgesOf resolution classes c) := by
  simp [relationshipsOf, RelationshipKind.all, edgesOf]

theorem mem_extensionOf {c : JavaClass} {e : Relationship} (h : e ∈ extensionOf classes c) :
    ∃ base, e = ⟨c.name, base, .extends, none, targetKind classes base⟩ := by
  unfold extensionOf at h
  split at h
  · next base _ =>
    split at h
    · exact absurd h List.not_mem_nil
    · exact ⟨base, List.mem_singleton.1 h⟩
  · exact absurd h List.not_mem_nil

/-- Every call is written in a method of its class and goes to the target of the called name. -/
theorem mem_callsOf {c : JavaClass} {e : Relationship} (h : e ∈ callsOf resolution classes c) :
    ∃ m ∈ c.methods, ∃ called ∈ m.calls, ∃ target,
      callTarget? resolution classes c called = some target ∧
        e = ⟨c.name, target.name, .calls, some m.name, .internal⟩ := by
  obtain ⟨m, hm, h⟩ := List.mem_flatMap.1 h
  obtain ⟨called, hcalled, h⟩ := List.mem_filterMap.1 h
  obtain ⟨target, htarget, rfl⟩ := Option.map_eq_some_iff.1 h
  exact ⟨m, hm, called, hcalled, target, htarget, rfl⟩

/-- What holds of every relationship that a class has: its source, its kind, and whether its target
is known. -/
theorem mem_edgesOf {c : JavaClass} {kind : RelationshipKind} {e : Relationship}
    (h : e ∈ edgesOf resolution classes c kind) :
    e.source = c.name ∧ e.kind = kind ∧ e.targetKind = targetKind classes e.target := by
  cases kind with
  | «extends» =>
    obtain ⟨base, rfl⟩ := mem_extensionOf h
    exact ⟨rfl, rfl, rfl⟩
  | implements =>
    obtain ⟨name, _, rfl⟩ := List.mem_map.1 h
    exact ⟨rfl, rfl, rfl⟩
  | calls =>
    obtain ⟨m, _, called, _, target, htarget, rfl⟩ := mem_callsOf h
    obtain ⟨hmem, _, _⟩ := of_callTarget?_eq_some htarget
    exact ⟨rfl, rfl, (targetKind_eq_internal.2 ⟨target, hmem, rfl⟩).symm⟩
  | injects =>
    obtain ⟨i, _, rfl⟩ := List.mem_map.1 h
    exact ⟨rfl, rfl, rfl⟩

theorem mem_relationships {e : Relationship} :
    e ∈ relationships resolution classes ↔
      ∃ c ∈ classes, e ∈ edgesOf resolution classes c e.kind := by
  constructor
  · intro h
    obtain ⟨c, hc, h⟩ := List.mem_flatMap.1 h
    rw [relationshipsOf_eq_flatMap] at h
    obtain ⟨kind, _, h⟩ := List.mem_flatMap.1 h
    obtain ⟨_, rfl, _⟩ := mem_edgesOf h
    exact ⟨c, hc, h⟩
  · rintro ⟨c, hc, h⟩
    refine List.mem_flatMap.2 ⟨c, hc, ?_⟩
    rw [relationshipsOf_eq_flatMap]
    refine List.mem_flatMap.2 ⟨e.kind, ?_, h⟩
    cases e.kind <;> decide

theorem filter_edgesOf (c : JavaClass) (kind other : RelationshipKind) :
    (edgesOf resolution classes c kind).filter (·.kind == other) =
      if kind = other then edgesOf resolution classes c kind else [] := by
  split
  · next h =>
    refine List.filter_eq_self.2 fun e he => ?_
    rw [(mem_edgesOf he).2.1, beq_iff_eq]
    exact h
  · next h =>
    refine List.filter_eq_nil_iff.2 fun e he => ?_
    rw [(mem_edgesOf he).2.1, beq_iff_eq]
    exact h

/-- The relationships of one kind are those that each class has of it, class by class. -/
theorem ofKind_relationships (kind : RelationshipKind) :
    (Atlas.mk classes (relationships resolution classes)).ofKind kind =
      classes.flatMap (edgesOf resolution classes · kind) := by
  rw [Atlas.ofKind, relationships, List.filter_flatMap]
  congr 1
  funext c
  rw [relationshipsOf_eq_flatMap]
  cases kind <;> simp [RelationshipKind.all, filter_edgesOf]

/-! ### Call sites -/

/-- A place where a name is called: the position of the class, that of its method, and the name. -/
structure CallSite where
  classIndex : Nat
  methodIndex : Nat
  called : String
deriving DecidableEq

/-- The places of calls whose class and called name satisfy a condition. -/
def callSites (classes : List JavaClass) (holds : JavaClass → String → Prop) : Set CallSite :=
  {site | ∃ c m, classes[site.classIndex]? = some c ∧ c.methods[site.methodIndex]? = some m ∧
    site.called ∈ m.calls ∧ holds c site.called}

/-- The places of calls one after the other. -/
def callSiteList (classes : List JavaClass) (holds : JavaClass → String → Bool) : List CallSite :=
  classes.zipIdx.flatMap fun (c, i) => c.methods.zipIdx.flatMap fun (m, j) =>
    (m.calls.toList.filter (holds c)).map (CallSite.mk i j)

variable {holds : JavaClass → String → Bool}

theorem mem_callSiteList {site : CallSite} :
    site ∈ callSiteList classes holds ↔ site ∈ callSites classes fun c n => holds c n = true := by
  simp only [callSiteList, List.mem_flatMap, Prod.exists, List.mem_zipIdx_iff_getElem?,
    List.mem_map, List.mem_filter]
  constructor
  · rintro ⟨c, i, hc, m, j, hm, n, ⟨hn, hholds⟩, rfl⟩
    exact ⟨c, m, hc, hm, hn, hholds⟩
  · rintro ⟨c, m, hc, hm, hn, hholds⟩
    exact ⟨c, site.classIndex, hc, m, site.methodIndex, hm, site.called, ⟨hn, hholds⟩, rfl⟩

/-- Lists that the positions tell apart have no entry in common. -/
theorem nodup_flatMap_zipIdx {α β : Type} {items : List α} {f : α × Nat → List β} (index : β → Nat)
    (hindex : ∀ x ∈ items.zipIdx, ∀ b ∈ f x, index b = x.2) (hf : ∀ x ∈ items.zipIdx, (f x).Nodup) :
    (items.zipIdx.flatMap f).Nodup := by
  rw [List.nodup_flatMap]
  refine ⟨hf, ?_⟩
  have hsnd : items.zipIdx.Pairwise fun x y => x.2 ≠ y.2 :=
    List.pairwise_map.1 (List.nodup_zipIdx_map_snd items)
  refine List.Pairwise.imp_of_mem ?_ hsnd
  intro x y hx hy hne b hbx hby
  exact hne ((hindex x hx b hbx).symm.trans (hindex y hy b hby))

theorem nodup_callSiteList (classes : List JavaClass) (holds : JavaClass → String → Bool) :
    (callSiteList classes holds).Nodup := by
  refine nodup_flatMap_zipIdx CallSite.classIndex ?_ ?_
  · rintro ⟨c, i⟩ _ site hsite
    simp only [List.mem_flatMap, List.mem_map] at hsite
    obtain ⟨_, _, _, _, rfl⟩ := hsite
    rfl
  · rintro ⟨c, i⟩ _
    refine nodup_flatMap_zipIdx CallSite.methodIndex ?_ ?_
    · rintro ⟨m, j⟩ _ site hsite
      obtain ⟨_, _, rfl⟩ := List.mem_map.1 hsite
      rfl
    · rintro ⟨m, j⟩ _
      refine (m.calls.nodup.filter _).map ?_
      intro a b hab
      exact (CallSite.mk.inj hab).2.2

theorem callSites_eq_toFinset (classes : List JavaClass) (holds : JavaClass → String → Bool) :
    callSites classes (fun c n => holds c n = true) = (callSiteList classes holds).toFinset := by
  ext site
  rw [Finset.mem_coe, List.mem_toFinset, mem_callSiteList]

theorem finite_callSites (classes : List JavaClass) (holds : JavaClass → String → Bool) :
    (callSites classes fun c n => holds c n = true).Finite := by
  rw [callSites_eq_toFinset]
  exact Finset.finite_toSet _

theorem sum_map_zipIdx {α : Type} (items : List α) (f : α → Nat) :
    (items.zipIdx.map fun x => f x.1).sum = (items.map f).sum := by
  have hmap : items.zipIdx.map (fun x => f x.1) = (items.zipIdx.map Prod.fst).map f := by
    rw [List.map_map]
    rfl
  rw [hmap, List.zipIdx_map_fst]

/-- The places are counted class by class and method by method. -/
theorem ncard_callSites (classes : List JavaClass) (holds : JavaClass → String → Bool) :
    (callSites classes fun c n => holds c n = true).ncard =
      (classes.map fun c => (c.methods.map fun m => m.calls.toList.countP (holds c)).sum).sum := by
  rw [callSites_eq_toFinset, Set.ncard_coe_finset,
    List.toFinset_card_of_nodup (nodup_callSiteList classes holds), callSiteList,
    List.length_flatMap]
  have hclass : ∀ x : JavaClass × Nat, (x.1.methods.zipIdx.flatMap fun y =>
      (y.1.calls.toList.filter (holds x.1)).map (CallSite.mk x.2 y.2)).length =
        (x.1.methods.map fun m => m.calls.toList.countP (holds x.1)).sum := by
    intro x
    rw [List.length_flatMap, ← sum_map_zipIdx x.1.methods]
    simp only [List.length_map, List.countP_eq_length_filter]
  rw [← sum_map_zipIdx classes]
  exact congrArg List.sum (List.map_congr_left fun x _ => hclass x)

/-! ### How many there are -/

theorem length_extensionOf (c : JavaClass) :
    (extensionOf classes c).length = if c.base.any (!·.isEmpty) then 1 else 0 := by
  unfold extensionOf
  cases c.base with
  | none => rfl
  | some base => cases h : base.isEmpty <;> simp [h]

theorem length_extends :
    (classes.flatMap (edgesOf resolution classes · .extends)).length =
      classes.countP fun c => c.base.any (!·.isEmpty) := by
  have hall : ∀ some : List JavaClass, (some.flatMap (extensionOf classes)).length =
      some.countP fun c => c.base.any (!·.isEmpty) := by
    intro some
    induction some with
    | nil => rfl
    | cons c rest ih =>
      rw [List.flatMap_cons, List.length_append, ih, length_extensionOf, List.countP_cons]
      omega
  exact hall classes

/-- As many calls as there are places whose called name has a target. -/
theorem length_calls :
    (classes.flatMap (edgesOf resolution classes · .calls)).length =
      (callSites classes fun c n => (callTarget? resolution classes c n).isSome = true).ncard := by
  have hcalls : ∀ c : JavaClass, (callsOf resolution classes c).length = (c.methods.map fun m =>
      m.calls.toList.countP fun n => (callTarget? resolution classes c n).isSome).sum := by
    intro c
    simp only [callsOf, List.length_flatMap, List.length_filterMap_eq_countP, Option.isSome_map]
  rw [ncard_callSites, List.length_flatMap]
  exact congrArg List.sum (List.map_congr_left fun c _ => hcalls c)

theorem callSites_congr {holds holds' : JavaClass → String → Prop}
    (h : ∀ c n, holds c n ↔ holds' c n) : callSites classes holds = callSites classes holds' := by
  have heq : holds = holds' := by
    funext c n
    exact propext (h c n)
  rw [heq]

theorem isSome_callTarget?_firstMatch {c : JavaClass} {called : String} :
    (callTarget? .firstMatch classes c called).isSome = true ↔
      ∃ d ∈ classes, d.name ≠ c.name ∧ d.declaresMethod called = true := by
  rw [callTarget?, pick?_firstMatch, List.isSome_head?]
  simp [isCandidate]

/-- The relationships are exactly those that the classes declare. There is one for each superclass,
interface and injected field, and, where the first match counts, one for each place where a name
is called that some class of another name declares. Each of them starts at a class of the list and
leads to an internal target exactly if that is the name of a class of the list; a call leads from
the method that it is written in to another class that declares the called name. -/
theorem relationships_exact (resolution : CallResolution) (classes : List JavaClass) :
    ((Atlas.mk classes (relationships resolution classes)).ofKind .extends).length =
        classes.countP (fun c => c.base.any (!·.isEmpty)) ∧
      ((Atlas.mk classes (relationships resolution classes)).ofKind .implements).length =
        (classes.map fun c => c.interfaces.length).sum ∧
      ((Atlas.mk classes (relationships resolution classes)).ofKind .injects).length =
        (classes.map fun c => c.injections.length).sum ∧
      ((Atlas.mk classes (relationships .firstMatch classes)).ofKind .calls).length =
        (callSites classes fun c called =>
          ∃ d ∈ classes, d.name ≠ c.name ∧ d.declaresMethod called = true).ncard ∧
      ∀ e ∈ relationships resolution classes,
        (∃ c ∈ classes, c.name = e.source) ∧
        (e.targetKind = .internal ↔ ∃ c ∈ classes, c.name = e.target) ∧
        (e.kind = .calls → e.targetKind = .internal ∧ e.source ≠ e.target ∧
          ∃ c ∈ classes, ∃ m ∈ c.methods, ∃ called ∈ m.calls, ∃ d ∈ classes,
            c.name = e.source ∧ some m.name = e.method ∧ d.name = e.target ∧
              d.declaresMethod called = true) := by
  simp only [ofKind_relationships]
  refine ⟨length_extends, ?_, ?_, ?_, ?_⟩
  · simp [edgesOf, implementationsOf, List.length_flatMap]
  · simp [edgesOf, injectionsOf, List.length_flatMap]
  · rw [length_calls, callSites_congr fun c n => isSome_callTarget?_firstMatch]
  · intro e he
    obtain ⟨c, hc, he⟩ := mem_relationships.1 he
    obtain ⟨hsource, _, hkind⟩ := mem_edgesOf he
    refine ⟨⟨c, hc, hsource.symm⟩, by rw [hkind, targetKind_eq_internal], ?_⟩
    intro hcalls
    rw [hcalls] at he
    obtain ⟨m, hm, called, hcalled, d, htarget, rfl⟩ := mem_callsOf he
    obtain ⟨hd, hne, hdeclares⟩ := of_callTarget?_eq_some htarget
    exact ⟨rfl, hne.symm, c, hc, m, hm, called, hcalled, d, hd, rfl, rfl, rfl, hdeclares⟩

/-- A class with a superclass and with methods that call names, and with nothing else to relate. -/
def sketch (name : String) (base : Option String) (methods : List (String × List String)) :
    JavaClass where
  name
  filePath := name ++ ".java"
  package := ""
  imports := []
  annotations := []
  base
  interfaces := []
  fields := []
  methods := methods.map fun (name, calls) =>
    ⟨name, "void", [], [], "public", false, .ofList calls, none⟩
  dependencies := .empty
  isController := false
  endpoints := []
  rolePatterns := []
  injections := []

/-- Two classes of one name, a call between them, and two candidates for another call. -/
def workers : List JavaClass :=
  [sketch "Job" (some "Task") [("start", ["run", "stop"])], sketch "Job" (some "") [("stop", [])],
    sketch "Task" none [("run", ["start"])], sketch "Pool" none [("run", [])]]

theorem relationships_exact_workers :
    relationships .firstMatch workers =
        [⟨"Job", "Task", .extends, none, .internal⟩,
          ⟨"Job", "Task", .calls, some "start", .internal⟩,
          ⟨"Task", "Job", .calls, some "run", .internal⟩] ∧
      (callSites workers fun c called =>
        ∃ d ∈ workers, d.name ≠ c.name ∧ d.declaresMethod called = true).ncard = 2 := by
  obtain ⟨_, _, _, hcalls, _⟩ := relationships_exact .firstMatch workers
  refine ⟨by decide +kernel, ?_⟩
  rw [← hcalls]
  decide +kernel

end ClassAtlas.Graph
