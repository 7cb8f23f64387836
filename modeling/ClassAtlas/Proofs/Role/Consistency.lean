import Mathlib.Data.List.Forall2
import ClassAtlas.Proofs.Graph.Edges
import ClassAtlas.Proofs.Source.Spans
import ClassAtlas.Summary

/-! What a class says about itself holds together: its methods and their endpoints, its roles and
its place in the summary, its fields, injections and dependencies. The roles, the groups of the
summary and the markers of injection come from tables of their own, and here these tables are
compared. -/

namespace ClassAtlas.Role

open Source

/-! ### Roles -/

theorem nodup_markers : (roleTable.map (·.marker)).Nodup := by decide

theorem nodup_roles : (roleTable.map (·.role)).Nodup := by decide

theorem of_find?_marker {name : String} {entry : RoleEntry}
    (h : roleTable.find? (·.marker == name) = some entry) :
    entry ∈ roleTable ∧ entry.marker = name := by
  have hmarker := List.find?_some h
  exact ⟨List.mem_of_find?_eq_some h, beq_iff_eq.1 hmarker⟩

/-- An annotation whose marker has not been seen gives the role. -/
abbrev Gives (seen annotations : List String) (role : String) : Prop :=
  ∃ entry ∈ roleTable, entry.role = role ∧ entry.marker ∉ seen ∧
    ∃ marker ∈ annotations, annotationName marker = entry.marker

section Gives

variable {seen rest : List String} {marker role : String}

/-- An annotation without a marker that is new gives no role. -/
theorem gives_cons_of_old
    (hold : ∀ entry ∈ roleTable, entry.marker = annotationName marker → entry.marker ∈ seen) :
    Gives seen (marker :: rest) role ↔ Gives seen rest role := by
  constructor
  · rintro ⟨entry, hentry, hrole, hnew, m, hm, hname⟩
    rcases List.mem_cons.1 hm with rfl | hm
    · exact absurd (hold entry hentry hname.symm) hnew
    · exact ⟨entry, hentry, hrole, hnew, m, hm, hname⟩
  · rintro ⟨entry, hentry, hrole, hnew, m, hm, hname⟩
    exact ⟨entry, hentry, hrole, hnew, m, List.mem_cons_of_mem _ hm, hname⟩

/-- One with a new marker gives the role of its entry, and the marker counts no more. -/
theorem gives_cons_of_new {found : RoleEntry}
    (hfound : roleTable.find? (·.marker == annotationName marker) = some found)
    (hnew : annotationName marker ∉ seen) :
    Gives seen (marker :: rest) role ↔
      role = found.role ∨ Gives (annotationName marker :: seen) rest role := by
  obtain ⟨hmem, hmarker⟩ := of_find?_marker hfound
  constructor
  · rintro ⟨entry, hentry, hrole, hunseen, m, hm, hname⟩
    by_cases heq : entry.marker = annotationName marker
    · have hsame : entry = found :=
        List.inj_on_of_nodup_map nodup_markers hentry hmem (heq.trans hmarker.symm)
      exact .inl (hsame ▸ hrole.symm)
    · refine .inr ⟨entry, hentry, hrole, List.not_mem_cons_of_ne_of_not_mem heq hunseen, m,
        ?_, hname⟩
      exact List.mem_of_ne_of_mem (fun h => heq (h ▸ hname).symm) hm
  · rintro (rfl | ⟨entry, hentry, hrole, hunseen, m, hm, hname⟩)
    · exact ⟨found, hmem, rfl, hmarker ▸ hnew, marker, List.mem_cons_self, hmarker.symm⟩
    · exact ⟨entry, hentry, hrole, List.not_mem_of_not_mem_cons hunseen, m,
        List.mem_cons_of_mem _ hm, hname⟩

end Gives

/-- The roles are those of the table whose markers are there and have not been seen. -/
theorem mem_roles_from {seen annotations : List String} {role : String} :
    role ∈ (rolePatternsFrom seen annotations).map (·.role) ↔ Gives seen annotations role := by
  induction annotations generalizing seen with
  | nil => simp [rolePatternsFrom]
  | cons marker rest ih =>
    rw [rolePatternsFrom]
    split
    · next found hfound =>
      split
      · next hseen =>
        rw [ih, gives_cons_of_old]
        intro entry _ hname
        rw [hname]
        exact List.contains_iff_mem.1 hseen
      · next hseen =>
        rw [List.map_cons, List.mem_cons, ih,
          gives_cons_of_new hfound (mt List.contains_iff_mem.2 hseen)]
    · next hnone =>
      rw [ih, gives_cons_of_old]
      intro entry hentry hname
      exact absurd (beq_iff_eq.2 hname) (List.find?_eq_none.1 hnone entry hentry)

/-- No role is given twice, since a marker counts only once and no two markers give the same
role. -/
theorem nodup_roles_from (seen annotations : List String) :
    ((rolePatternsFrom seen annotations).map (·.role)).Nodup := by
  induction annotations generalizing seen with
  | nil => exact List.nodup_nil
  | cons marker rest ih =>
    rw [rolePatternsFrom]
    split
    · next found hfound =>
      obtain ⟨hmem, hmarker⟩ := of_find?_marker hfound
      split
      · exact ih seen
      · rw [List.map_cons, List.nodup_cons]
        refine ⟨?_, ih _⟩
        intro hagain
        obtain ⟨entry, hentry, hrole, hnew, _⟩ := mem_roles_from.1 hagain
        rw [List.inj_on_of_nodup_map nodup_roles hentry hmem hrole, hmarker] at hnew
        exact hnew List.mem_cons_self
    · exact ih seen

/-- The roles of controllers in the table are those of the markers of controllers. -/
theorem isController_iff {annotations : List String} :
    isController annotations = true ↔
      ∃ p ∈ rolePatterns annotations, p.role = "CONTROLLER" ∨ p.role = "REST_CONTROLLER" := by
  have htable : ∀ entry ∈ roleTable, entry.role = "CONTROLLER" ∨ entry.role = "REST_CONTROLLER" ↔
      entry.marker ∈ controllerMarkers := by decide
  have hlisted : ∀ name ∈ controllerMarkers, ∃ entry ∈ roleTable, entry.marker = name := by decide
  have hroles : (∃ p ∈ rolePatterns annotations, p.role = "CONTROLLER" ∨
      p.role = "REST_CONTROLLER") ↔
      ∃ role ∈ (rolePatterns annotations).map (·.role), role = "CONTROLLER" ∨
        role = "REST_CONTROLLER" := by
    simp
  rw [hroles, isController, List.any_eq_true]
  constructor
  · rintro ⟨marker, hmarker, hname⟩
    rw [List.contains_iff_mem] at hname
    obtain ⟨entry, hentry, heq⟩ := hlisted _ hname
    refine ⟨entry.role, ?_, (htable entry hentry).2 (heq ▸ hname)⟩
    exact mem_roles_from.2 ⟨entry, hentry, rfl, List.not_mem_nil, marker, hmarker, heq.symm⟩
  · rintro ⟨role, hrole, hcontroller⟩
    obtain ⟨entry, hentry, rfl, _, marker, hmarker, hname⟩ := mem_roles_from.1 hrole
    refine ⟨marker, hmarker, ?_⟩
    rw [hname, List.contains_iff_mem]
    exact (htable entry hentry).1 hcontroller

/-! ### Injections -/

/-- An annotation that marks its field as filled in by a container. -/
def MarksInjection (marker : String) : Prop :=
  annotationName marker ∈ ["Autowired", "Inject", "Resource", "Qualifier"]

instance : DecidablePred MarksInjection := fun marker =>
  inferInstanceAs
    (Decidable (annotationName marker ∈ ["Autowired", "Inject", "Resource", "Qualifier"]))

/-- The injection names the field, its type and the first annotation that marks it. -/
structure FilledBy (f : Field) (i : Injection) : Prop where
  fieldName : i.fieldName = f.name
  fieldType : i.fieldType = f.type
  marker : ∃ before after, f.annotations = before ++ i.marker :: after ∧ MarksInjection i.marker ∧
    ∀ other ∈ before, ¬MarksInjection other

theorem injectionOf?_eq (f : Field) :
    injectionOf? f = (f.annotations.find? fun marker => decide (MarksInjection marker)).map
      fun marker => ⟨f.name, f.type, "field", marker⟩ := by
  have hmarks : (fun marker => injectionMarkers.contains (annotationName marker)) =
      fun marker => decide (MarksInjection marker) := by
    funext marker
    exact List.contains_eq_mem _ _
  rw [injectionOf?, hmarks]

theorem filledBy_of_injectionOf? {f : Field} {i : Injection} (h : injectionOf? f = some i) :
    FilledBy f i := by
  rw [injectionOf?_eq] at h
  obtain ⟨marker, hfind, rfl⟩ := Option.map_eq_some_iff.1 h
  obtain ⟨hmarks, before, after, hannotations, hbefore⟩ := List.find?_eq_some_iff_append.1 hfind
  refine ⟨rfl, rfl, before, after, hannotations, of_decide_eq_true hmarks, ?_⟩
  intro other hother
  simpa using hbefore other hother

/-- There is one injection for each field that is marked, in the order of the fields. -/
theorem filledBy_injections (fields : List Field) :
    List.Forall₂ FilledBy (fields.filter fun f => decide (∃ a ∈ f.annotations, MarksInjection a))
      (fields.filterMap injectionOf?) := by
  have hsome : ∀ f, (injectionOf? f).isSome = decide (∃ a ∈ f.annotations, MarksInjection a) := by
    intro f
    rw [injectionOf?_eq, Option.isSome_map, List.isSome_find?, Bool.eq_iff_iff]
    simp
  induction fields with
  | nil => exact .nil
  | cons f rest ih =>
    rw [List.filter_cons, List.filterMap_cons, ← hsome]
    cases h : injectionOf? f with
    | none => exact ih
    | some i => exact .cons (filledBy_of_injectionOf? h) ih

theorem field_of_injection {fields : List Field} {i : Injection}
    (h : i ∈ fields.filterMap injectionOf?) : ∃ f ∈ fields, i.fieldType = f.type := by
  obtain ⟨f, hf, hi⟩ := List.mem_filterMap.1 h
  exact ⟨f, hf, (filledBy_of_injectionOf? hi).fieldType⟩

end ClassAtlas.Role

namespace ClassAtlas

open Source Role

/-! ### Groups -/

theorem Group.ofClass_eq_controllers {c : JavaClass} :
    Group.ofClass c = .controllers ↔
      ∃ p ∈ c.rolePatterns, p.role = "CONTROLLER" ∨ p.role = "REST_CONTROLLER" := by
  have hplays : (c.rolePatterns.any (·.role == "CONTROLLER") ||
      c.rolePatterns.any (·.role == "REST_CONTROLLER")) = true ↔
        ∃ p ∈ c.rolePatterns, p.role = "CONTROLLER" ∨ p.role = "REST_CONTROLLER" := by
    simp only [Bool.or_eq_true, List.any_eq_true, beq_iff_eq, and_or_left, exists_or]
  rw [← hplays]
  unfold Group.ofClass
  dsimp only
  constructor
  · intro h
    split at h
    · assumption
    · repeat' split at h
      all_goals cases h
  · intro h
    rw [if_pos h]

/-- The names that a summary files under a group. -/
def Summary.namesIn (s : Summary) (group : Group) : List String := (s.layers.lookup group).getD []

theorem namesIn_summary (atlas : Atlas) (group : Group) :
    atlas.summary.namesIn group =
      (atlas.classes.filter (Group.ofClass · == group)).map (·.name) := by
  cases group <;> rfl

end ClassAtlas

namespace ClassAtlas.Source

open Role

variable {settings : Settings} {path : String} {content : List Char} {c : JavaClass}

/-! ### The parts of a class -/

theorem methods_of_readClass? (h : readClass? settings path content = some c) :
    c.methods = (locatedMethods content settings.methodWindow c.name).map fun m =>
      { m.method with endpoint := endpoint? m.method (basePath? c.annotations) } := by
  obtain ⟨header, _, rfl⟩ := Option.map_eq_some_iff.1 h
  simp only [classify, List.map_map, map_zip_map]
  rfl

theorem endpoints_of_readClass? (h : readClass? settings path content = some c) :
    c.endpoints = if c.isController then c.methods.filterMap (·.endpoint) else [] := by
  rw [methods_of_readClass? h, List.filterMap_map]
  obtain ⟨header, _, rfl⟩ := Option.map_eq_some_iff.1 h
  simp only [classify, List.map_map, List.filterMap_map]
  rfl

theorem roles_of_readClass? (h : readClass? settings path content = some c) :
    c.isController = isController c.annotations ∧ c.rolePatterns = rolePatterns c.annotations ∧
      c.injections = c.fields.filterMap injectionOf? := by
  obtain ⟨header, _, rfl⟩ := Option.map_eq_some_iff.1 h
  exact ⟨rfl, rfl, rfl⟩

/-- A class depends on the names in the types of its fields. -/
theorem typeNames_mem_dependencies (h : readClass? settings path content = some c) {f : Field}
    (hf : f ∈ c.fields) {name : String} (hname : name ∈ typeNames f.type.toList) :
    name ∈ c.dependencies := by
  obtain ⟨header, _, rfl⟩ := Option.map_eq_some_iff.1 h
  refine NameSet.mem_ofList.2 ?_
  refine List.mem_append_left _ (List.mem_append_left _ (List.mem_append_right _ ?_))
  exact List.mem_flatMap.2 ⟨f, hf, hname⟩

/-- A class is filed under the controllers at its place among the others, or not at all. -/
theorem namesIn_controllers (h : readClass? settings path content = some c)
    (before after : List JavaClass) (related : List Relationship) :
    (Atlas.mk (before ++ c :: after) related).summary.namesIn .controllers =
      (Atlas.mk before related).summary.namesIn .controllers ++
        (if c.isController then [c.name] else []) ++
        (Atlas.mk after related).summary.namesIn .controllers := by
  obtain ⟨hcontroller, hroles, _⟩ := roles_of_readClass? h
  have hgroup : (Group.ofClass c == .controllers) = c.isController := by
    rw [Bool.eq_iff_iff, beq_iff_eq, Group.ofClass_eq_controllers, hcontroller, hroles,
      isController_iff]
  simp only [namesIn_summary, List.filter_append, List.filter_cons, hgroup, List.map_append]
  cases c.isController <;> simp

/-- The target of an injection that is related to a class is the type of one of its fields. -/
theorem target_of_injects (h : readClass? settings path content = some c)
    {resolution : CallResolution} {classes : List JavaClass} {e : Relationship}
    (he : e ∈ Graph.relationshipsOf resolution classes c) (hkind : e.kind = .injects) :
    ∃ f ∈ c.fields, e.target = f.type := by
  obtain ⟨_, _, hinjections⟩ := roles_of_readClass? h
  rw [Graph.relationshipsOf_eq_flatMap] at he
  obtain ⟨kind, _, he⟩ := List.mem_flatMap.1 he
  obtain ⟨_, hsame, _⟩ := Graph.mem_edgesOf he
  obtain rfl : kind = .injects := hsame.symm.trans hkind
  obtain ⟨i, hi, rfl⟩ := List.mem_map.1 he
  rw [hinjections] at hi
  exact field_of_injection hi

/-- What reading finds about a class holds together. Its methods are those of the source, each with
its own endpoint below the path of the class, and its endpoints are those of its methods if it is a
controller. It is a controller exactly if it plays the role of one, which is exactly if a summary
files it under the controllers, and it plays no role twice. There is one injection for each marked
field, in the order of the fields, and the class depends on all names in the types of its fields and
so in the targets of its injections. -/
theorem readClass?_consistent (h : readClass? settings path content = some c) :
    (c.methods.map fun m => { m with endpoint := none }) =
        methods content settings.methodWindow c.name ∧
      c.methods.map (·.endpoint) =
        (methods content settings.methodWindow c.name).map (endpoint? · (basePath? c.annotations)) ∧
      c.endpoints = (if c.isController then c.methods.filterMap (·.endpoint) else []) ∧
      (c.isController = true ↔
        ∃ p ∈ c.rolePatterns, p.role = "CONTROLLER" ∨ p.role = "REST_CONTROLLER") ∧
      (∀ before after related,
        (Atlas.mk (before ++ c :: after) related).summary.namesIn .controllers =
          (Atlas.mk before related).summary.namesIn .controllers ++
            (if c.isController then [c.name] else []) ++
            (Atlas.mk after related).summary.namesIn .controllers) ∧
      (c.rolePatterns.map (·.role)).Nodup ∧
      List.Forall₂ FilledBy
        (c.fields.filter fun f => decide (∃ a ∈ f.annotations, MarksInjection a)) c.injections ∧
      (∀ f ∈ c.fields, ∀ name ∈ typeNames f.type.toList, name ∈ c.dependencies) ∧
      ∀ resolution classes, ∀ e ∈ Graph.relationshipsOf resolution classes c, e.kind = .injects →
        ∀ name ∈ typeNames e.target.toList, name ∈ c.dependencies := by
  obtain ⟨hcontroller, hroles, hinjections⟩ := roles_of_readClass? h
  refine ⟨(members_of_readClass? h).1, ?_, endpoints_of_readClass? h, ?_,
    namesIn_controllers h, ?_, ?_, ?_, ?_⟩
  · rw [methods_of_readClass? h, methods, List.map_map, List.map_map]
    rfl
  · rw [hcontroller, hroles, isController_iff]
  · rw [hroles]
    exact nodup_roles_from [] c.annotations
  · rw [hinjections]
    exact filledBy_injections c.fields
  · intro f hf name hname
    exact typeNames_mem_dependencies h hf hname
  · intro resolution classes e he hkind name hname
    obtain ⟨f, hf, htarget⟩ := target_of_injects h he hkind
    rw [htarget] at hname
    exact typeNames_mem_dependencies h hf hname

/-- A controller with a field that is filled in and a method that serves a path. -/
def shopSource : List Char :=
  "@Controller class Shop\x7b@Inject T f;@GetMapping A m()\x7b\x7d\x7d".toList

theorem readClass?_consistent_shop :
    ∃ c, readClass? .default "Shop.java" shopSource = some c ∧
      (c.methods.filterMap (·.endpoint)).map (·.path) = ["/m"] ∧
      (∃ p ∈ c.rolePatterns, p.role = "CONTROLLER" ∨ p.role = "REST_CONTROLLER") ∧
      (Atlas.mk [c] []).summary.namesIn .controllers = ["Shop"] ∧
      List.Forall₂ FilledBy
        (c.fields.filter fun f => decide (∃ a ∈ f.annotations, MarksInjection a)) c.injections ∧
      c.injections.map (·.marker) = ["@Inject"] := by
  have hread : (readClass? .default "Shop.java" shopSource).map
      (fun c => (c.name, c.isController, c.endpoints.map (·.path), c.injections.map (·.marker))) =
        some ("Shop", true, ["/m"], ["@Inject"]) := by
    decide +kernel
  obtain ⟨c, hc, hparts⟩ := Option.map_eq_some_iff.1 hread
  simp only [Prod.mk.injEq] at hparts
  obtain ⟨hname, hcontroller, hpaths, hmarkers⟩ := hparts
  obtain ⟨_, _, hendpoints, hroles, hfiled, _, hinjections, _⟩ := readClass?_consistent hc
  have hnames := hfiled [] [] []
  rw [hcontroller, if_pos rfl] at hendpoints hnames
  refine ⟨c, hc, hendpoints ▸ hpaths, hroles.1 hcontroller, ?_, hinjections, hmarkers⟩
  rw [← hname]
  exact hnames

end ClassAtlas.Source
