import Mathlib.Data.List.Induction
import ClassAtlas.Project.Request
import ClassAtlas.Proofs.Project.Pool

/-! A scan keeps the usable files and nothing else, however many workers share it, and a session
remembers its last scan and nothing before it. -/

namespace ClassAtlas.Disk

/-! ### Paths -/

/-- Taking the ending off leaves another one. -/
theorem endsWith_sanitizePath (path : String) :
    Text.endsWith ".java.git" (sanitizePath path) = false := by
  cases h : Text.endsWith ".java.git" path with
  | false => rw [sanitizePath, h, if_neg Bool.false_ne_true, h]
  | true =>
    obtain ⟨stem, hstem⟩ := List.isSuffixOf_iff_suffix.1 h
    have hpath : path.toList = (stem ++ ".java".toList) ++ ".git".toList := by
      rw [← hstem, List.append_assoc]
      rfl
    have hlength : path.length - 4 = (stem ++ ".java".toList).length := by
      rw [← String.length_toList, hpath, List.length_append]
      exact Nat.add_sub_cancel _ 4
    rw [sanitizePath, h, if_pos rfl, hpath, List.take_left' hlength.symm, ← Bool.not_eq_true]
    intro hagain
    obtain ⟨other, hother⟩ := List.isSuffixOf_iff_suffix.1 hagain
    rw [String.toList_ofList] at hother
    have hlast := congrArg List.getLast? hother
    simp at hlast

theorem sanitizePath_sanitizePath (path : String) :
    sanitizePath (sanitizePath path) = sanitizePath path := by
  rw [sanitizePath, endsWith_sanitizePath]
  rfl

end ClassAtlas.Disk

namespace ClassAtlas.Project

open Disk Log Source

variable {settings : Settings} {load : Loader} {paths : List String}

/-! ### Files -/

/-- Whether a path leads to a text that declares a class. It does not if the file is absent or
cannot be read. -/
def usable (load : Loader) (path : String) : Bool :=
  match (load (sanitizePath path)).value with
  | .text content => (classHeader? content.toList).isSome
  | .absent => false
  | .failed _ => false

theorem value_classAt? (settings : Settings) (load : Loader) (path : String) :
    (classAt? settings load path).value =
      match (load (sanitizePath path)).value with
      | .text content => readClass? settings (sanitizePath path) content.toList
      | .absent => none
      | .failed _ => none := by
  rw [classAt?, Logged.value_bind]
  cases (load (sanitizePath path)).value with
  | absent => rfl
  | failed reason => rfl
  | text content =>
    dsimp only
    cases readClass? settings (sanitizePath path) content.toList with
    | none => rfl
    | some c => rfl

theorem isSome_classAt? (settings : Settings) (load : Loader) (path : String) :
    (classAt? settings load path).value.isSome = usable load path := by
  rw [value_classAt?, usable]
  cases (load (sanitizePath path)).value with
  | absent => rfl
  | failed reason => rfl
  | text content =>
    unfold readClass?
    exact Option.isSome_map

theorem classAt?_sanitizePath (settings : Settings) (load : Loader) (path : String) :
    (classAt? settings load (sanitizePath path)).value = (classAt? settings load path).value := by
  rw [value_classAt?, value_classAt?, sanitizePath_sanitizePath]

/-- A class records the path that it was read at. -/
theorem filePath_of_classAt? {path : String} {c : JavaClass}
    (h : (classAt? settings load path).value = some c) : c.filePath = sanitizePath path := by
  rw [value_classAt?] at h
  cases hload : (load (sanitizePath path)).value with
  | absent =>
    rw [hload] at h
    cases h
  | failed reason =>
    rw [hload] at h
    cases h
  | text content =>
    rw [hload] at h
    obtain ⟨header, _, rfl⟩ := Option.map_eq_some_iff.1 h
    rfl

/-! ### Scans -/

/-- The classes that are read at the paths. -/
def classesAt (settings : Settings) (load : Loader) (paths : List String) : List JavaClass :=
  paths.filterMap fun path => (classAt? settings load path).value

theorem value_readEach (settings : Settings) (load : Loader) (schedule : Schedule)
    (paths : List String) :
    (readEach settings load schedule paths).value =
      paths.map fun path => (classAt? settings load path).value := by
  rw [readEach]
  split
  · next h => exact Pool.value_mapM (by omega) schedule _ _
  · exact Logged.value_mapM _ _

theorem value_readFiles (settings : Settings) (load : Loader) (schedule : Schedule)
    (paths : List String) :
    (readFiles settings load schedule paths).value = classesAt settings load paths := by
  rw [readFiles, Logged.value_bind, value_readEach, List.filterMap_map]
  dsimp only
  split
  · rfl
  · rfl

theorem value_scan (settings : Settings) (load : Loader) (schedule : Schedule)
    (paths : List String) :
    (scan settings load schedule paths).value =
      ⟨classesAt settings load paths,
        Graph.relationships settings.callResolution (classesAt settings load paths)⟩ := by
  rw [← value_readFiles settings load schedule]
  rfl

theorem value_scan_congr {settings' : Settings} {schedule schedule' : Schedule}
    {paths' : List String} (hresolution : settings'.callResolution = settings.callResolution)
    (h : classesAt settings' load paths' = classesAt settings load paths) :
    (scan settings' load schedule' paths').value = (scan settings load schedule paths).value := by
  rw [value_scan, value_scan, h, hresolution]

theorem classesAt_filter_usable (settings : Settings) (load : Loader) (paths : List String) :
    classesAt settings load (paths.filter (usable load)) = classesAt settings load paths := by
  unfold classesAt
  rw [List.filterMap_filter]
  apply List.filterMap_congr
  intro path _
  rw [← isSome_classAt? settings]
  cases (classAt? settings load path).value with
  | none => rfl
  | some c => rfl

theorem classesAt_sanitizePath (settings : Settings) (load : Loader) (paths : List String) :
    classesAt settings load (paths.map sanitizePath) = classesAt settings load paths := by
  unfold classesAt
  rw [List.filterMap_map]
  apply List.filterMap_congr
  intro path _
  exact classAt?_sanitizePath settings load path

theorem map_filePath_classesAt (settings : Settings) (load : Loader) (paths : List String) :
    (classesAt settings load paths).map (·.filePath) =
      (paths.filter (usable load)).map sanitizePath := by
  unfold classesAt
  induction paths with
  | nil => rfl
  | cons path rest ih =>
    rw [List.filterMap_cons, List.filter_cons, ← isSome_classAt? settings]
    cases h : (classAt? settings load path).value with
    | none => exact ih
    | some c =>
      dsimp only
      rw [List.map_cons, ih, filePath_of_classAt? h]
      rfl

theorem classAt?_filePath {c : JavaClass} (h : c ∈ classesAt settings load paths) :
    sanitizePath c.filePath = c.filePath ∧ (classAt? settings load c.filePath).value = some c := by
  obtain ⟨path, _, hc⟩ := List.mem_filterMap.1 h
  rw [filePath_of_classAt? hc, sanitizePath_sanitizePath, classAt?_sanitizePath]
  exact ⟨rfl, hc⟩

/-- The outcome of a scan is that of the usable files among the paths. -/
structure Retraction (settings : Settings) (load : Loader) (paths : List String) (found : Atlas) :
    Prop where
  filePaths : found.classes.map (·.filePath) = (paths.filter (usable load)).map sanitizePath
  relationships : found.relationships = Graph.relationships settings.callResolution found.classes
  fixed : ∀ c ∈ found.classes,
    sanitizePath c.filePath = c.filePath ∧ (classAt? settings load c.filePath).value = some c
  /-- Scanning no more than the recorded paths finds the same. -/
  rescanned : ∀ schedule,
    (scan settings load schedule (found.classes.map (·.filePath))).value = found
  /-- Other unusable files, or the same ones elsewhere, change nothing. -/
  sameUsable : ∀ schedule others, others.filter (usable load) = paths.filter (usable load) →
    (scan settings load schedule others).value = found
  sanitized : ∀ schedule, (scan settings load schedule (paths.map sanitizePath)).value = found
  /-- How many workers there are, and which of them is done first, changes nothing. -/
  anyWorkers : ∀ workers schedule,
    (scan { settings with maxWorkers := workers } load schedule paths).value = found

theorem retraction_scan (settings : Settings) (load : Loader) (schedule : Schedule)
    (paths : List String) :
    Retraction settings load paths (scan settings load schedule paths).value := by
  have hclasses : (scan settings load schedule paths).value.classes =
      classesAt settings load paths := by rw [value_scan]
  constructor
  case filePaths => rw [hclasses, map_filePath_classesAt]
  case relationships => rw [value_scan]
  case fixed =>
    intro c hc
    rw [hclasses] at hc
    exact classAt?_filePath hc
  case rescanned =>
    intro schedule'
    apply value_scan_congr rfl
    rw [hclasses, map_filePath_classesAt, classesAt_sanitizePath, classesAt_filter_usable]
  case sameUsable =>
    intro schedule' others hothers
    apply value_scan_congr rfl
    rw [← classesAt_filter_usable, hothers, classesAt_filter_usable]
  case sanitized =>
    intro schedule'
    exact value_scan_congr rfl (classesAt_sanitizePath settings load paths)
  case anyWorkers =>
    intro workers schedule'
    -- reading a file does not look at the number of workers
    exact value_scan_congr rfl rfl

end ClassAtlas.Project

namespace ClassAtlas.Session

open Project

variable {s t : Session} {r : Request}

/-! ### Requests -/

def Request.changesFiles : Request → Bool
  | .setFile _ _ | .removeFile _ => true
  | _ => false

def Request.isScan : Request → Bool
  | .scan _ => true
  | _ => false

/-- Whether a request asks about the project. -/
def Request.isQuery : Request → Bool
  | .setFile _ _ | .removeFile _ | .scan _ | .timedStages | .setLogLevel _ | .journal => false
  | _ => true

/-- The session after a request. One that is refused changes nothing. -/
def step (s : Session) (r : Request) : Session :=
  match s.perform r with
  | .ok (_, next) => next
  | .error _ => s

def after (s : Session) (requests : List Request) : Session := requests.foldl step s

@[simp] theorem after_append_singleton (s : Session) (requests : List Request) (r : Request) :
    s.after (requests ++ [r]) = (s.after requests).step r := by
  rw [after, List.foldl_append]
  rfl

/-- Two sessions that tell the same about the project. -/
structure Agrees (s t : Session) : Prop where
  settings : s.settings = t.settings
  load : s.load = t.load
  atlas : s.atlas = t.atlas

/-- What a request does to a session, as far as queries can tell. -/
theorem agrees_step (h : r.changesFiles = false) :
    Agrees (s.step r) { s with
      atlas := match r with
        | .scan paths => (Project.scan s.settings s.load .inOrder paths).value
        | _ => s.atlas } := by
  cases r with
  | setFile path content => cases h
  | removeFile path => cases h
  | setLogLevel level =>
    rw [step, perform, setLogLevel]
    cases Log.rankOf level with
    | ok rank => exact ⟨rfl, rfl, rfl⟩
    | error fault => exact ⟨rfl, rfl, rfl⟩
  | _ => exact ⟨rfl, rfl, rfl⟩

/-- The answer to a query depends on the settings, the loader and the last scan alone. -/
theorem Agrees.reply (h : Agrees s t) (hr : r.isQuery = true) :
    (s.perform r).map (·.1) = (t.perform r).map (·.1) := by
  obtain ⟨hsettings, hload, hatlas⟩ := h
  cases r with
  | setFile path content => cases hr
  | removeFile path => cases hr
  | scan paths => cases hr
  | timedStages => cases hr
  | setLogLevel level => cases hr
  | journal => cases hr
  | _ =>
    dsimp only [perform, classAt?, methodUsages, methodStats, classUsages, methodExamples,
      classExamples, note, Prod.map, Except.map]
    simp only [hsettings, hload, hatlas]

theorem settings_load_after {requests : List Request}
    (h : ∀ r ∈ requests, r.changesFiles = false) :
    (s.after requests).settings = s.settings ∧ (s.after requests).load = s.load := by
  induction requests using List.reverseRecOn with
  | nil => exact ⟨rfl, rfl⟩
  | append_singleton requests r ih =>
    obtain ⟨hsettings, hload⟩ := ih fun r hr => h r (List.mem_append_left _ hr)
    have hstep := agrees_step (s := s.after requests)
      (h r (List.mem_append_right _ List.mem_cons_self))
    rw [after_append_singleton, ← hsettings, ← hload]
    exact ⟨hstep.settings, hstep.load⟩

/-- Along a run that changes no file, the outcome of the last scan replaces all others. -/
theorem atlas_after {requests : List Request} (h : ∀ r ∈ requests, r.changesFiles = false) :
    (s.after requests).atlas =
      (s.after (requests.filter (·.isScan)).getLast?.toList).atlas := by
  induction requests using List.reverseRecOn with
  | nil => rfl
  | append_singleton requests r ih =>
    have hearlier : ∀ r ∈ requests, r.changesFiles = false :=
      fun r hr => h r (List.mem_append_left _ hr)
    have hstep := agrees_step (s := s.after requests)
      (h r (List.mem_append_right _ List.mem_cons_self))
    rw [after_append_singleton, hstep.atlas, List.filter_append]
    cases r with
    | scan paths =>
      obtain ⟨hsettings, hload⟩ := settings_load_after (s := s) hearlier
      dsimp only
      rw [hsettings, hload, List.filter_cons_of_pos rfl, List.filter_nil,
        List.getLast?_concat]
      rfl
    | _ =>
      rw [List.filter_cons_of_neg Bool.false_ne_true, List.filter_nil, List.append_nil]
      exact ih hearlier

/-- A scan finds what the usable files hold, and a session that has performed any requests stands
where a fresh one stands after the last scan among them. -/
theorem retraction_and_last_scan (settings : Settings) (load : Loader) :
    (∀ schedule paths,
      let found := (Project.scan settings load schedule paths).value
      Retraction settings load paths found ∧
        ((ofLoader settings load).after [.scan paths]).atlas = found) ∧
    ∀ requests : List Request, (∀ r ∈ requests, r.changesFiles = false) →
      let held := (ofLoader settings load).after requests
      held.atlas =
          ((ofLoader settings load).after (requests.filter (·.isScan)).getLast?.toList).atlas ∧
        ∀ (t : Session) (q : Request), q.isQuery = true →
          t.settings = settings → t.load = load → t.atlas = held.atlas →
          (held.perform q).map (·.1) = (t.perform q).map (·.1) := by
  constructor
  · intro schedule paths
    exact ⟨retraction_scan settings load schedule paths, value_scan_congr rfl rfl⟩
  · intro requests h
    refine ⟨atlas_after h, ?_⟩
    intro t q hq hsettings hload hatlas
    obtain ⟨hsettings', hload'⟩ := settings_load_after (s := ofLoader settings load) h
    have hagrees : Agrees ((ofLoader settings load).after requests) t :=
      ⟨hsettings'.trans hsettings.symm, hload'.trans hload.symm, hatlas.symm⟩
    exact hagrees.reply hq

/-- Two files with a class, one that cannot be read, and one without a class. -/
def shelf : Loader := fun path =>
  match path with
  | "A.java" => pure (.text "class A {}")
  | "B.java" => pure (.failed "denied")
  | "C.java" => pure (.text "/* none */")
  | "D.java" => pure (.text "class D {}")
  | _ => pure .absent

theorem retraction_and_last_scan_shelf :
    let paths := ["B.java", "A.java.git", "C.java", "E.java", "D.java"]
    let requests := [.scan ["D.java"], .graph, .setLogLevel "loud", .scan paths, .summary]
    let fresh := ofLoader { Settings.default with maxWorkers := 3 } shelf
    (∀ r ∈ requests, r.changesFiles = false) ∧
      (fresh.after requests).atlas.classes.map (·.filePath) = ["A.java", "D.java"] ∧
      ((fresh.after requests).perform .graph).map (·.1) =
        ((fresh.after [.scan ["A.java", "D.java"]]).perform .graph).map (·.1) := by
  intro paths requests fresh
  have hrequests : ∀ r ∈ requests, r.changesFiles = false := by decide +kernel
  have hscans : (requests.filter (·.isScan)).getLast?.toList = [.scan paths] := rfl
  obtain ⟨hscan, hrun⟩ := retraction_and_last_scan { Settings.default with maxWorkers := 3 } shelf
  obtain ⟨hlast, hquery⟩ := hrun requests hrequests
  obtain ⟨hfound, hheld⟩ := hscan .inOrder paths
  have hpaths : (paths.filter (usable shelf)).map Disk.sanitizePath = ["A.java", "D.java"] := by
    decide +kernel
  rw [hscans, hheld] at hlast
  have hrescanned := hfound.rescanned .inOrder
  rw [hfound.filePaths, hpaths] at hrescanned
  refine ⟨hrequests, ?_, ?_⟩
  · rw [hlast, hfound.filePaths, hpaths]
  · apply hquery (fresh.after [.scan ["A.java", "D.java"]]) .graph rfl rfl rfl
    rw [hlast, ← hrescanned]
    exact (hscan .inOrder ["A.java", "D.java"]).2

end ClassAtlas.Session
