import ClassAtlas.Settings.Load
import ClassAtlas.Proofs.Text.Upper

/-! A configuration is read back from its options. Each option is kept as it is given, but for the
choices, which are written by their names, and for the level, which is written in upper case. So
options that were read once are read again as they are, with and without the variables of the
environment. -/

namespace ClassAtlas

theorem bind_eq_ok_iff {ε α β : Type} {x : Except ε α} {f : α → Except ε β} {b : β} :
    (x >>= f) = .ok b ↔ ∃ a, x = .ok a ∧ f a = .ok b := by
  cases x <;> simp [bind, Except.bind]

/-- Where names tell the members of a list apart, a search for a name finds the one that has it. -/
theorem find?_name_eq_some {α : Type} {all : List α} {nameOf : α → String} {name : String} {a : α}
    (hmem : a ∈ all) (hinj : ∀ b, nameOf b = nameOf a → b = a) :
    all.find? (nameOf · == name) = some a ↔ name = nameOf a := by
  constructor
  · intro h
    have hname := List.find?_some h
    exact (beq_iff_eq.1 hname).symm
  · rintro rfl
    cases h : all.find? (nameOf · == nameOf a) with
    | none => exact absurd (beq_self_eq_true _) (List.find?_eq_none.1 h a hmem)
    | some b =>
      have hname := List.find?_some h
      rw [hinj b (beq_iff_eq.1 hname)]

theorem CallResolution.ofName?_eq_some {name : String} {r : CallResolution} :
    ofName? name = some r ↔ name = r.name := by
  refine find?_name_eq_some ?_ fun b => ?_
  · cases r <;> decide
  · cases r <;> cases b <;> decide

theorem UsageAcceptance.ofName?_eq_some {name : String} {a : UsageAcceptance} :
    ofName? name = some a ↔ name = a.name := by
  refine find?_name_eq_some ?_ fun b => ?_
  · cases a <;> decide
  · cases a <;> cases b <;> decide

/-! ### Numbers -/

section Numbers

open Float.Model (UnpackedFloat)

/-- Comparing the other way round turns the answer round, and there is an answer unless one of the
two is NaN. -/
theorem compare_swap_and_isSome (a b : UnpackedFloat) :
    b.compare a = (a.compare b).map Ordering.swap ∧
      (a.compare b).isSome = (!a.isNaN && !b.isNaN) := by
  cases a with
  | notANumber => cases b <;> exact ⟨rfl, rfl⟩
  | infinity s =>
    cases b with
    | infinity s' => cases s <;> cases s' <;> exact ⟨rfl, rfl⟩
    | _ => cases s <;> exact ⟨rfl, rfl⟩
  | zero s =>
    cases b with
    | infinity s' => cases s' <;> exact ⟨rfl, rfl⟩
    | finite s' => cases s' <;> exact ⟨rfl, rfl⟩
    | _ => exact ⟨rfl, rfl⟩
  | finite s m e =>
    cases b with
    | notANumber => exact ⟨rfl, rfl⟩
    | infinity s' => cases s' <;> exact ⟨rfl, rfl⟩
    | zero s' => cases s <;> exact ⟨rfl, rfl⟩
    | finite s' m' e' =>
      have hthen : (compare e' e).then (compare m' m) =
          ((compare e e').then (compare m m')).swap := by
        rw [Ordering.swap_then, ← Std.OrientedCmp.eq_swap, ← Std.OrientedCmp.eq_swap]
      cases s with
      | positive =>
        cases s' with
        | positive => exact ⟨congrArg some hthen, rfl⟩
        | negative => exact ⟨rfl, rfl⟩
      | negative =>
        cases s' with
        | positive => exact ⟨rfl, rfl⟩
        | negative => exact ⟨congrArg (some ∘ Ordering.swap) hthen, rfl⟩

theorem le_eq_not_lt {a b : UnpackedFloat} (hb : b.isNaN = false) :
    b.le a = (!a.lt b && !a.isNaN) := by
  obtain ⟨hswap, hsome⟩ := compare_swap_and_isSome a b
  rw [UnpackedFloat.le, UnpackedFloat.lt, hswap]
  cases hcompare : a.compare b with
  | none => simp_all
  | some o => cases o <;> simp_all

/-- A number is at least another one unless it is below it or is no number. -/
theorem real_le_iff {x y : Float} (hy : y.isNaN = false) : y ≤ x ↔ ¬x < y ∧ x.isNaN = false := by
  have hle : y ≤ x ↔ y.toModel.unpack.le x.toModel.unpack = true := decide_eq_true_iff
  have hlt : x < y ↔ x.toModel.unpack.lt y.toModel.unpack = true := decide_eq_true_iff
  have hnan : x.isNaN = x.toModel.unpack.isNaN := rfl
  rw [hle, hlt, hnan, le_eq_not_lt hy]
  simp

theorem OptionValue.atLeast?_eq {bound : Nat} (hbound : bound.toFloat.isNaN = false)
    (v : OptionValue) :
    v.atLeast? bound = (v.below? bound).map fun below => !below && !v.isNaN := by
  cases v with
  | real x => simp [atLeast?, below?, isNaN, real_le_iff hbound]
  | bool b => simp [atLeast?, below?, whole?, isNaN, ← decide_not]
  | int n => simp [atLeast?, below?, whole?, isNaN, ← decide_not]
  | _ => rfl

end Numbers

namespace Config

variable {env : Environment} {options : Options} {v v' : OptionValue}
  {value value' : String → OptionValue} {c : Config}

/-! ### Single options -/

theorem choiceOf_eq_ok {α : Type} {choice : Choice} {ofName? : String → Option α} {a : α} :
    Settings.choiceOf choice ofName? v = .ok a ↔ ∃ name, v = .string name ∧
      ofName? name = some a := by
  cases v with
  | string name => cases h : ofName? name <;> simp [Settings.choiceOf, h]
  | _ => simp [Settings.choiceOf]

/-- A choice is accepted if it is handed over itself, as a value of its own kind, or by its name. -/
theorem chosen_eq_ok {α : Type} {choice : Choice} {given? : OptionValue → Option α}
    {ofName? : String → Option α} {give : α → OptionValue} {nameOf : α → String}
    (hgiven : ∀ v a, given? v = some a ↔ v = give a)
    (hname : ∀ name a, ofName? name = some a ↔ name = nameOf a) {a : α} :
    chosen choice given? ofName? v = .ok a ↔
      v = give a ∨ given? v = none ∧ v = .string (nameOf a) := by
  unfold chosen
  cases h : given? v with
  | some b =>
    obtain rfl := (hgiven v b).1 h
    have hb : given? (give b) = some a ↔ give b = give a := hgiven (give b) a
    rw [h, Option.some_inj] at hb
    simp [hb]
  | none =>
    have hother : v ≠ give a := fun heq => by
      rw [(hgiven v a).2 heq] at h
      cases h
    simp [choiceOf_eq_ok, hname, hother]

theorem callResolutionOf_eq_ok {r : CallResolution} :
    callResolutionOf v = .ok r ↔ v = .callResolution r ∨ v = .string r.name := by
  have hgiven : ∀ v r, OptionValue.callResolution? v = some r ↔ v = .callResolution r := by
    intro v r
    cases v <;> simp [OptionValue.callResolution?]
  rw [callResolutionOf, chosen_eq_ok hgiven fun _ _ => CallResolution.ofName?_eq_some]
  exact or_congr_right (and_iff_right_of_imp fun h => h ▸ rfl)

theorem usageAcceptanceOf_eq_ok {a : UsageAcceptance} :
    usageAcceptanceOf v = .ok a ↔ v = .usageAcceptance a ∨ v = .string a.name := by
  have hgiven : ∀ v a, OptionValue.usageAcceptance? v = some a ↔ v = .usageAcceptance a := by
    intro v a
    cases v <;> simp [OptionValue.usageAcceptance?]
  rw [usageAcceptanceOf, chosen_eq_ok hgiven fun _ _ => UsageAcceptance.ofName?_eq_some]
  exact or_congr_right (and_iff_right_of_imp fun h => h ▸ rfl)

/-- A level in upper case that has a rank. -/
def ProperLevel (level : String) : Prop :=
  Text.upper level = level ∧ ∃ rank, Log.rankOf level = .ok rank

theorem levelOf_eq_ok {level : String} :
    levelOf v = .ok level ↔
      ∃ name, v = .string name ∧ Text.upper name = level ∧ ProperLevel level := by
  constructor
  · intro h
    cases v with
    | string name =>
      obtain ⟨rank, hrank, h⟩ := bind_eq_ok_iff.1 h
      obtain rfl : Text.upper name = level := Except.ok.inj h
      exact ⟨name, rfl, rfl, Text.upper_upper name, rank, hrank⟩
    | _ => exact absurd h (by simp [levelOf])
  · rintro ⟨name, rfl, rfl, _, rank, hrank⟩
    exact bind_eq_ok_iff.2 ⟨rank, hrank, rfl⟩

theorem notBelow_eq_ok {option : String} {least : Nat} {tooSmall : Fault} :
    notBelow option least tooSmall v = .ok v' ↔ v.below? least = some false ∧ v = v' := by
  unfold notBelow
  split <;> simp_all

/-! ### All options -/

/-- Each option is read from its value, or from what the environment sets. -/
structure Loads (env : Environment) (value : String → OptionValue) (c : Config) : Prop where
  methodWindow : value "method_annotation_window" = c.methodWindow
  fieldWindow : value "field_annotation_window" = c.fieldWindow
  contextRadius : notBelow "context_radius" 0 .negativeRadius (value "context_radius") =
    .ok c.contextRadius
  classUsageLimit : value "class_usage_limit" = c.classUsageLimit
  commonParameterCount : value "common_parameter_count" = c.commonParameterCount
  callResolution : callResolutionOf (overridden (value "call_resolution") env.callResolution) =
    .ok c.callResolution
  usageAcceptance : usageAcceptanceOf (overridden (value "usage_acceptance") env.usageAcceptance) =
    .ok c.usageAcceptance
  maxWorkers : ∃ workers, workersOf env (value "max_workers") = .ok workers ∧
    notBelow "max_workers" 1 .tooFewWorkers workers = .ok c.maxWorkers
  logLevel : levelOf (overridden (value "log_level") env.logLevel) = .ok c.logLevel
  fileSuffix : value "java_file_suffix" = c.fileSuffix

theorem find?_unknown :
    (options.find? fun (name, _) => !Settings.names.contains name) = none ↔
      ∀ o ∈ options, o.1 ∈ Settings.names := by
  simp [List.find?_eq_none]

theorem ofOptions_eq_ok_iff :
    ofOptions env options = .ok c ↔
      (∀ o ∈ options, o.1 ∈ Settings.names) ∧ Loads env options.value c := by
  constructor
  · intro h
    unfold ofOptions at h
    split at h
    · exact absurd h (by simp [throw, throwThe, MonadExceptOf.throw, bind, Except.bind])
    · next hfind =>
      obtain ⟨workers, hworkers, h⟩ := bind_eq_ok_iff.1 h
      obtain ⟨callResolution, hresolution, h⟩ := bind_eq_ok_iff.1 h
      obtain ⟨usageAcceptance, hacceptance, h⟩ := bind_eq_ok_iff.1 h
      obtain ⟨logLevel, hlevel, h⟩ := bind_eq_ok_iff.1 h
      obtain ⟨maxWorkers, hcount, h⟩ := bind_eq_ok_iff.1 h
      obtain ⟨contextRadius, hradius, h⟩ := bind_eq_ok_iff.1 h
      obtain rfl := Except.ok.inj h
      exact ⟨find?_unknown.1 hfind, rfl, rfl, hradius, rfl, rfl, hresolution, hacceptance,
        ⟨workers, hworkers, hcount⟩, hlevel, rfl⟩
  · rintro ⟨hnames, h⟩
    obtain ⟨workers, hworkers, hcount⟩ := h.maxWorkers
    unfold ofOptions
    rw [find?_unknown.2 hnames, h.methodWindow, h.fieldWindow, h.classUsageLimit,
      h.commonParameterCount, h.fileSuffix]
    exact bind_eq_ok_iff.2 ⟨_, hworkers, bind_eq_ok_iff.2 ⟨_, h.callResolution,
      bind_eq_ok_iff.2 ⟨_, h.usageAcceptance, bind_eq_ok_iff.2 ⟨_, h.logLevel,
      bind_eq_ok_iff.2 ⟨_, hcount, bind_eq_ok_iff.2 ⟨_, h.contextRadius, rfl⟩⟩⟩⟩⟩⟩

/-! ### Reading again -/

/-- What a configuration that was read is known to keep. -/
structure Proper (c : Config) : Prop where
  maxWorkers : c.maxWorkers.below? 1 = some false
  contextRadius : c.contextRadius.below? 0 = some false
  logLevel : ProperLevel c.logLevel

theorem Loads.proper (h : Loads env value c) : c.Proper where
  maxWorkers := by
    obtain ⟨workers, _, hcount⟩ := h.maxWorkers
    obtain ⟨hbelow, rfl⟩ := notBelow_eq_ok.1 hcount
    exact hbelow
  contextRadius := by
    obtain ⟨hbelow, hradius⟩ := notBelow_eq_ok.1 h.contextRadius
    rwa [hradius] at hbelow
  logLevel := by
    obtain ⟨_, _, _, hlevel⟩ := levelOf_eq_ok.1 h.logLevel
    exact hlevel

theorem mem_names_of_mem_toOptions {o : String × OptionValue} (h : o ∈ c.toOptions) :
    o.1 ∈ Settings.names := List.mem_map_of_mem (f := Prod.fst) h

/-- Without an environment the options are read as they were written. -/
theorem Proper.loads_toOptions (h : c.Proper) : Loads .empty c.toOptions.value c where
  methodWindow := rfl
  fieldWindow := rfl
  contextRadius := notBelow_eq_ok.2 ⟨h.contextRadius, rfl⟩
  classUsageLimit := rfl
  commonParameterCount := rfl
  callResolution := callResolutionOf_eq_ok.2 (.inr rfl)
  usageAcceptance := usageAcceptanceOf_eq_ok.2 (.inr rfl)
  maxWorkers := ⟨_, rfl, notBelow_eq_ok.2 ⟨h.maxWorkers, rfl⟩⟩
  logLevel := levelOf_eq_ok.2 ⟨_, rfl, h.logLevel.1, h.logLevel⟩
  fileSuffix := rfl

/-- What is read from a text that overrides does not depend on the value. -/
theorem overridden_again {α : Type} {read : OptionValue → Except Fault α} {a : α}
    {text? : Option String} (hplain : read v' = .ok a) (h : read (overridden v text?) = .ok a) :
    read (overridden v' text?) = .ok a := by
  cases text? with
  | none => exact hplain
  | some text => exact h

theorem workersOf_of_int? {text : String} {n : Int} (htext : env.maxWorkers = some text)
    (hn : Text.int? text = some n) : workersOf env v = .ok (.int n) := by
  simp [workersOf, htext, hn]

theorem workersOf_again {workers : OptionValue} (h : workersOf env v = .ok workers) :
    workersOf env v' = .ok (if env.maxWorkers.isSome then workers else v') := by
  unfold workersOf at h ⊢
  cases henv : env.maxWorkers with
  | none => rfl
  | some text =>
    rw [henv] at h
    simpa using h

/-- The configuration that is read in an environment from other values is read in it from these, if
it is read from these without it. -/
theorem Loads.again (hplain : Loads .empty value' c) (h : Loads env value c) :
    Loads env value' c where
  __ := hplain
  callResolution := overridden_again hplain.callResolution h.callResolution
  usageAcceptance := overridden_again hplain.usageAcceptance h.usageAcceptance
  maxWorkers := by
    obtain ⟨workers, hworkers, hcount⟩ := h.maxWorkers
    obtain ⟨_, hvalue, hcount'⟩ := hplain.maxWorkers
    obtain rfl := Except.ok.inj hvalue
    refine ⟨_, workersOf_again hworkers, ?_⟩
    split
    · exact hcount
    · exact hcount'
  logLevel := overridden_again hplain.logLevel h.logLevel

/-! ### Where each option comes from -/

/-- The variable that overrides an option. -/
def variableOf? (name : String) : Option String :=
  [("log_level", Environment.logLevelVariable), ("max_workers", Environment.maxWorkersVariable),
    ("call_resolution", Environment.callResolutionVariable),
    ("usage_acceptance", Environment.usageAcceptanceVariable)].lookup name

/-- The text that overrides an option. An empty one does not. -/
def override? (value? : String → Option String) (name : String) : Option String :=
  (variableOf? name).bind fun x => (value? x).filter (!·.isEmpty)

/-- A value as it is kept: the name of a level is put into upper case, and what is chosen is written
by its name. -/
def kept (name : String) : OptionValue → OptionValue
  | .string s => .string (if name = "log_level" then Text.upper s else s)
  | .callResolution r => if name = "call_resolution" then .string r.name else .callResolution r
  | .usageAcceptance a => if name = "usage_acceptance" then .string a.name else .usageAcceptance a
  | v => v

/-- The value that a text stands for. -/
def textValue? (name text : String) : Option OptionValue :=
  if name = "max_workers" then (Text.int? text).map .int else some (.string text)

theorem kept_eq_self {name : String}
    (h : name ∉ ["log_level", "call_resolution", "usage_acceptance"]) (v : OptionValue) :
    kept name v = v := by
  simp only [List.mem_cons, List.not_mem_nil, or_false, not_or] at h
  cases v <;> simp [kept, h]

theorem or_defaults {name : String} (h : name ∈ Settings.names) (options : Options) :
    (options.lookup name).or (Options.defaults.lookup name) = some (options.value name) := by
  have hdefault : ∀ name ∈ Settings.names, (Options.defaults.lookup name).isSome = true := by
    decide +kernel
  obtain ⟨v, hv⟩ := Option.isSome_iff_exists.1 (hdefault name h)
  cases hlookup : options.lookup name <;> simp [Options.value, hlookup, hv]

section Sources

variable {value? : String → Option String}

/-- What an option is read from: the text that overrides it, or else its value. -/
def source? (value? : String → Option String) (value : String → OptionValue) (name : String) :
    Option OptionValue :=
  match override? value? name with
  | some text => textValue? name text
  | none => some (value name)

theorem source?_eq_overridden {name : String} (hname : name ≠ "max_workers") :
    source? value? value name = some (overridden (value name) (override? value? name)) := by
  unfold source?
  cases override? value? name with
  | none => rfl
  | some text => simp [textValue?, hname, overridden]

theorem source?_workers {workers : OptionValue}
    (h : workersOf (.ofVariables value?) (value "max_workers") = .ok workers) :
    source? value? value "max_workers" = some workers := by
  have henv : (Environment.ofVariables value?).maxWorkers = override? value? "max_workers" := rfl
  unfold workersOf at h
  rw [henv] at h
  unfold source?
  cases htext : override? value? "max_workers" with
  | none =>
    rw [htext] at h
    exact congrArg some (Except.ok.inj h)
  | some text =>
    rw [htext] at h
    cases hint : Text.int? text with
    | none => simp [hint] at h
    | some n =>
      simp only [hint, Except.ok.injEq] at h
      simp [textValue?, hint, h]

/-- Each option is written as what it was read from. -/
theorem Loads.lookup_eq (h : Loads (.ofVariables value?) value c) {name : String}
    (hname : name ∈ Settings.names) :
    c.toOptions.lookup name = (source? value? value name).map (kept name) := by
  -- all but one option are read from the text itself or from the value itself
  have hwritten : ∀ name v w, name ≠ "max_workers" →
      overridden (value name) (override? value? name) = v → kept name v = w →
      some w = (source? value? value name).map (kept name) := by
    rintro name _ _ hne rfl rfl
    rw [source?_eq_overridden hne, Option.map_some]
  simp only [Settings.names, List.mem_cons, List.not_mem_nil, or_false] at hname
  rcases hname with rfl | rfl | rfl | rfl | rfl | rfl | rfl | rfl | rfl | rfl
  · exact hwritten "method_annotation_window" _ _ (by decide) h.methodWindow
      (kept_eq_self (by decide) _)
  · exact hwritten "field_annotation_window" _ _ (by decide) h.fieldWindow
      (kept_eq_self (by decide) _)
  · exact hwritten "context_radius" _ _ (by decide) (notBelow_eq_ok.1 h.contextRadius).2
      (kept_eq_self (by decide) _)
  · exact hwritten "class_usage_limit" _ _ (by decide) h.classUsageLimit
      (kept_eq_self (by decide) _)
  · exact hwritten "common_parameter_count" _ _ (by decide) h.commonParameterCount
      (kept_eq_self (by decide) _)
  · rcases callResolutionOf_eq_ok.1 h.callResolution with hvalue | hvalue
    · exact hwritten "call_resolution" _ _ (by decide) hvalue rfl
    · exact hwritten "call_resolution" _ _ (by decide) hvalue rfl
  · rcases usageAcceptanceOf_eq_ok.1 h.usageAcceptance with hvalue | hvalue
    · exact hwritten "usage_acceptance" _ _ (by decide) hvalue rfl
    · exact hwritten "usage_acceptance" _ _ (by decide) hvalue rfl
  · obtain ⟨workers, hworkers, hcount⟩ := h.maxWorkers
    rw [source?_workers hworkers, (notBelow_eq_ok.1 hcount).2, Option.map_some,
      kept_eq_self (by decide)]
    rfl
  · obtain ⟨text, hvalue, htext, _⟩ := levelOf_eq_ok.1 h.logLevel
    exact hwritten "log_level" _ _ (by decide) hvalue (congrArg OptionValue.string htext)
  · exact hwritten "java_file_suffix" _ _ (by decide) h.fileSuffix (kept_eq_self (by decide) _)

/-- A configuration that is read has at least one worker and a radius that is not negative, unless
the one or the other is NaN, and a level in upper case that has a rank. Its options are read as the
same configuration, in the environment that it was read in and in the empty one. An option whose
variable is not set keeps the value that was given or the default, and one whose variable is set has
the value that its text stands for. -/
theorem ofOptions_toOptions_of_ofOptions (value? : String → Option String) (options : Options)
    (c : Config) (h : ofOptions (.ofVariables value?) options = .ok c) :
    c.maxWorkers.atLeast? 1 = some (!c.maxWorkers.isNaN) ∧
    c.contextRadius.atLeast? 0 = some (!c.contextRadius.isNaN) ∧
    Text.upper c.logLevel = c.logLevel ∧ (∃ rank, Log.rankOf c.logLevel = .ok rank) ∧
    ofOptions (.ofVariables value?) c.toOptions = .ok c ∧ ofOptions .empty c.toOptions = .ok c ∧
    (∀ name ∈ Settings.names, override? value? name = none → c.toOptions.lookup name =
      ((options.lookup name).or (Options.defaults.lookup name)).map (kept name)) ∧
    ∀ name ∈ Settings.names, ∀ text, override? value? name = some text →
      c.toOptions.lookup name = (textValue? name text).map (kept name) := by
  obtain ⟨_, hloads⟩ := ofOptions_eq_ok_iff.1 h
  have hproper := hloads.proper
  have hplain := hproper.loads_toOptions
  refine ⟨?_, ?_, hproper.logLevel.1, hproper.logLevel.2, ?_, ?_, ?_, ?_⟩
  · rw [OptionValue.atLeast?_eq (by decide +kernel), hproper.maxWorkers]
    rfl
  · rw [OptionValue.atLeast?_eq (by decide +kernel), hproper.contextRadius]
    rfl
  · exact ofOptions_eq_ok_iff.2 ⟨fun _ => mem_names_of_mem_toOptions, hplain.again hloads⟩
  · exact ofOptions_eq_ok_iff.2 ⟨fun _ => mem_names_of_mem_toOptions, hplain⟩
  · intro name hname hfree
    rw [hloads.lookup_eq hname, or_defaults hname, source?, hfree]
  · intro name hname text htext
    rw [hloads.lookup_eq hname, source?, htext]

/-- A level without a dot on its letter, a number in other digits and a variable that is empty. -/
def foreignVariables (x : String) : Option String :=
  [(Environment.logLevelVariable, "ınfo"), (Environment.maxWorkersVariable, " ٣ "),
    (Environment.callResolutionVariable, ""),
    (Environment.usageAcceptanceVariable, "strict")].lookup x

def partialOptions : Options :=
  [("call_resolution", .callResolution .uniqueMatch), ("class_usage_limit", .null),
    ("context_radius", .bool true), ("log_level", .string "debug"),
    ("method_annotation_window", .real 2.5), ("max_workers", .int 2)]

def foreignConfig : Config where
  methodWindow := .real 2.5
  fieldWindow := .int 200
  contextRadius := .bool true
  classUsageLimit := .null
  commonParameterCount := .int 3
  callResolution := .uniqueMatch
  usageAcceptance := .strict
  maxWorkers := .int 3
  logLevel := "INFO"
  fileSuffix := .string ".java"

theorem ofOptions_toOptions_of_ofOptions_foreign :
    ofOptions (.ofVariables foreignVariables) partialOptions = .ok foreignConfig ∧
      foreignConfig.contextRadius.atLeast? 0 = some true ∧
      ofOptions (.ofVariables foreignVariables) foreignConfig.toOptions = .ok foreignConfig ∧
      ofOptions .empty foreignConfig.toOptions = .ok foreignConfig ∧
      "call_resolution" ∈ Settings.names ∧ override? foreignVariables "call_resolution" = none ∧
      foreignConfig.toOptions.lookup "call_resolution" = some (.string "unique_match") := by
  have hthree : Text.int? " ٣ " = some 3 := by decide +kernel
  have hlevel : ProperLevel "INFO" := ⟨by decide +kernel, 20, by decide +kernel⟩
  have h : ofOptions (.ofVariables foreignVariables) partialOptions = .ok foreignConfig :=
    ofOptions_eq_ok_iff.2 ⟨by decide,
      { methodWindow := rfl
        fieldWindow := rfl
        contextRadius := notBelow_eq_ok.2 ⟨by decide, rfl⟩
        classUsageLimit := rfl
        commonParameterCount := rfl
        callResolution := callResolutionOf_eq_ok.2 (.inl rfl)
        usageAcceptance := usageAcceptanceOf_eq_ok.2 (.inr rfl)
        maxWorkers := ⟨_, workersOf_of_int? rfl hthree, notBelow_eq_ok.2 ⟨by decide, rfl⟩⟩
        logLevel := levelOf_eq_ok.2 ⟨"ınfo", rfl, by decide +kernel, hlevel⟩
        fileSuffix := rfl }⟩
  obtain ⟨_, hradius, _, _, hsame, hempty, hfree, _⟩ := ofOptions_toOptions_of_ofOptions _ _ _ h
  exact ⟨h, hradius, hsame, hempty, by decide, by decide +kernel,
    hfree _ (by decide) (by decide +kernel)⟩

/-- What is no number is not below one, so it is taken for a number of workers, and yet it is not at
least one. -/
theorem ofOptions_not_a_number :
    ∃ c, ofOptions .empty [("max_workers", .real Json.notANumber)] = .ok c ∧
      c.maxWorkers.atLeast? 1 = some false := by
  refine ⟨_, rfl, ?_⟩
  decide +kernel

end Sources

end Config

end ClassAtlas
