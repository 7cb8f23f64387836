import Mathlib.Data.List.Basic
import ClassAtlas.Proofs.Usage.Mining
import ClassAtlas.Proofs.Usage.Samples

/-! The call in the samples of a method. Every sample shows the same call with the same arguments,
on a line of its own or behind the variable that keeps its result. A basic sample and a sample with
error handling have such a variable exactly if the method has a result. The sample for the class's
role has it always, and so it declares a variable of type `void`, or of no type, for a method
without a result. -/

namespace ClassAtlas.Usage

open Source

/-- The text ends where a line starts, or in the indentation of a line. -/
def opensLine (text : String) : Bool :=
  (text.toList.reverse.dropWhile (· == ' ')).head?.all (· == '\n')

/-- The text starts where a line ends. -/
def closesLine (text : String) : Bool := text.toList.head?.all (· == '\n')

/-- The text declares a variable of the type and goes on with its value. -/
def Declares (type text : String) : Prop :=
  ∃ name : String, Worded name.toList ∧ text = type ++ " " ++ name ++ " = "

/-- The snippet holds the call at the end of a line, and in front of it the given text and at most
an indentation. -/
def ShowsCall (snippet text call : String) : Prop :=
  ∃ above below, opensLine above = true ∧ closesLine below = true ∧
    snippet = above ++ text ++ call ++ below

/-- The sample for the first role of a class. -/
def roleSampleOf? (c : JavaClass) (m : Method) : Option Sample :=
  c.rolePatterns.head?.bind fun p => roleSample? c m p.role

variable {c : JavaClass} {m : Method} {s : Sample}

theorem not_declares_empty (type : String) : ¬Declares type "" := by
  rintro ⟨name, _, h⟩
  have hlen := congrArg (fun s => s.toList.length) h
  simp at hlen

theorem returnsNothing_iff : returnsNothing m = true ↔ m.returnType ∈ ["void", ""] := by
  simp [returnsNothing]

/-- The variable for the result of a method, unless there is no result. -/
def resultText (m : Method) (name : String) : String :=
  if returnsNothing m then "" else m.returnType ++ " " ++ name ++ " = "

/-- The text is a declaration for a result and nothing otherwise. -/
def KeepsAnyResult (m : Method) (text : String) : Prop :=
  (text = "" ∨ Declares m.returnType text) ∧
    (Declares m.returnType text ↔ m.returnType ∉ ["void", ""])

theorem keepsAnyResult_resultText (m : Method) {name : String} (h : Worded name.toList) :
    KeepsAnyResult m (resultText m name) := by
  unfold KeepsAnyResult resultText
  rw [← returnsNothing_iff]
  by_cases hnothing : returnsNothing m = true
  · simp [hnothing, not_declares_empty]
  · have hdeclares : Declares m.returnType (m.returnType ++ " " ++ name ++ " = ") := ⟨name, h, rfl⟩
    rw [if_neg hnothing]
    exact ⟨.inr hdeclares, iff_of_true hdeclares hnothing⟩

/-! ### The three kinds of samples -/

theorem mem_methodSamples :
    s ∈ methodSamples c m ↔ s = basicSample c m ∨ roleSampleOf? c m = some s ∨
      2 < m.parameters.length ∧ s = errorHandlingSample c m := by
  have herror : s ∈ (if 2 < m.parameters.length then [errorHandlingSample c m] else []) ↔
      2 < m.parameters.length ∧ s = errorHandlingSample c m := by
    by_cases h : 2 < m.parameters.length <;> simp [h]
  rw [methodSamples, List.mem_append, List.mem_append, herror, or_assoc, List.mem_singleton,
    Option.mem_toList]
  rfl

theorem basicSample_shows (c : JavaClass) (m : Method) :
    ShowsCall (basicSample c m).snippet (resultText m (resultName m.returnType))
      (callStatement c m) := by
  refine ⟨"", "", rfl, rfl, ?_⟩
  by_cases h : returnsNothing m = true <;> simp [basicSample, resultText, h]

theorem errorHandlingSample_shows (c : JavaClass) (m : Method) :
    ShowsCall (errorHandlingSample c m).snippet (resultText m "result") (callStatement c m) := by
  have hvariable : (if returnsNothing m then "" else m.returnType ++ " result = ") =
      resultText m "result" := by
    unfold resultText
    split
    · rfl
    · simp only [String.append_assoc]
      rfl
  refine ⟨"try \x7b\n    ", "\n" ++ "\n".intercalate ["    // Handle success case",
    "\x7d catch (Exception e) \x7b",
    "    logger.error(\"Error calling " ++ m.name ++ ": \" + e.getMessage());", "\x7d"],
    by decide, ?_, ?_⟩
  · unfold closesLine
    rw [String.toList_append]
    rfl
  · unfold errorHandlingSample
    rw [hvariable, ← String.toList_inj]
    simp

/-- The roles that have samples of their own. -/
def sampledRoles : List String := ["CONTROLLER", "REST_CONTROLLER", "SERVICE", "REPOSITORY"]

theorem roleSample?_eq_some {role : String} (h : roleSample? c m role = some s) :
    role ∈ sampledRoles ∧ ∃ comment name context, Worded name.toList ∧
      s = roleSampleWith c m role comment name context := by
  unfold roleSample? at h
  split at h
  · next hrole =>
    obtain ⟨e, _, rfl⟩ := Option.map_eq_some_iff.1 h
    refine ⟨?_, _, _, _, by decide, rfl⟩
    rcases Bool.or_eq_true_iff.1 hrole with h | h <;> rw [eq_of_beq h] <;> decide
  · split at h
    · next hrole =>
      obtain rfl := Option.some.inj h
      exact ⟨by rw [eq_of_beq hrole]; decide, _, _, _, by decide, rfl⟩
    · split at h
      · next hrole =>
        obtain rfl := Option.some.inj h
        exact ⟨by rw [eq_of_beq hrole]; decide, _, _, _, by decide, rfl⟩
      · cases h

theorem roleSampleWith_shows (c : JavaClass) (m : Method) (role comment name context : String) :
    ShowsCall (roleSampleWith c m role comment name context).snippet
      (m.returnType ++ " " ++ name ++ " = ") (callStatement c m) := by
  refine ⟨"// " ++ comment ++ "\n", "", ?_, rfl, ?_⟩
  · unfold opensLine
    rw [String.toList_append, List.reverse_append]
    rfl
  · simp [roleSampleWith, String.append_assoc]

/-- The description of a sample for a role starts with the role, and no other sample's does. -/
theorem head?_description (h : roleSampleOf? c m = some s) :
    s.description.toList.head? ∈ [some 'C', some 'R', some 'S'] := by
  have hroles : ∀ role ∈ sampledRoles,
      role.toList.head? ∈ [some 'C', some 'R', some 'S'] := by decide
  obtain ⟨p, _, hsample⟩ := Option.bind_eq_some_iff.1 h
  obtain ⟨hrole, comment, name, context, _, rfl⟩ := roleSample?_eq_some hsample
  have hhead := hroles p.role hrole
  have hne : p.role.toList ≠ [] := by
    intro hnil
    simp [hnil] at hhead
  simp only [roleSampleWith, String.toList_append, List.append_assoc]
  rwa [List.head?_append_of_ne_nil _ hne]

/-! ### Results that are kept -/

/-- Every sample of a method shows the same call with the same arguments. The call stands on a line
of its own, or its result is kept in a variable of the method's return type. It is kept exactly if
there is a result or the sample is the one for the role of the class. -/
theorem methodSamples_keep_results (hs : s ∈ methodSamples c m) :
    s.parameters = argumentValues m ∧
      ∃ text, ShowsCall s.snippet text (callStatement c m) ∧
        (text = "" ∨ Declares m.returnType text) ∧
        (Declares m.returnType text ↔
          m.returnType ∉ ["void", ""] ∨ roleSampleOf? c m = some s) := by
  rcases mem_methodSamples.1 hs with rfl | hrole | ⟨_, rfl⟩
  · have hother : roleSampleOf? c m ≠ some (basicSample c m) :=
      fun h => absurd (head?_description h) (by simp [basicSample])
    obtain ⟨hform, hkeeps⟩ := keepsAnyResult_resultText m (worded_resultName m.returnType)
    exact ⟨rfl, _, basicSample_shows c m, hform, by rw [hkeeps, or_iff_left hother]⟩
  · obtain ⟨p, _, hsample⟩ := Option.bind_eq_some_iff.1 hrole
    obtain ⟨_, comment, name, context, hname, rfl⟩ := roleSample?_eq_some hsample
    have hdeclares : Declares m.returnType (m.returnType ++ " " ++ name ++ " = ") :=
      ⟨name, hname, rfl⟩
    exact ⟨rfl, _, roleSampleWith_shows c m p.role comment name context, .inr hdeclares,
      iff_of_true hdeclares (.inr hrole)⟩
  · have hother : roleSampleOf? c m ≠ some (errorHandlingSample c m) :=
      fun h => absurd (head?_description h) (by simp [errorHandlingSample])
    obtain ⟨hform, hkeeps⟩ :=
      keepsAnyResult_resultText m (show Worded "result".toList by decide)
    exact ⟨rfl, _, errorHandlingSample_shows c m, hform, by rw [hkeeps, or_iff_left hother]⟩

/-- A service. -/
def shelfService : JavaClass :=
  { bareClass "Shelf" "Shelf.java" with
    rolePatterns :=
      [⟨"SERVICE", "@Service", "Service component holding business logic", "BUSINESS"⟩] }

/-- A method without a result that takes three parameters. -/
def filing : Method where
  name := "file"
  returnType := "void"
  parameters := [⟨"String", "name"⟩, ⟨"int", "count"⟩, ⟨"Box", "box"⟩]
  annotations := []
  visibility := "public"
  isStatic := false
  calls := .empty
  endpoint := none

theorem methodSamples_keep_results_filing :
    errorHandlingSample shelfService filing ∈ methodSamples shelfService filing ∧
      (errorHandlingSample shelfService filing).parameters = ["\"John Doe\"", "10", "box"] ∧
      ShowsCall (errorHandlingSample shelfService filing).snippet ""
        "shelf.file(\"John Doe\", 10, box);" := by
  have hmem : errorHandlingSample shelfService filing ∈ methodSamples shelfService filing := by
    decide +kernel
  have hcall : callStatement shelfService filing = "shelf.file(\"John Doe\", 10, box);" := by
    decide +kernel
  have hrole : roleSampleOf? shelfService filing ≠
      some (errorHandlingSample shelfService filing) := by
    decide +kernel
  obtain ⟨hparameters, text, hshows, hform, hkeeps⟩ := methodSamples_keep_results hmem
  have htext : text = "" := by
    refine hform.resolve_right fun h => ?_
    rcases hkeeps.1 h with h | h
    · exact h (by decide)
    · exact hrole h
  rw [htext, hcall] at hshows
  exact ⟨hmem, hparameters.trans (by decide +kernel), hshows⟩

/-- The sample for the role of a service keeps a result that there is not. -/
theorem void_result_kept :
    ¬∀ s ∈ methodSamples shelfService filing,
      ∃ text, ShowsCall s.snippet text (callStatement shelfService filing) ∧
        KeepsAnyResult filing text := by
  intro hall
  let call := "shelf.file(\"John Doe\", 10, box);"
  let snippet := "// Business logic execution\nvoid result = shelf.file(\"John Doe\", 10, box);"
  have hcall : callStatement shelfService filing = call := by decide +kernel
  obtain ⟨s, hs, hsnippet⟩ : ∃ s ∈ methodSamples shelfService filing, s.snippet = snippet := by
    decide +kernel
  obtain ⟨text, hshows, hform, hkeeps⟩ := hall s hs
  have htext : text = "" := hform.resolve_right fun h => hkeeps.1 h (by decide)
  rw [htext, hcall, hsnippet] at hshows
  obtain ⟨above, below, hopens, _, heq⟩ := hshows
  -- the call stands at one place of the snippet, and there the line has begun with a variable
  have hplaces : ∀ k < snippet.toList.length + 1, call.toList.isPrefixOf (snippet.toList.drop k) →
      opensLine (String.ofList (snippet.toList.take k)) = false := by decide +kernel
  have hchars : snippet.toList = above.toList ++ (call.toList ++ below.toList) := by
    rw [heq]
    simp
  have hbegun := hplaces above.toList.length (by rw [hchars, List.length_append]; omega) (by
    rw [hchars, List.drop_left, List.isPrefixOf_iff_prefix]
    exact List.prefix_append _ _)
  rw [hchars, List.take_left, String.ofList_toList, hopens] at hbegun
  cases hbegun

end ClassAtlas.Usage
