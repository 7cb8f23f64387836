import ClassAtlas.Proofs.Pattern.Preference
import ClassAtlas.Source.Header

/-! Erasing type arguments. Each round removes the innermost ones, and where the angle brackets of a
text are balanced, what is left in the end is what stands outside of all of them. -/

namespace ClassAtlas.Source

open Pattern

/-- A text without type arguments stays as it is. -/
theorem eraseTypeArguments_eq {text : List Char} (h : '<' ∉ text) (fuel : Nat) :
    eraseTypeArguments fuel text = text := by
  have hmiss : Misses innermostArguments text := by
    refine misses_of_forall_mem fun ch hch before rest => bind_eq_nil (lit_eq_nil ?_)
    have hne : '<' ≠ ch := by
      rintro rfl
      exact h hch
    simpa using hne
  cases fuel with
  | zero => rfl
  | succ fuel => simp [eraseTypeArguments, hmiss.replace]

/-- A text with balanced angle brackets, and what stands outside of them. -/
inductive Nested : List Char → List Char → Prop where
  | nil : Nested [] []
  | char {ch : Char} {s out : List Char} (hopen : ch ≠ '<') (hclose : ch ≠ '>')
      (hrest : Nested s out) : Nested (ch :: s) (ch :: out)
  | group {inner skipped s out : List Char} (hinner : Nested inner skipped) (hrest : Nested s out) :
      Nested ('<' :: (inner ++ '>' :: s)) out

namespace Nested

variable {s t out out' inner : List Char}

theorem append (hs : Nested s out) (ht : Nested t out') : Nested (s ++ t) (out ++ out') := by
  induction hs with
  | nil => exact ht
  | char hopen hclose _ ih => exact .char hopen hclose ih
  | @group inner _ s _ hinner _ _ ih =>
    rw [List.cons_append, List.append_assoc, List.cons_append]
    exact .group hinner ih

theorem of_forall (h : ∀ ch ∈ s, ch ≠ '<' ∧ ch ≠ '>') : Nested s s := by
  induction s with
  | nil => exact .nil
  | cons ch s ih =>
    obtain ⟨⟨hopen, hclose⟩, hs⟩ := List.forall_mem_cons.1 h
    exact .char hopen hclose (ih hs)

/-- Without an opening bracket there is none at all. -/
theorem of_not_mem (h : Nested s out) (hs : '<' ∉ s) : s = out ∧ '>' ∉ s := by
  induction h with
  | nil => exact ⟨rfl, by simp⟩
  | char _ hclose _ ih =>
    rw [List.mem_cons, not_or] at hs
    obtain ⟨rfl, hno⟩ := ih hs.2
    exact ⟨rfl, by simp [hno, hclose.symm]⟩
  | group => simp at hs

/-- The first bracket opens. -/
theorem exists_opening (h : Nested s out) (hs : '<' ∈ s) :
    ∃ lead more, s = lead ++ '<' :: more ∧ ∀ ch ∈ lead, ch ≠ '<' ∧ ch ≠ '>' := by
  induction h with
  | nil => simp at hs
  | @char ch s _ hopen hclose _ ih =>
    obtain ⟨lead, more, rfl, hlead⟩ := ih ((List.mem_cons.1 hs).resolve_left hopen.symm)
    exact ⟨ch :: lead, more, rfl, List.forall_mem_cons.2 ⟨⟨hopen, hclose⟩, hlead⟩⟩
  | @group inner _ s _ _ _ _ _ => exact ⟨[], inner ++ '>' :: s, rfl, by simp⟩

/-- Type arguments are innermost when there are none inside. -/
theorem prefers_innermost (hopen : '<' ∉ inner) (hclose : '>' ∉ inner) (before rest : List Char) :
    innermostArguments.Prefers ⟨before, '<' :: (inner ++ '>' :: rest)⟩ ()
      ⟨'>' :: (inner.reverse ++ '<' :: before), rest⟩ := by
  have hrun : run (fun c => c != '<' && c != '>') ⟨'<' :: before, inner ++ '>' :: rest⟩ = _ :=
    run_append (fun ch hch => by simp [ne_of_mem_of_not_mem hch hopen,
      ne_of_mem_of_not_mem hch hclose]) (stops_cons (by decide))
  refine Prefers.bind (.of_eq (lit_append "<" before _)) (Prefers.bind (.of_eq hrun) ?_)
  exact .of_eq (lit_append ">" _ rest)

/-- Type arguments with others inside are not removed yet. -/
theorem innermost_eq_nil (h : Nested inner out) (hopen : '<' ∈ inner) (before rest : List Char) :
    innermostArguments ⟨before, '<' :: (inner ++ rest)⟩ = [] := by
  obtain ⟨lead, more, rfl, hlead⟩ := h.exists_opening hopen
  have hrun : run (fun c => c != '<' && c != '>') ⟨'<' :: before, lead ++ '<' :: (more ++ rest)⟩ =
      _ :=
    run_append (fun ch hch => by simp [hlead ch hch]) (stops_cons (by decide))
  have hlit : lit "<" ⟨before, '<' :: (lead ++ '<' :: more ++ rest)⟩ =
      [((), ⟨'<' :: before, lead ++ '<' :: (more ++ rest)⟩)] := by
    have h := lit_append "<" before (lead ++ '<' :: (more ++ rest))
    simpa using h
  refine (bind_eq_of_single hlit).trans ((bind_eq_of_single hrun).trans (lit_eq_nil ?_))
  simp

theorem replaceFrom_cons {ch : Char} (h : ch ≠ '<') (before more : List Char) :
    Pattern.replaceFrom innermostArguments [] 0 before (ch :: more) =
      ch :: Pattern.replaceFrom innermostArguments [] 0 (ch :: before) more := by
  have hmiss : Misses innermostArguments [ch] :=
    misses_single fun before rest => bind_eq_nil (lit_eq_nil (by simpa using h.symm))
  exact hmiss.replaceFrom [] before more

/-- One round keeps the brackets balanced and what is outside of them, and it removes something as
long as there are any. -/
theorem replaceFrom (h : Nested s out) (before rest : List Char) :
    ∃ s', Pattern.replaceFrom innermostArguments [] 0 before (s ++ rest) =
        s' ++ Pattern.replaceFrom innermostArguments [] 0 (s.reverse ++ before) rest ∧
      Nested s' out ∧ s'.length ≤ s.length ∧ ('<' ∈ s → s'.length < s.length) := by
  induction h generalizing before rest with
  | nil => exact ⟨[], rfl, .nil, Nat.le_refl _, by simp⟩
  | @char ch s out hopen hclose _ ih =>
    obtain ⟨s', heq, hs', hle, hlt⟩ := ih (ch :: before) rest
    refine ⟨ch :: s', ?_, .char hopen hclose hs', by simpa using hle, ?_⟩
    · rw [List.cons_append, replaceFrom_cons hopen, heq]
      simp
    · intro hmem
      simpa using hlt ((List.mem_cons.1 hmem).resolve_left hopen.symm)
  | @group inner _ s out hinner _ ihinner ih =>
    have htext : '<' :: (inner ++ '>' :: s) ++ rest =
        '<' :: (inner ++ '>' :: (s ++ rest)) := by simp
    by_cases hdeep : '<' ∈ inner
    · -- the brackets stay, and something inside goes
      obtain ⟨inner', hinner', hnested, _, hshorter⟩ := ihinner ('<' :: before) ('>' :: (s ++ rest))
      obtain ⟨s', heq, hs', hle, _⟩ := ih ('>' :: (inner.reverse ++ '<' :: before)) rest
      have hnone := matchAt?_eq_none.2 (hinner.innermost_eq_nil hdeep before ('>' :: (s ++ rest)))
      have hlt : ('<' :: (inner' ++ '>' :: s')).length < ('<' :: (inner ++ '>' :: s)).length := by
        have hless := hshorter hdeep
        simp only [List.length_cons, List.length_append]
        omega
      refine ⟨'<' :: (inner' ++ '>' :: s'), ?_, .group hnested hs', hlt.le, fun _ => hlt⟩
      rw [htext, Pattern.replaceFrom, hnone]
      simp only
      rw [hinner', replaceFrom_cons (by decide), heq]
      simp
    · obtain ⟨_, hclose⟩ := hinner.of_not_mem hdeep
      obtain ⟨s', heq, hs', hle, _⟩ := ih ('>' :: (inner.reverse ++ '<' :: before)) rest
      have hremoved := (prefers_innermost hdeep hclose before (s ++ rest)).replaceFrom
        ('<' :: (inner ++ ['>'])) (by simp) (by simp) []
      have hlt : s'.length < ('<' :: (inner ++ '>' :: s)).length := by
        simp only [List.length_cons, List.length_append]
        omega
      refine ⟨s', ?_, hs', hlt.le, fun _ => hlt⟩
      rw [htext, hremoved]
      simpa using heq

/-- What is left when nothing can be removed any more stands outside of all brackets. -/
theorem eraseTypeArguments_eq (h : Nested s out) {fuel : Nat} (hfuel : s.length ≤ fuel) :
    eraseTypeArguments fuel s = out := by
  induction fuel generalizing s with
  | zero =>
    obtain rfl : s = [] := List.eq_nil_of_length_eq_zero (Nat.le_zero.1 hfuel)
    exact (h.of_not_mem (by simp)).1
  | succ fuel ih =>
    by_cases hmem : '<' ∈ s
    · obtain ⟨s', heq, hs', _, hlt⟩ := h.replaceFrom [] []
      have hround : innermostArguments.replace [] s = s' := by
        simpa [replace, Pattern.replaceFrom] using heq
      have hless := hlt hmem
      have hne : (s' == s) = false := by
        rw [beq_eq_false_iff_ne]
        rintro rfl
        omega
      rw [eraseTypeArguments, hround]
      simp only [hne, Bool.false_eq_true, if_false]
      exact ih hs' (by omega)
    · rw [Source.eraseTypeArguments_eq hmem, (h.of_not_mem hmem).1]

end Nested

end ClassAtlas.Source
