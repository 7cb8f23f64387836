import ClassAtlas.Proofs.Source.LinesAbove
import ClassAtlas.Proofs.Source.Keywords

/-! The grammar of annotations, apart from the patterns that look for them: a name behind a sign,
maybe with arguments, where literals and one more level of parentheses may stand. The patterns meet
the grammar: the one for an annotation reads the longest one that starts at its place, and the one
for annotations at the end of a line reads them from the leftmost place from which they run to the
end. -/

namespace ClassAtlas.Source

open Pattern

/-! ### The grammar -/

/-- The characters between which any text may stand in arguments, literals and lists. -/
def enclosures : List (Char × Char) := [('"', '"'), ('\'', '\''), ('(', ')')]

/-- What stands between the parentheses of an annotation. -/
inductive Arguments : List Char → Prop where
  | nil : Arguments []
  | plain {ch : Char} {s : List Char} (h : ch ∉ ['(', ')', '"', '\'']) (hs : Arguments s) :
      Arguments (ch :: s)
  | enclosed {opening closing : Char} {inside s : List Char} (h : (opening, closing) ∈ enclosures)
      (hin : opening ∉ inside ∧ closing ∉ inside) (hs : Arguments s) :
      Arguments (opening :: (inside ++ closing :: s))

inductive Annotation : List Char → Prop where
  | marker {name : List Char} (hne : name ≠ []) (hname : ∀ ch ∈ name, isDotted ch = true) :
      Annotation ('@' :: name)
  | call {name gap args : List Char} (hne : name ≠ []) (hname : ∀ ch ∈ name, isDotted ch = true)
      (hgap : ∀ ch ∈ gap, Text.isBlank ch = true) (hargs : Arguments args) :
      Annotation ('@' :: (name ++ (gap ++ '(' :: (args ++ [')']))))

/-- The first annotation is as long as it can be. -/
structure Foremost (t rest : List Char) : Prop where
  written : Annotation t
  longest : ∀ t', Annotation t' → t' <+: t ++ rest → t'.length ≤ t.length

/-- The annotations in a text from left to right, each as long as it can be. -/
inductive Annotations : List Char → List (List Char) → Prop where
  | nil : Annotations [] []
  | pass {ch : Char} {s : List Char} {ts : List (List Char)}
      (h : ∀ t, Annotation t → ¬t <+: ch :: s) (hs : Annotations s ts) : Annotations (ch :: s) ts
  | take {t s : List Char} {ts : List (List Char)} (h : Foremost t s) (hs : Annotations s ts) :
      Annotations (t ++ s) (t :: ts)

/-- Annotations with nothing but blanks between and behind them. -/
inductive Run : List (List Char) → List Char → Prop where
  | nil : Run [] []
  | cons {t gap rest : List Char} {ts : List (List Char)} (h : Annotation t)
      (hgap : ∀ ch ∈ gap, Text.isBlank ch = true) (hrest : Run ts rest) :
      Run (t :: ts) (t ++ (gap ++ rest))

/-- A line ends with a run of annotations, as long as it can be, behind `rest`. -/
structure TrailingRun (line : List Char) (ts : List (List Char)) (rest : List Char) : Prop where
  written : ∃ r, line = rest ++ r ∧ Run ts r
  longest : ∀ s ts', s <:+ line → Run ts' s → rest.length + s.length ≤ line.length

/-! ### Arguments -/

/-- What a piece of an argument list between two characters reads. -/
theorem mem_enclosed {opening closing : Char} {cls : Char → Bool} {c : Cursor} {r : Unit × Cursor}
    (h : r ∈ (do one (· == opening); run cls; one (· == closing) : Pattern Unit) c) :
    ∃ inside, (∀ ch ∈ inside, cls ch = true) ∧ c.Reads (opening :: (inside ++ [closing])) r.2 := by
  obtain ⟨q₁, h₁, h⟩ := mem_bind.1 h
  obtain ⟨q₂, h₂, h⟩ := mem_bind.1 h
  obtain ⟨x, hx, hopen⟩ := mem_one h₁
  obtain ⟨inside, hinside, hcls, _⟩ := mem_run h₂
  obtain ⟨y, hy, hclose⟩ := mem_one h
  obtain rfl := eq_of_beq hx
  obtain rfl := eq_of_beq hy
  exact ⟨inside, hcls, hopen.trans (hinside.trans hclose)⟩

/-- A piece is a plain character, or text between two characters that it does not hold. -/
theorem mem_argumentPiece {c : Cursor} {r : Unit × Cursor} (h : r ∈ argumentPiece c) :
    (∃ ch, ch ∉ ['(', ')', '"', '\''] ∧ c.Reads [ch] r.2) ∨
      ∃ opening closing inside, (opening, closing) ∈ enclosures ∧
        (opening ∉ inside ∧ closing ∉ inside) ∧
        c.Reads (opening :: (inside ++ [closing])) r.2 := by
  rcases mem_orElse.1 h with h | h
  · obtain ⟨ch, hch, hread⟩ := mem_one h
    exact .inl ⟨ch, by simpa [and_assoc] using hch, hread⟩
  refine .inr ?_
  have hquoted : ∀ quote : Char,
      r ∈ (do one (· == quote); run (· != quote); one (· == quote) : Pattern Unit) c →
      ∃ inside, (quote ∉ inside ∧ quote ∉ inside) ∧ c.Reads (quote :: (inside ++ [quote])) r.2 := by
    intro quote h
    obtain ⟨inside, hcls, hread⟩ := mem_enclosed h
    have hno : quote ∉ inside := fun hmem => by simpa using hcls quote hmem
    exact ⟨inside, ⟨hno, hno⟩, hread⟩
  rcases mem_orElse.1 h with h | h
  · obtain ⟨inside, hno, hread⟩ := hquoted '"' h
    exact ⟨_, _, inside, by decide, hno, hread⟩
  rcases mem_orElse.1 h with h | h
  · obtain ⟨inside, hno, hread⟩ := hquoted '\'' h
    exact ⟨_, _, inside, by decide, hno, hread⟩
  · obtain ⟨inside, hcls, hread⟩ := mem_enclosed h
    refine ⟨_, _, inside, by decide, ⟨fun hmem => ?_, fun hmem => ?_⟩, hread⟩
    · simpa using hcls _ hmem
    · simpa using hcls _ hmem

theorem argumentPiece_progress : argumentPiece.Progress := by
  intro c r hr
  rcases mem_argumentPiece hr with ⟨ch, _, hread⟩ | ⟨opening, closing, inside, _, _, hread⟩
  · exact ⟨_, by simp, hread⟩
  · exact ⟨_, by simp, hread⟩

/-- The first character tells which piece it is. -/
theorem prefers_enclosed {opening closing : Char} {inside : List Char}
    (h : (opening, closing) ∈ enclosures) (hin : opening ∉ inside ∧ closing ∉ inside)
    (before rest : List Char) :
    argumentPiece.Prefers ⟨before, opening :: (inside ++ closing :: rest)⟩ ()
      ⟨closing :: (inside.reverse ++ opening :: before), rest⟩ := by
  have hread : ∀ cls : Char → Bool, (∀ ch ∈ inside, cls ch = true) → cls closing = false →
      (do one (· == opening); run cls; one (· == closing) : Pattern Unit).Prefers
        ⟨before, opening :: (inside ++ closing :: rest)⟩ ()
        ⟨closing :: (inside.reverse ++ opening :: before), rest⟩ := by
    intro cls hcls hclosing
    refine Prefers.bind (.of_eq (one_cons (beq_self_eq_true opening))) ?_
    refine Prefers.bind (.of_eq (run_append hcls (stops_cons hclosing))) ?_
    exact .of_eq (one_cons (beq_self_eq_true closing))
  have hne : ∀ ch ∈ inside, ch ≠ opening ∧ ch ≠ closing := by
    intro ch hch
    constructor
    · rintro rfl
      exact hin.1 hch
    · rintro rfl
      exact hin.2 hch
  simp only [enclosures, List.mem_cons, Prod.mk.injEq, List.not_mem_nil, or_false] at h
  rcases h with ⟨rfl, rfl⟩ | ⟨rfl, rfl⟩ | ⟨rfl, rfl⟩
  · refine Prefers.orElse_right (one_eq_nil (stops_cons (by decide))) (Prefers.orElse ?_)
    exact hread _ (fun ch hch => by simpa using (hne ch hch).1) (by decide)
  · refine Prefers.orElse_right (one_eq_nil (stops_cons (by decide))) (Prefers.orElse_right ?_
      (Prefers.orElse ?_))
    · exact bind_eq_nil (one_eq_nil (stops_cons (by decide)))
    · exact hread _ (fun ch hch => by simpa using (hne ch hch).1) (by decide)
  · refine Prefers.orElse_right (one_eq_nil (stops_cons (by decide))) (Prefers.orElse_right ?_
      (Prefers.orElse_right ?_ ?_))
    · exact bind_eq_nil (one_eq_nil (stops_cons (by decide)))
    · exact bind_eq_nil (one_eq_nil (stops_cons (by decide)))
    · exact hread _ (fun ch hch => by simpa using hne ch hch) (by decide)

/-- The pieces of an argument list are read up to the parenthesis that closes it. -/
theorem Arguments.steps {args : List Char} (h : Arguments args) (before rest : List Char) :
    Steps argumentPiece ⟨before, args ++ ')' :: rest⟩ ⟨args.reverse ++ before, ')' :: rest⟩ := by
  induction h generalizing before with
  | nil =>
    refine .done (orElse_eq_nil (one_eq_nil (stops_cons (by decide))) (orElse_eq_nil ?_
      (orElse_eq_nil ?_ ?_)))
    · exact bind_eq_nil (one_eq_nil (stops_cons (by decide)))
    · exact bind_eq_nil (one_eq_nil (stops_cons (by decide)))
    · exact bind_eq_nil (one_eq_nil (stops_cons (by decide)))
  | @plain ch s h hs ih =>
    have hch : (ch != '(' && ch != ')' && ch != '"' && ch != '\'') = true := by
      simpa [and_assoc] using h
    have hrest := ih (ch :: before)
    rw [List.reverse_cons, List.append_assoc, List.singleton_append]
    exact .step (Prefers.orElse (.of_eq (one_cons hch))) (by simp) hrest
  | @enclosed opening closing inside s h hin hs ih =>
    have hrest := ih (closing :: (inside.reverse ++ opening :: before))
    have hbefore : (opening :: (inside ++ closing :: s)).reverse ++ before =
        s.reverse ++ closing :: (inside.reverse ++ opening :: before) := by simp
    have htext : (opening :: (inside ++ closing :: s)) ++ ')' :: rest =
        opening :: (inside ++ closing :: (s ++ ')' :: rest)) := by simp
    rw [hbefore, htext]
    exact .step (prefers_enclosed h hin before _) (by simp; omega) hrest

theorem arguments_of_steps {c e : Cursor} (h : Steps argumentPiece c e) :
    ∃ args, Arguments args ∧ c.Reads args e := by
  induction h with
  | @done c h => exact ⟨[], .nil, .refl c⟩
  | step hstep _ _ ih =>
    obtain ⟨args, hargs, hread⟩ := ih
    rcases mem_argumentPiece hstep.mem with ⟨ch, hch, hfirst⟩ |
      ⟨opening, closing, inside, hpair, hin, hfirst⟩
    · exact ⟨ch :: args, .plain hch hargs, hfirst.trans hread⟩
    · refine ⟨opening :: (inside ++ closing :: args), .enclosed hpair hin hargs, ?_⟩
      have hall := hfirst.trans hread
      simpa using hall

theorem mem_argumentList {c : Cursor} {r : Unit × Cursor}
    (h : r ∈ (do blanks; lit "("; runOf argumentPiece; lit ")" : Pattern Unit) c) :
    ∃ gap args, (∀ ch ∈ gap, Text.isBlank ch = true) ∧ Arguments args ∧
      c.Reads (gap ++ '(' :: (args ++ [')'])) r.2 := by
  obtain ⟨q₁, h₁, h⟩ := mem_bind.1 h
  obtain ⟨q₂, h₂, h⟩ := mem_bind.1 h
  obtain ⟨q₃, h₃, h⟩ := mem_bind.1 h
  obtain ⟨gap, hgap, hblank, _⟩ := mem_run h₁
  obtain ⟨e, hsteps⟩ := argumentPiece_progress.exists_steps q₂.2
  rw [hsteps.runOf, List.mem_singleton] at h₃
  subst h₃
  obtain ⟨args, hargs, hread⟩ := arguments_of_steps hsteps
  have hopen : q₁.2.Reads ['('] q₂.2 := mem_lit h₂
  have hclose : e.Reads [')'] r.2 := mem_lit h
  exact ⟨gap, args, hblank, hargs, hgap.trans (hopen.trans (hread.trans hclose))⟩

/-! ### Single annotations -/

theorem annotation_cons {t : List Char} (h : Annotation t) :
    ∃ x more, t = '@' :: x :: more ∧ isDotted x = true := by
  cases h with
  | @marker name hne hname =>
    obtain ⟨x, more, rfl⟩ := List.exists_cons_of_ne_nil hne
    exact ⟨x, more, rfl, hname x List.mem_cons_self⟩
  | @call name gap args hne hname =>
    obtain ⟨x, more, rfl⟩ := List.exists_cons_of_ne_nil hne
    exact ⟨x, _, rfl, hname x List.mem_cons_self⟩

/-- The readings of an annotation are annotations, and each of them has the whole name. -/
theorem mem_annotationToken {c : Cursor} {r : Unit × Cursor} (h : r ∈ annotationToken c) :
    ∃ name more, (∀ ch ∈ name, isDotted ch = true) ∧ Annotation ('@' :: (name ++ more)) ∧
      c.Reads ('@' :: (name ++ more)) r.2 ∧ Stops isDotted (more ++ r.2.after) := by
  obtain ⟨q₁, h₁, h⟩ := mem_bind.1 h
  obtain ⟨q₂, h₂, h⟩ := mem_bind.1 h
  have hat : c.Reads ['@'] q₁.2 := mem_lit h₁
  obtain ⟨name, hne, hread, hname, hstop⟩ := mem_run1 h₂
  rcases mem_maybe.1 h with h | rfl
  · obtain ⟨gap, args, hgap, hargs, hlist⟩ := mem_argumentList h
    refine ⟨name, _, hname, .call hne hname hgap hargs, hat.trans (hread.trans hlist), ?_⟩
    rw [← hlist.after_eq]
    exact hstop
  · refine ⟨name, [], hname, ?_, ?_, hstop⟩
    · rw [List.append_nil]
      exact .marker hne hname
    · rw [List.append_nil]
      exact hat.trans hread

theorem annotationToken_progress : annotationToken.Progress := by
  intro c r hr
  obtain ⟨name, more, _, _, hread, _⟩ := mem_annotationToken hr
  exact ⟨_, by simp, hread⟩

/-- Something is read where an annotation can start, and only there. -/
theorem annotationToken_eq_nil_iff {c : Cursor} :
    annotationToken c = [] ↔ ∀ t, Annotation t → ¬t <+: c.after := by
  constructor
  · rintro hnil t ht ⟨rest, hrest⟩
    obtain ⟨x, more, rfl, hx⟩ := annotation_cons ht
    obtain ⟨before, after⟩ := c
    have htext : after = '@' :: x :: (more ++ rest) := hrest.symm
    subst htext
    have hat : lit "@" ⟨before, '@' :: x :: (more ++ rest)⟩ =
        [((), ⟨'@' :: before, x :: (more ++ rest)⟩)] := lit_append "@" before _
    have hname : run1 isDotted ⟨'@' :: before, x :: (more ++ rest)⟩ =
        [((), skip isDotted (x :: '@' :: before) (more ++ rest))] := by
      rw [run1, bind_eq_of_single (one_cons hx)]
      rfl
    unfold annotationToken at hnil
    rw [bind_eq_of_single hat, bind_eq_of_single hname] at hnil
    exact maybe_ne_nil _ _ hnil
  · intro hnone
    rw [List.eq_nil_iff_forall_not_mem]
    intro r hr
    obtain ⟨name, more, _, ht, hread, _⟩ := mem_annotationToken hr
    exact hnone _ ht ⟨r.2.after, hread.after_eq.symm⟩

/-- An annotation with arguments is preferred, wherever it stands. -/
theorem prefers_call {name gap args : List Char} (hne : name ≠ [])
    (hname : ∀ ch ∈ name, isDotted ch = true) (hgap : ∀ ch ∈ gap, Text.isBlank ch = true)
    (hargs : Arguments args) (before rest : List Char) :
    annotationToken.Prefers ⟨before, '@' :: (name ++ (gap ++ '(' :: (args ++ ')' :: rest)))⟩ ()
      ⟨')' :: (args.reverse ++ '(' :: (gap.reverse ++ (name.reverse ++ '@' :: before))), rest⟩ := by
  have hend : Stops isDotted (gap ++ '(' :: (args ++ ')' :: rest)) := by
    cases gap with
    | nil => exact stops_cons (by decide)
    | cons x gap =>
      refine stops_cons ?_
      by_contra hx
      have hblank := hgap x List.mem_cons_self
      rw [isBlank_of_isDotted (by simpa using hx)] at hblank
      simp at hblank
  refine Prefers.bind (.of_eq (lit_append "@" before _)) ?_
  refine Prefers.bind (.of_eq (run1_append hne hname hend)) ?_
  refine Prefers.maybe (Prefers.bind (.of_eq (run_append hgap (stops_cons (by decide)))) ?_)
  refine Prefers.bind (.of_eq (lit_append "(" _ _)) ?_
  exact Prefers.bind (.of_eq (hargs.steps _ rest).runOf) (.of_eq (lit_append ")" _ rest))

/-- What is preferred is the longest annotation. -/
theorem foremost_of_prefers {c d : Cursor} (h : annotationToken.Prefers c () d) :
    ∃ t, c.Reads t d ∧ Foremost t d.after := by
  obtain ⟨name, more, hname, ht, hread, hstop⟩ := mem_annotationToken h.mem
  refine ⟨_, hread, ht, ?_⟩
  rintro t' ht' ⟨rest, hrest⟩
  rw [← hread.after_eq] at hrest
  cases ht' with
  | @marker name' hne' hname' =>
    -- a name without arguments ends at the latest where the name that was read ends
    have hafter := hread.after_eq
    rw [← hrest, List.cons_append, List.cons_append, List.append_assoc] at hafter
    have hnames : name' ++ rest = name ++ (more ++ d.after) := (List.cons.inj hafter).2
    have hle : name'.length ≤ name.length := by
      by_contra hlt
      obtain ⟨u, hu⟩ : name <+: name' :=
        List.prefix_of_prefix_length_le ⟨more ++ d.after, hnames.symm⟩ ⟨rest, rfl⟩ (by omega)
      rw [← hu, List.append_assoc] at hnames
      have hrest' := List.append_cancel_left hnames
      cases u with
      | nil =>
        rw [List.append_nil] at hu
        rw [hu] at hlt
        exact hlt (Nat.le_refl _)
      | cons x u =>
        have hx := hstop x (by rw [← hrest']; rfl)
        rw [hname' x (by simp [← hu])] at hx
        simp at hx
    simp only [List.length_cons, List.length_append]
    omega
  | @call name' gap args hne' hname' hgap hargs =>
    obtain ⟨before, after⟩ := c
    have htext : after = '@' :: (name' ++ (gap ++ '(' :: (args ++ ')' :: rest))) := by
      simpa using hrest.symm
    subst htext
    have hd := Prefers.unique (prefers_call hne' hname' hgap hargs before rest) h
    have hlen := congrArg List.length hread.after_eq
    rw [← hd] at hlen
    simp only [List.length_cons, List.length_append, List.length_nil] at hlen ⊢
    omega

theorem Foremost.prefers {t rest : List Char} (h : Foremost t rest) (before : List Char) :
    annotationToken.Prefers ⟨before, t ++ rest⟩ () ⟨t.reverse ++ before, rest⟩ := by
  have hne : annotationToken ⟨before, t ++ rest⟩ ≠ [] := fun hnil =>
    annotationToken_eq_nil_iff.1 hnil t h.written (List.prefix_append t rest)
  obtain ⟨⟨⟨⟩, d⟩, others, hall⟩ := List.exists_cons_of_ne_nil hne
  obtain ⟨t', hread, hfirst⟩ := foremost_of_prefers ⟨others, hall⟩
  have hafter : t ++ rest = t' ++ d.after := hread.after_eq
  have hle := hfirst.longest t h.written (hafter ▸ List.prefix_append t rest)
  have hle' := h.longest t' hfirst.written (hafter ▸ List.prefix_append t' d.after)
  obtain ⟨rfl, hrest⟩ := List.append_inj hafter (Nat.le_antisymm hle hle')
  obtain rfl : d = ⟨t.reverse ++ before, rest⟩ := by
    obtain ⟨dbefore, dafter⟩ := d
    obtain rfl : rest = dafter := hrest
    exact congrArg (Cursor.mk · rest) hread.before_eq
  exact ⟨others, hall⟩

/-! ### The annotations of a line -/

theorem Annotations.matchesFrom {text : List Char} {ts : List (List Char)} (h : Annotations text ts)
    (before : List Char) :
    (matchesFrom annotationToken 0 before text).map (·.chars) = ts := by
  induction h generalizing before with
  | nil =>
    rw [Pattern.matchesFrom, matchAt?_eq_none.2 (annotationToken_progress.eq_nil_at_end before)]
    rfl
  | @pass ch s ts hnone _ ih =>
    have hnil : annotationToken ⟨before, ch :: s⟩ = [] := annotationToken_eq_nil_iff.2 hnone
    rw [Pattern.matchesFrom, matchAt?_eq_none.2 hnil]
    exact ih _
  | @take t s ts hfirst _ ih =>
    obtain ⟨x, more, ht, _⟩ := annotation_cons hfirst.written
    have hfound :=
      (hfirst.prefers before).finds (g := some ∘ fun m => m.chars) t (by simp [ht]) rfl rfl
    rw [Finds, List.filterMap_eq_map, ih, Function.comp_apply, Excerpt.chars_append] at hfound
    exact hfound

theorem exists_annotations (text : List Char) : ∃ ts, Annotations text ts := by
  induction hlen : text.length using Nat.strong_induction_on generalizing text with
  | _ count ih =>
    cases text with
    | nil => exact ⟨[], .nil⟩
    | cons ch s =>
      cases hread : annotationToken ⟨[], ch :: s⟩ with
      | nil =>
        obtain ⟨ts, hts⟩ := ih s.length (by simp [← hlen]) s rfl
        exact ⟨ts, .pass (annotationToken_eq_nil_iff.1 hread) hts⟩
      | cons r others =>
        obtain ⟨t, hreads, hfirst⟩ := foremost_of_prefers (d := r.2) ⟨others, hread⟩
        have htext : ch :: s = t ++ r.2.after := hreads.after_eq
        obtain ⟨x, more, ht, _⟩ := annotation_cons hfirst.written
        have hshort : r.2.after.length < count := by
          rw [← hlen, htext, ht]
          simp
          omega
        obtain ⟨ts, hts⟩ := ih _ hshort r.2.after rfl
        exact ⟨t :: ts, htext ▸ .take hfirst hts⟩

/-- The matches in a text are its annotations. -/
theorem annotations_iff {text : List Char} {ts : List (List Char)} :
    Annotations text ts ↔ (annotationToken.matchesIn text).map (·.chars) = ts := by
  constructor
  · intro h
    exact h.matchesFrom []
  · rintro rfl
    obtain ⟨ts, hts⟩ := exists_annotations text
    have hmatches := hts.matchesFrom []
    rw [Pattern.matchesIn, hmatches]
    exact hts

/-- The annotations of a line, or the line itself if it has none. -/
def LineAnnotations (line : List Char) (out : List (List Char)) : Prop :=
  ∃ ts, Annotations line ts ∧ out = if ts = [] then [line] else ts

theorem splitAnnotations_eq_iff {line : List Char} {out : List (List Char)} :
    splitAnnotations line = out.map String.ofList ↔ LineAnnotations line out := by
  have hsplit : ∀ ts, Annotations line ts →
      splitAnnotations line = (if ts = [] then [line] else ts).map String.ofList := by
    intro ts hts
    have hmatches := annotations_iff.1 hts
    unfold splitAnnotations
    split
    · next hnil =>
      rw [hnil] at hmatches
      rw [← hmatches]
      rfl
    · next hne =>
      have hts : ts ≠ [] := by
        rintro rfl
        exact hne (List.map_eq_nil_iff.1 hmatches)
      rw [if_neg hts, ← hmatches, List.map_map]
      rfl
  obtain ⟨ts, hts⟩ := exists_annotations line
  constructor
  · intro h
    rw [hsplit ts hts] at h
    exact ⟨ts, hts, ((List.map_inj_right fun _ _ => String.ofList_inj.1).1 h).symm⟩
  · rintro ⟨ts, hts, rfl⟩
    exact hsplit ts hts

/-! ### Runs -/

section Runs

variable {t gap rest r : List Char} {ts : List (List Char)}

theorem Run.head (h : Run ts r) : ∀ ch ∈ r.head?, ch = '@' := by
  cases h with
  | nil => simp
  | cons ht _ _ =>
    obtain ⟨x, more, rfl, _⟩ := annotation_cons ht
    simp

theorem Run.stops {cls : Char → Bool} (h : Run ts r) (hcls : cls '@' = false) : Stops cls r := by
  intro ch hch
  rw [h.head ch hch]
  exact hcls

theorem Run.stops_gap {cls : Char → Bool} (h : Run ts rest) (hcls : cls '@' = false)
    (hgap : ∀ ch ∈ gap, cls ch = false) : Stops cls (gap ++ rest) := by
  cases gap with
  | nil => exact h.stops hcls
  | cons x gap => exact stops_cons (hgap x List.mem_cons_self)

/-- An annotation that blanks and further ones follow is read as a whole and no further. -/
theorem Run.prefers_annotation (hrest : Run ts rest) (ht : Annotation t)
    (hgap : ∀ ch ∈ gap, Text.isBlank ch = true) (before : List Char) :
    annotationToken.Prefers ⟨before, t ++ (gap ++ rest)⟩ () ⟨t.reverse ++ before, gap ++ rest⟩ := by
  cases ht with
  | @marker name hne hname =>
    have hend : Stops isDotted (gap ++ rest) := by
      refine hrest.stops_gap (by decide) fun ch hch => ?_
      by_contra hdot
      have hblank := hgap ch hch
      rw [isBlank_of_isDotted (by simpa using hdot)] at hblank
      simp at hblank
    have hparen : ¬"(".toList <+: rest := by
      rintro ⟨more, rfl⟩
      exact absurd (hrest.head '(' rfl) (by decide)
    have hnone : ∀ b, (do blanks; lit "("; runOf argumentPiece; lit ")" : Pattern Unit)
        ⟨b, gap ++ rest⟩ = [] := by
      intro b
      refine (bind_eq_of_single (run_append hgap (hrest.stops (by decide)))).trans ?_
      exact bind_eq_nil (lit_eq_nil hparen)
    rw [List.cons_append, List.reverse_cons, List.append_assoc]
    refine Prefers.bind (.of_eq (lit_append "@" before _)) ?_
    refine Prefers.bind (.of_eq (run1_append hne hname hend)) ?_
    exact .of_eq (maybe_eq_single (hnone _))
  | @call name gap' args hne hname hgap' hargs =>
    have h := prefers_call hne hname hgap' hargs before (gap ++ rest)
    simpa using h

theorem Run.foremost (hrest : Run ts rest) (ht : Annotation t)
    (hgap : ∀ ch ∈ gap, Text.isBlank ch = true) : Foremost t (gap ++ rest) := by
  obtain ⟨t', hread, hfirst⟩ := foremost_of_prefers (hrest.prefers_annotation ht hgap [])
  have hafter : t ++ (gap ++ rest) = t' ++ (gap ++ rest) := hread.after_eq
  rw [List.append_cancel_right hafter]
  exact hfirst

theorem Annotations.append_gap (h : Annotations rest ts)
    (hgap : ∀ ch ∈ gap, Text.isBlank ch = true) : Annotations (gap ++ rest) ts := by
  induction gap with
  | nil => exact h
  | cons x gap ih =>
    refine .pass ?_ (ih fun ch hch => hgap ch (List.mem_cons_of_mem _ hch))
    rintro t ht ⟨more, hmore⟩
    obtain ⟨y, tail, rfl, _⟩ := annotation_cons ht
    have hx := hgap x List.mem_cons_self
    rw [← (List.cons.inj hmore).1] at hx
    exact absurd hx (by decide)

/-- The annotations in a run are those that it is made of. -/
theorem Run.annotations (h : Run ts r) : Annotations r ts := by
  induction h with
  | nil => exact .nil
  | cons ht hgap hrest ih => exact .take (hrest.foremost ht hgap) (ih.append_gap hgap)

theorem Run.unique {ts' : List (List Char)} (h : Run ts r) (h' : Run ts' r) : ts = ts' := by
  rw [← annotations_iff.1 h.annotations, ← annotations_iff.1 h'.annotations]

/-- Without the blanks behind it a run stays one. -/
theorem Run.trimmed (h : Run ts r) :
    ∃ core gap, r = core ++ gap ∧ (∀ ch ∈ gap, Text.isBlank ch = true) ∧ Run ts core ∧
      Stops Text.isBlank core.reverse := by
  induction h with
  | nil => exact ⟨[], [], rfl, by simp, .nil, stops_nil⟩
  | @cons t gap rest ts ht hgap hrest ih =>
    obtain ⟨core, gap', rfl, hgap', hcore, hlast⟩ := ih
    cases hcore with
    | nil =>
      refine ⟨t, gap ++ gap', by simp, ?_, ?_, ?_⟩
      · intro ch hch
        rcases List.mem_append.1 hch with hch | hch
        · exact hgap ch hch
        · exact hgap' ch hch
      · have hsingle : Run [t] (t ++ ([] ++ [])) := .cons ht (by simp) .nil
        simpa using hsingle
      · cases ht with
        | @marker name hne hname =>
          obtain ⟨init, last, rfl⟩ := (List.eq_nil_or_concat name).resolve_left hne
          intro ch hch
          obtain rfl : last = ch := by simpa using hch
          exact isBlank_of_isDotted (hname last (by simp))
        | call =>
          intro ch hch
          obtain rfl : ')' = ch := by simpa using hch
          decide
    | @cons t' gap'' rest'' ts' ht' hgap'' hrest'' =>
      refine ⟨t ++ (gap ++ (t' ++ (gap'' ++ rest''))), gap', by simp, hgap',
        .cons ht hgap (.cons ht' hgap'' hrest''), ?_⟩
      obtain ⟨x, more, rfl, _⟩ := annotation_cons ht'
      intro ch hch
      refine hlast ch ?_
      simp only [List.reverse_append, List.append_assoc, List.head?_append, Option.mem_def,
        List.reverse_cons] at hch ⊢
      simpa using hch

theorem Run.splitAnnotations_trim (h : Run ts r) (hne : ts ≠ []) :
    splitAnnotations (Text.trimChars r) = ts.map String.ofList := by
  obtain ⟨core, gap, rfl, hgap, hcore, hlast⟩ := h.trimmed
  have hcne : core ≠ [] := by
    rintro rfl
    exact hne (hcore.unique .nil)
  have htrim : Text.trimChars ([] ++ (core ++ gap)) = core :=
    Text.trimChars_append (by simp) hgap hcne (hcore.stops (by decide)) hlast
  rw [List.nil_append] at htrim
  rw [htrim, splitAnnotations_eq_iff]
  exact ⟨ts, hcore.annotations, (if_neg hne).symm⟩

end Runs

/-! ### Annotations at the end of a line -/

/-- One annotation of a run with the blanks behind it. -/
def runItem : Pattern Unit := do
  annotationToken
  blanks

theorem mem_runItem {c : Cursor} {q : Unit × Cursor} (h : q ∈ runItem c) :
    ∃ t gap, Annotation t ∧ (∀ ch ∈ gap, Text.isBlank ch = true) ∧ c.Reads (t ++ gap) q.2 := by
  obtain ⟨q', h', h⟩ := mem_bind.1 h
  obtain ⟨name, more, _, ht, hread, _⟩ := mem_annotationToken h'
  obtain ⟨gap, hgap, hblank, _⟩ := mem_run h
  exact ⟨_, gap, ht, hblank, hread.trans hgap⟩

theorem runItem_progress : runItem.Progress := by
  intro c q hq
  obtain ⟨t, gap, ht, _, hread⟩ := mem_runItem hq
  obtain ⟨x, more, rfl, _⟩ := annotation_cons ht
  exact ⟨_, by simp, hread⟩

theorem run_of_steps {c e : Cursor} (h : Steps runItem c e) : ∃ ts r, Run ts r ∧ c.Reads r e := by
  induction h with
  | @done c h => exact ⟨[], [], .nil, .refl c⟩
  | step hstep _ _ ih =>
    obtain ⟨ts, r, hr, hread⟩ := ih
    obtain ⟨t, gap, ht, hgap, hfirst⟩ := mem_runItem hstep.mem
    refine ⟨t :: ts, t ++ (gap ++ r), .cons ht hgap hr, ?_⟩
    rw [← List.append_assoc]
    exact hfirst.trans hread

theorem Run.prefers_item {t gap rest : List Char} {ts : List (List Char)} (hrest : Run ts rest)
    (ht : Annotation t) (hgap : ∀ ch ∈ gap, Text.isBlank ch = true) (before : List Char) :
    runItem.Prefers ⟨before, t ++ (gap ++ rest)⟩ () ⟨gap.reverse ++ (t.reverse ++ before), rest⟩ :=
  Prefers.bind (hrest.prefers_annotation ht hgap before)
    (.of_eq (run_append hgap (hrest.stops (by decide))))

theorem Run.steps {ts : List (List Char)} {r : List Char} (h : Run ts r) (before : List Char) :
    Steps runItem ⟨before, r⟩ ⟨r.reverse ++ before, []⟩ := by
  induction h generalizing before with
  | nil => exact .done (bind_eq_nil (annotationToken_progress.eq_nil_at_end before))
  | @cons t gap rest ts ht hgap hrest ih =>
    have hnext := ih (gap.reverse ++ (t.reverse ++ before))
    have hbefore : (t ++ (gap ++ rest)).reverse ++ before =
        rest.reverse ++ (gap.reverse ++ (t.reverse ++ before)) := by simp
    have hshort : rest.length < (t ++ (gap ++ rest)).length := by
      obtain ⟨x, more, rfl, _⟩ := annotation_cons ht
      simp only [List.length_append, List.length_cons]
      omega
    rw [hbefore]
    exact .step (hrest.prefers_item ht hgap before) hshort hnext

/-- The pattern reads where a run goes on to the end, and only there. -/
theorem trailingAnnotations_ne_nil_iff {before after : List Char} :
    trailingAnnotations ⟨before, after⟩ ≠ [] ↔ ∃ ts, ts ≠ [] ∧ Run ts after := by
  constructor
  · intro hne
    obtain ⟨q, hq⟩ := List.exists_mem_of_ne_nil _ hne
    obtain ⟨q₁, h₁, hq⟩ := mem_bind.1 hq
    obtain ⟨q₂, h₂, hq⟩ := mem_bind.1 hq
    obtain ⟨q₃, h₃, hq⟩ := mem_bind.1 hq
    obtain ⟨t, gap, ht, hgap, hfirst⟩ := mem_runItem (mem_bind.2 ⟨q₁, h₁, h₂⟩)
    obtain ⟨e, hsteps⟩ := runItem_progress.exists_steps q₂.2
    have hrun : runOf runItem q₂.2 = [((), e)] := hsteps.runOf
    obtain rfl : q₃ = ((), e) := List.mem_singleton.1 (hrun ▸ h₃)
    obtain ⟨ts, r, hr, hread⟩ := run_of_steps hsteps
    have hend : e.after = [] := List.isEmpty_iff.1 (mem_require.1 hq).1
    refine ⟨t :: ts, by simp, ?_⟩
    have hafter : after = t ++ gap ++ q₂.2.after := hfirst.after_eq
    rw [hafter, hread.after_eq, hend, List.append_nil, List.append_assoc]
    exact .cons ht hgap hr
  · rintro ⟨ts, hne, hrun⟩
    cases hrun with
    | nil => exact absurd rfl hne
    | @cons t gap rest ts ht hgap hrest =>
      have hread : trailingAnnotations.Prefers ⟨before, t ++ (gap ++ rest)⟩ ()
          ⟨rest.reverse ++ (gap.reverse ++ (t.reverse ++ before)), []⟩ := by
        refine Prefers.bind (hrest.prefers_annotation ht hgap before) ?_
        refine Prefers.bind (.of_eq (run_append hgap (hrest.stops (by decide)))) ?_
        exact Prefers.bind (.of_eq (hrest.steps _).runOf) (prefers_require rfl)
      exact List.ne_nil_of_mem hread.mem

theorem TrailingRun.unique {line rest rest' : List Char} {ts ts' : List (List Char)}
    (h : TrailingRun line ts rest) (h' : TrailingRun line ts' rest') : ts = ts' ∧ rest = rest' := by
  obtain ⟨r, hline, hr⟩ := h.written
  obtain ⟨r', hline', hr'⟩ := h'.written
  have hle := h.longest r' ts' ⟨rest', hline'.symm⟩ hr'
  have hle' := h'.longest r ts ⟨rest, hline.symm⟩ hr
  have hlen := congrArg List.length hline
  have hlen' := congrArg List.length hline'
  rw [List.length_append] at hlen hlen'
  obtain ⟨rfl, rfl⟩ := List.append_inj (hline.symm.trans hline') (by omega)
  exact ⟨hr.unique hr', rfl⟩

/-- The annotations that are found at the end of a line, and what stands before them. -/
theorem trailingRun_search (line : List Char) :
    match trailingAnnotations.search line with
    | some m => ∃ ts, TrailingRun line ts m.start.before.reverse ∧
        splitAnnotations (Text.trimChars m.chars) = ts.map String.ofList
    | none => TrailingRun line [] line := by
  have hplace : ∀ s ts, s <:+ line → Run ts s → ts = [] ∧ s = [] ∨
      ∃ before, before.reverse ++ s = line ∧ trailingAnnotations ⟨before, s⟩ ≠ [] := by
    rintro s ts ⟨pre, rfl⟩ hs
    by_cases hts : ts = []
    · subst hts
      cases hs
      exact .inl ⟨rfl, rfl⟩
    · exact .inr ⟨pre.reverse, by simp, trailingAnnotations_ne_nil_iff.2 ⟨ts, hts, hs⟩⟩
  split
  · next m hm =>
    obtain ⟨htext, hmem, hfirst⟩ := of_search_eq_some hm
    obtain ⟨ts, hne, hrun⟩ := trailingAnnotations_ne_nil_iff.1 (List.ne_nil_of_mem hmem)
    have hwhole : m.chars = m.start.after := by
      obtain ⟨q₁, h₁, hq⟩ := mem_bind.1 hmem
      obtain ⟨q₂, h₂, hq⟩ := mem_bind.1 hq
      obtain ⟨q₃, h₃, hq⟩ := mem_bind.1 hq
      obtain ⟨hend, hstop⟩ := mem_require.1 hq
      have hafter : m.stop.after = [] := by
        rw [show m.stop = q₃.2 from congrArg Prod.snd hstop]
        exact List.isEmpty_iff.1 hend
      simp [Excerpt.chars, Excerpt.length, hafter]
    refine ⟨ts, ⟨⟨m.start.after, htext.symm, hrun⟩, ?_⟩, ?_⟩
    · intro s ts' hs hrun'
      rcases hplace s ts' hs hrun' with ⟨_, rfl⟩ | ⟨before, hbefore, hread⟩
      · rw [← htext]
        simp [Cursor.text]
      · have hle := hfirst before s hbefore hread
        have hlen := congrArg List.length hbefore
        rw [List.length_append, List.length_reverse] at hlen
        rw [List.length_reverse]
        unfold Cursor.offset at hle
        omega
    · rw [hwhole]
      exact hrun.splitAnnotations_trim hne
  · next hm =>
    refine ⟨⟨[], by simp, .nil⟩, ?_⟩
    intro s ts hs hrun
    rcases hplace s ts hs hrun with ⟨_, rfl⟩ | ⟨before, hbefore, hread⟩
    · simp
    · rw [← hbefore] at hm
      exact absurd (eq_nil_of_search_eq_none hm) hread

end ClassAtlas.Source
