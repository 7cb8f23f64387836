import ClassAtlas.Proofs.Pattern.Scanning

/-! Which reading a pattern prefers. The lemmas follow a text through a composed pattern, one part
after the other: simple patterns have a single reading, an alternative counts only where those
before it have none, and a reading that leads nowhere gives way to the next one. -/

namespace ClassAtlas.Pattern

variable {α β : Type} {p q : Pattern α} {f : α → Pattern β} {c d e : Cursor} {a : α} {b : β}

/-- The preferred reading of the pattern at `c` yields `a` and goes on to `d`. -/
def Prefers (p : Pattern α) (c : Cursor) (a : α) (d : Cursor) : Prop :=
  ∃ others, p c = (a, d) :: others

theorem Prefers.matchAt? (h : p.Prefers c a d) : p.matchAt? c = some ⟨⟨c, d⟩, a⟩ := by
  obtain ⟨others, h⟩ := h
  rw [Pattern.matchAt?, h]

theorem exists_prefers (h : p c ≠ []) : ∃ a d, p.Prefers c a d := by
  obtain ⟨r, others, hr⟩ := List.exists_cons_of_ne_nil h
  exact ⟨r.1, r.2, others, hr⟩

theorem Prefers.unique {d' : Cursor} {a' : α} (h : p.Prefers c a d) (h' : p.Prefers c a' d') :
    d = d' := by
  obtain ⟨others, h⟩ := h
  obtain ⟨others', h'⟩ := h'
  rw [h] at h'
  exact congrArg Prod.snd (List.cons.inj h').1

theorem Prefers.mem (h : p.Prefers c a d) : (a, d) ∈ p c := by
  obtain ⟨others, h⟩ := h
  exact h ▸ List.mem_cons_self

/-- Where the pattern prefers to read the whole stretch, scanning finds that match there. -/
theorem Prefers.finds {γ : Type} {g : Match α → Option γ} {before before' text rest : List Char}
    (h : p.Prefers ⟨before, text⟩ a ⟨before', rest⟩) (seg : List Char) (hne : seg ≠ [])
    (htext : text = seg ++ rest) (hbefore : before' = seg.reverse ++ before) :
    Finds p g before seg rest (g ⟨⟨⟨before, text⟩, ⟨before', rest⟩⟩, a⟩).toList := by
  subst htext hbefore
  cases seg with
  | nil => exact absurd rfl hne
  | cons x s => exact finds_match h.matchAt?

/-- What the pattern prefers to read is replaced. -/
theorem Prefers.replaceFrom {before before' text rest : List Char}
    (h : p.Prefers ⟨before, text⟩ a ⟨before', rest⟩) (seg : List Char) (hne : seg ≠ [])
    (htext : text = seg ++ rest) (new : List Char) :
    replaceFrom p new 0 before text = new ++ replaceFrom p new 0 (seg.reverse ++ before) rest := by
  subst htext
  cases seg with
  | nil => exact absurd rfl hne
  | cons x s =>
    have hm := h.matchAt?
    rw [List.cons_append] at hm
    have hlen : (x :: (s ++ rest)).length - rest.length - 1 = s.length := by
      simp only [List.length_append, List.length_cons]
      omega
    rw [List.cons_append, Pattern.replaceFrom, hm]
    simp only [Excerpt.length, hlen]
    rw [replaceFrom_skip, List.reverse_cons, List.append_assoc, List.singleton_append]

/-- Behind a stretch that is missed, the first match is the one that the pattern prefers. -/
theorem Prefers.matchesIn {seg rest : List Char} (hm : Misses p seg) (hne : rest ≠ [])
    (h : p.Prefers ⟨seg.reverse, rest⟩ a d) :
    ∃ more, p.matchesIn (seg ++ rest) = ⟨⟨⟨seg.reverse, rest⟩, d⟩, a⟩ :: more := by
  have hall := hm.matchesFrom [] rest
  rw [List.append_nil] at hall
  cases rest with
  | nil => exact absurd rfl hne
  | cons ch rest =>
    rw [Pattern.matchesIn, hall, matchesFrom, h.matchAt?]
    exact ⟨_, rfl⟩

theorem Prefers.search {seg rest : List Char} (hm : Misses p seg) (hne : rest ≠ [])
    (h : p.Prefers ⟨seg.reverse, rest⟩ a d) :
    p.search (seg ++ rest) = some ⟨⟨⟨seg.reverse, rest⟩, d⟩, a⟩ := by
  obtain ⟨more, hall⟩ := h.matchesIn hm hne
  rw [search_eq_head?, hall, List.head?_cons]

theorem Prefers.of_eq (h : p c = [(a, d)]) : p.Prefers c a d := ⟨[], h⟩

theorem prefers_pure (a : α) (c : Cursor) : (pure a : Pattern α).Prefers c a c := .of_eq rfl

theorem prefers_here (c : Cursor) : here.Prefers c c c := .of_eq rfl

theorem prefers_require {holds : Cursor → Bool} (h : holds c = true) :
    (require holds).Prefers c () c := .of_eq (by simp [require, h])

theorem Prefers.bind (hp : p.Prefers c a d) (hf : (f a).Prefers d b e) :
    (p >>= f).Prefers c b e := by
  obtain ⟨others, hp⟩ := hp
  obtain ⟨others', hf⟩ := hf
  exact ⟨_, by rw [bind_apply, hp, List.flatMap_cons, hf, List.cons_append]⟩

/-- Readings that lead nowhere give way to the next one. -/
theorem Prefers.bind_behind {skipped others : List (α × Cursor)}
    (hp : p c = skipped ++ (a, d) :: others) (hskip : ∀ r ∈ skipped, f r.1 r.2 = [])
    (hf : (f a).Prefers d b e) : (p >>= f).Prefers c b e := by
  obtain ⟨others', hf⟩ := hf
  have hnil : (skipped.flatMap fun r => f r.1 r.2) = [] := List.flatMap_eq_nil_iff.2 hskip
  exact ⟨_, by rw [bind_apply, hp, List.flatMap_append, hnil, List.nil_append,
    List.flatMap_cons, hf, List.cons_append]⟩

theorem Prefers.orElse (hp : p.Prefers c a d) : (p <|> q).Prefers c a d := by
  obtain ⟨others, hp⟩ := hp
  exact ⟨_, by rw [orElse_apply, hp, List.cons_append]⟩

theorem Prefers.orElse_right (hp : p c = []) (hq : q.Prefers c a d) : (p <|> q).Prefers c a d := by
  obtain ⟨others, hq⟩ := hq
  exact ⟨others, by rw [orElse_apply, hp, List.nil_append, hq]⟩

theorem Prefers.map {g : α → β} (hp : p.Prefers c a d) : (g <$> p).Prefers c (g a) d :=
  hp.bind (prefers_pure _ _)

theorem Prefers.optional (hp : p.Prefers c a d) : (optional p).Prefers c (some a) d :=
  hp.map.orElse

theorem optional_eq_single (hp : p c = []) : (optional p) c = [(none, c)] := by
  change (p >>= fun a => pure (some a)) c ++ [(none, c)] = _
  rw [bind_apply, hp, List.flatMap_nil, List.nil_append]

theorem Prefers.maybe {p : Pattern Unit} (hp : p.Prefers c () d) : (maybe p).Prefers c () d :=
  hp.orElse

theorem maybe_eq_single {p : Pattern Unit} (hp : p c = []) : (maybe p) c = [((), c)] := by
  rw [Pattern.maybe, orElse_apply, hp]
  rfl

theorem maybe_ne_nil (p : Pattern Unit) (c : Cursor) : maybe p c ≠ [] := by
  rw [Pattern.maybe, orElse_apply, pure_apply]
  simp

theorem optional_ne_nil (p : Pattern α) (c : Cursor) : (optional p) c ≠ [] :=
  List.ne_nil_of_mem (mem_optional.2 (.inr rfl))

theorem Prefers.captured {p : Pattern Unit} (hp : p.Prefers c () d) :
    (captured p).Prefers c ⟨c, d⟩ d := by
  obtain ⟨others, hp⟩ := hp
  exact ⟨_, by rw [Pattern.captured, hp, List.map_cons]⟩

theorem captured_eq_append {p : Pattern Unit} {skipped others : List (Unit × Cursor)}
    (hp : p c = skipped ++ ((), d) :: others) :
    captured p c = skipped.map (fun r => (⟨c, r.2⟩, r.2)) ++
      (⟨c, d⟩, d) :: others.map fun r => (⟨c, r.2⟩, r.2) := by
  rw [Pattern.captured, hp, List.map_append, List.map_cons]

theorem repeated_eq_single {p : Pattern Unit} (hp : p c = []) : (repeated p) c = [((), c)] := by
  obtain ⟨before, after⟩ := c
  rw [repeated]
  cases after with
  | nil => rfl
  | cons ch rest => rw [repetitions, hp]

theorem runOf_eq_single {p : Pattern Unit} (hp : p c = []) : (runOf p) c = [((), c)] := by
  obtain ⟨before, after⟩ := c
  rw [runOf]
  cases after with
  | nil => rfl
  | cons ch rest => rw [skipAll, hp]

/-- Repetitions lead from one place to another, where there is none any more. -/
inductive Steps (p : Pattern Unit) : Cursor → Cursor → Prop where
  | done {c : Cursor} (h : p c = []) : Steps p c c
  | step {c d e : Cursor} (h : p.Prefers c () d) (hlt : d.after.length < c.after.length)
      (hrest : Steps p d e) : Steps p c e

theorem Steps.runOf {p : Pattern Unit} (h : Steps p c d) : runOf p c = [((), d)] := by
  have hall : ∀ limit : List Char, c.after.length ≤ limit.length → skipAll p limit c = d := by
    induction h with
    | done hc =>
      intro limit _
      cases limit with
      | nil => rfl
      | cons ch limit => rw [skipAll, hc]
    | step hstep hlt _ ih =>
      intro limit hlimit
      obtain ⟨others, hstep⟩ := hstep
      cases limit with
      | nil =>
        simp only [List.length_nil] at hlimit
        omega
      | cons ch limit =>
        rw [skipAll, hstep]
        refine ih limit ?_
        simp only [List.length_cons] at hlimit
        omega
  rw [Pattern.runOf, hall c.after (Nat.le_refl _)]

theorem length_lt_of_reads {s : List Char} (hs : s ≠ []) (h : c.Reads s d) :
    d.after.length < c.after.length := by
  have hpos := List.length_pos_iff.2 hs
  rw [h.after_eq, List.length_append]
  omega

/-- Where each repetition reads something, they come to an end. -/
theorem Progress.exists_steps {p : Pattern Unit} (hp : p.Progress) (c : Cursor) :
    ∃ e, Steps p c e := by
  induction hlen : c.after.length using Nat.strong_induction_on generalizing c with
  | _ count ih =>
    cases hc : p c with
    | nil => exact ⟨c, .done hc⟩
    | cons r others =>
      obtain ⟨s, hs, hread⟩ := hp c r (by simp [hc])
      have hlt := length_lt_of_reads hs hread
      obtain ⟨e, hsteps⟩ := ih r.2.after.length (hlen ▸ hlt) r.2 rfl
      exact ⟨e, .step ⟨others, hc⟩ hlt hsteps⟩

theorem Steps.reads {p : Pattern Unit} (hp : p.Progress) (h : Steps p c e) :
    ∃ s, c.Reads s e := by
  induction h with
  | done _ => exact ⟨[], .refl _⟩
  | step hstep _ _ ih =>
    obtain ⟨s, _, hs⟩ := hp _ _ hstep.mem
    obtain ⟨s', hs'⟩ := ih
    exact ⟨s ++ s', hs.trans hs'⟩

/-- The first of several repetitions can be taken alone. -/
theorem Prefers.runOf_eq {p : Pattern Unit} (hp : p.Progress) (h : p.Prefers c () d) :
    runOf p c = runOf p d := by
  obtain ⟨e, hsteps⟩ := hp.exists_steps d
  obtain ⟨others, hc⟩ := h
  obtain ⟨s, hs, hread⟩ := hp c _ (hc ▸ List.mem_cons_self)
  rw [hsteps.runOf, (Steps.step ⟨others, hc⟩ (length_lt_of_reads hs hread) hsteps).runOf]

/-! ### Readings that lead nowhere -/

theorem bind_eq_nil (hp : p c = []) : (p >>= f) c = [] := by
  rw [bind_apply, hp, List.flatMap_nil]

theorem bind_eq_nil_of_forall (h : ∀ r ∈ p c, f r.1 r.2 = []) : (p >>= f) c = [] := by
  rw [bind_apply, List.flatMap_eq_nil_iff]
  exact h

theorem bind_eq_of_single (hp : p c = [(a, d)]) : (p >>= f) c = f a d := by
  rw [bind_apply, hp, List.flatMap_singleton]

theorem orElse_eq_nil (hp : p c = []) (hq : q c = []) : (p <|> q) c = [] := by
  rw [orElse_apply, hp, hq, List.append_nil]

/-! ### Simple patterns -/

variable {before rest s : List Char} {cls : Char → Bool}

theorem one_cons {ch : Char} (h : cls ch = true) :
    one cls ⟨before, ch :: rest⟩ = [((), ⟨ch :: before, rest⟩)] := by
  simp [one, h]

/-- What follows a run does not belong to its class. -/
def Stops (cls : Char → Bool) (rest : List Char) : Prop := ∀ ch ∈ rest.head?, cls ch = false

theorem stops_nil : Stops cls [] := by simp [Stops]

theorem stops_cons {ch : Char} (h : cls ch = false) : Stops cls (ch :: rest) := by
  simpa [Stops] using h

theorem stops_dropWhile (cls : Char → Bool) (text : List Char) :
    Stops cls (text.dropWhile cls) := by
  intro ch hch
  have hnot := List.head?_dropWhile_not cls text
  rw [Option.mem_def.1 hch] at hnot
  simpa using hnot

theorem bne_of_not_mem {x : Char} (h : x ∉ s) : ∀ ch ∈ s, (ch != x) = true :=
  fun _ hch => bne_iff_ne.2 (ne_of_mem_of_not_mem hch h)

theorem one_eq_nil (h : Stops cls rest) : one cls ⟨before, rest⟩ = [] := by
  cases rest with
  | nil => rfl
  | cons ch rest => simp [one, h ch (by simp)]

theorem takeWhile_of_stops (h : Stops cls rest) : rest.takeWhile cls = [] := by
  cases rest with
  | nil => rfl
  | cons ch rest => simp [h ch (by simp)]

theorem dropWhile_of_stops (h : Stops cls rest) : rest.dropWhile cls = rest := by
  cases rest with
  | nil => rfl
  | cons ch rest => simp [h ch (by simp)]

theorem run_append (hs : ∀ ch ∈ s, cls ch = true) (hrest : Stops cls rest) :
    run cls ⟨before, s ++ rest⟩ = [((), ⟨s.reverse ++ before, rest⟩)] := by
  rw [run, skip_eq, List.takeWhile_append_of_pos hs, List.dropWhile_append_of_pos hs,
    takeWhile_of_stops hrest, dropWhile_of_stops hrest, List.append_nil]

theorem run_none (hrest : Stops cls rest) : run cls ⟨before, rest⟩ = [((), ⟨before, rest⟩)] := by
  have h : run cls ⟨before, [] ++ rest⟩ = _ := run_append (by simp) hrest
  simpa using h

theorem run1_append (hne : s ≠ []) (hs : ∀ ch ∈ s, cls ch = true) (hrest : Stops cls rest) :
    run1 cls ⟨before, s ++ rest⟩ = [((), ⟨s.reverse ++ before, rest⟩)] := by
  cases s with
  | nil => exact absurd rfl hne
  | cons ch s =>
    have hrun : run cls ⟨ch :: before, s ++ rest⟩ = _ :=
      run_append (fun x hx => hs x (List.mem_cons_of_mem _ hx)) hrest
    rw [run1, List.cons_append, bind_eq_of_single (one_cons (hs ch List.mem_cons_self)), hrun]
    simp

theorem run1_eq_nil (h : Stops cls rest) : run1 cls ⟨before, rest⟩ = [] :=
  bind_eq_nil (one_eq_nil h)

theorem chars_append (s before rest : List Char) :
    chars s ⟨before, s ++ rest⟩ = [((), ⟨s.reverse ++ before, rest⟩)] := by
  induction s generalizing before with
  | nil => rfl
  | cons ch s ih =>
    rw [List.cons_append, chars]
    simp [ih]

theorem lit_append (s : String) (before rest : List Char) :
    lit s ⟨before, s.toList ++ rest⟩ = [((), ⟨s.toList.reverse ++ before, rest⟩)] :=
  chars_append _ _ _

theorem lit_eq_nil {s : String} (h : ¬s.toList <+: c.after) : lit s c = [] := by
  rw [List.eq_nil_iff_forall_not_mem]
  intro r hr
  exact h ⟨r.2.after, (mem_lit hr).after_eq.symm⟩

theorem prefixes_append (hs : ∀ ch ∈ s, cls ch = true) (t : List Char)
    (shorter : List (Unit × Cursor)) :
    ∃ more, prefixes cls before (s ++ t) shorter = prefixes cls (s.reverse ++ before) t more := by
  induction s generalizing before shorter with
  | nil => exact ⟨shorter, rfl⟩
  | cons ch s ih =>
    rw [List.cons_append, prefixes, if_pos (hs ch List.mem_cons_self), List.reverse_cons,
      List.append_assoc]
    exact ih (fun x hx => hs x (List.mem_cons_of_mem _ hx)) _

theorem prefixes_of_stops (hrest : Stops cls rest) (shorter : List (Unit × Cursor)) :
    prefixes cls before rest shorter = ((), ⟨before, rest⟩) :: shorter := by
  cases rest with
  | nil => rfl
  | cons ch rest => rw [prefixes, if_neg (by simp [hrest ch (by simp)])]

theorem prefers_many1 (hne : s ≠ []) (hs : ∀ ch ∈ s, cls ch = true) (hrest : Stops cls rest) :
    (many1 cls).Prefers ⟨before, s ++ rest⟩ () ⟨s.reverse ++ before, rest⟩ := by
  cases s with
  | nil => exact absurd rfl hne
  | cons ch s =>
    have hs' : ∀ x ∈ s, cls x = true := fun x hx => hs x (List.mem_cons_of_mem _ hx)
    obtain ⟨more, h⟩ : ∃ more, prefixes cls (ch :: before) (s ++ rest) [] = _ :=
      prefixes_append hs' rest []
    refine ⟨more, ?_⟩
    rw [many1, List.cons_append, bind_eq_of_single (one_cons (hs ch List.mem_cons_self)), many, h,
      prefixes_of_stops hrest]
    simp

/-- Two readings of a run: all of it, and all but its last character. -/
theorem many1_eq_cons {x : Char} (hne : s ≠ []) (hs : ∀ ch ∈ s, cls ch = true) (hx : cls x = true)
    (hrest : Stops cls rest) :
    ∃ others, many1 cls ⟨before, s ++ x :: rest⟩ =
      ((), ⟨x :: (s.reverse ++ before), rest⟩) :: ((), ⟨s.reverse ++ before, x :: rest⟩) ::
        others := by
  cases s with
  | nil => exact absurd rfl hne
  | cons ch s =>
    have hs' : ∀ x ∈ s, cls x = true := fun x hx => hs x (List.mem_cons_of_mem _ hx)
    obtain ⟨more, h⟩ : ∃ more, prefixes cls (ch :: before) (s ++ x :: rest) [] = _ :=
      prefixes_append hs' (x :: rest) []
    refine ⟨more, ?_⟩
    rw [many1, List.cons_append, bind_eq_of_single (one_cons (hs ch List.mem_cons_self)), many, h,
      prefixes, if_pos hx, prefixes_of_stops hrest]
    simp

theorem boundary_eq_single {after : List Char} (hb : startsWord before = false)
    (ha : startsWord after = true) : boundary ⟨before, after⟩ = [((), ⟨before, after⟩)] := by
  simp [boundary, require, hb, ha]

theorem boundary_at_end {after : List Char} (hb : startsWord before = true)
    (ha : startsWord after = false) : boundary ⟨before, after⟩ = [((), ⟨before, after⟩)] := by
  simp [boundary, require, hb, ha]

end ClassAtlas.Pattern
