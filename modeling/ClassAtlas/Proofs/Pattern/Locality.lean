import ClassAtlas.Proofs.Pattern.Preference

/-! Scanning a text that has another one in front of it. Behind a text that does not end in a word,
patterns read what they read without it. So the matches of the whole are those that start in the
first text and those of the second one, unless a match runs from the first into the second. -/

namespace ClassAtlas

/-! ### Places behind a text -/

variable {α β : Type}

/-- The same place when a text is put in front. -/
def Cursor.behind (pre : List Char) (c : Cursor) : Cursor := ⟨c.before ++ pre.reverse, c.after⟩

@[simp] theorem Cursor.after_behind (pre : List Char) (c : Cursor) :
    (c.behind pre).after = c.after :=
  rfl

theorem Cursor.offset_behind (pre : List Char) (c : Cursor) :
    (c.behind pre).offset = c.offset + pre.length := by
  simp [Cursor.behind, Cursor.offset]

def Excerpt.behind (pre : List Char) (e : Excerpt) : Excerpt :=
  ⟨e.start.behind pre, e.stop.behind pre⟩

@[simp] theorem Excerpt.text_behind (pre : List Char) (e : Excerpt) :
    (e.behind pre).text = e.text :=
  rfl

def Match.behind (pre : List Char) (f : α → β) (m : Match α) : Match β :=
  ⟨m.toExcerpt.behind pre, f m.value⟩

namespace Pattern

variable {γ δ : Type} {pre : List Char}

/-- Behind the text the second pattern reads what the first one reads without it. Through `f` the
values are seen in their new place. -/
def Moved (pre : List Char) (f : α → β) (p : Pattern α) (q : Pattern β) : Prop :=
  ∀ c, q (c.behind pre) = (p c).map fun r => (f r.1, r.2.behind pre)

section Combinators

variable {f : α → β} {p p' : Pattern α} {q q' : Pattern β}

theorem moved_pure (f : α → β) (a : α) : Moved pre f (pure a) (pure (f a)) := fun _ => rfl

theorem Moved.bind {g : γ → δ} {k : α → Pattern γ} {l : β → Pattern δ} (hp : Moved pre f p q)
    (hk : ∀ a, Moved pre g (k a) (l (f a))) : Moved pre g (p >>= k) (q >>= l) := by
  intro c
  rw [bind_apply, bind_apply, hp c, List.flatMap_map, List.map_flatMap]
  exact congrArg (fun read => (p c).flatMap read) (funext fun r => hk r.1 r.2)

theorem Moved.orElse (hp : Moved pre f p q) (hp' : Moved pre f p' q') :
    Moved pre f (p <|> p') (q <|> q') := by
  intro c
  rw [orElse_apply, orElse_apply, hp c, hp' c, List.map_append]

theorem Moved.optional (hp : Moved pre f p q) :
    Moved pre (Option.map f) (optional p) (optional q) :=
  Moved.orElse (hp.bind fun a => moved_pure (Option.map f) (some a))
    (moved_pure (Option.map f) none)

theorem Moved.maybe {p : Pattern Unit} (hp : Moved pre id p p) : Moved pre id (maybe p) (maybe p) :=
  hp.orElse (moved_pure id ())

theorem moved_require {holds : Cursor → Bool} (h : ∀ c : Cursor, holds (c.behind pre) = holds c) :
    Moved pre id (require holds) (require holds) := by
  intro c
  unfold require
  rw [h c]
  split <;> rfl

theorem moved_one (cls : Char → Bool) : Moved pre id (one cls) (one cls) := by
  rintro ⟨before, after⟩
  cases after with
  | nil => rfl
  | cons ch rest =>
    simp only [one, Cursor.behind]
    split <;> rfl

theorem moved_run (cls : Char → Bool) : Moved pre id (run cls) (run cls) := by
  intro c
  rw [run, run, skip_eq, skip_eq]
  simp [Cursor.behind]

theorem moved_run1 (cls : Char → Bool) : Moved pre id (run1 cls) (run1 cls) :=
  (moved_one cls).bind fun _ => moved_run cls

theorem moved_many (cls : Char → Bool) : Moved pre id (many cls) (many cls) := by
  have hall : ∀ (after before : List Char) (shorter : List (Unit × Cursor)),
      prefixes cls (before ++ pre.reverse) after (shorter.map fun r => (r.1, r.2.behind pre)) =
        (prefixes cls before after shorter).map fun r => (r.1, r.2.behind pre) := by
    intro after
    induction after with
    | nil => exact fun _ _ => rfl
    | cons ch rest ih =>
      intro before shorter
      rw [prefixes, prefixes]
      split
      · exact ih (ch :: before) (((), ⟨before, ch :: rest⟩) :: shorter)
      · rfl
  exact fun c => hall c.after c.before []

theorem moved_many1 (cls : Char → Bool) : Moved pre id (many1 cls) (many1 cls) :=
  (moved_one cls).bind fun _ => moved_many cls

theorem moved_lit (s : String) : Moved pre id (lit s) (lit s) := by
  have hall : ∀ chs : List Char, Moved pre id (chars chs) (chars chs) := by
    intro chs
    induction chs with
    | nil => exact fun _ => rfl
    | cons ch chs ih =>
      rintro ⟨before, after⟩
      cases after with
      | nil => rfl
      | cons next rest =>
        simp only [chars, Cursor.behind]
        split
        · exact ih ⟨next :: before, rest⟩
        · rfl
  exact hall s.toList

theorem moved_oneOf (names : List String) : Moved pre id (oneOf names) (oneOf names) := by
  induction names with
  | nil => exact fun _ => rfl
  | cons s rest ih => exact (moved_lit s).orElse ih

theorem Moved.captured {p : Pattern Unit} (hp : Moved pre id p p) :
    Moved pre (Excerpt.behind pre) (captured p) (captured p) := by
  intro c
  rw [Pattern.captured, Pattern.captured, hp c, List.map_map, List.map_map]
  rfl

theorem Moved.runOf {p : Pattern Unit} (hp : Moved pre id p p) :
    Moved pre id (runOf p) (runOf p) := by
  have hall : ∀ (limit : List Char) (c : Cursor),
      skipAll p limit (c.behind pre) = (skipAll p limit c).behind pre := by
    intro limit
    induction limit with
    | nil => exact fun _ => rfl
    | cons ch limit ih =>
      intro c
      rw [skipAll, skipAll, hp c]
      cases p c with
      | nil => rfl
      | cons r rs => exact ih r.2
  intro c
  rw [Pattern.runOf, Pattern.runOf, Cursor.after_behind, hall]
  rfl

/-- The end of a word can be seen only behind a text that does not end in one. -/
theorem moved_boundary (hpre : startsWord pre.reverse = false) :
    Moved pre id boundary boundary := by
  refine moved_require fun c => ?_
  have hbefore : startsWord (c.before ++ pre.reverse) = startsWord c.before := by
    cases c.before with
    | nil => exact hpre
    | cons ch before => rfl
  rw [Cursor.behind, hbefore]

end Combinators

/-! ### Matches behind a text -/

variable {f : α → β} {p : Pattern α} {q : Pattern β}

theorem Moved.matchAt? (h : Moved pre f p q) (c : Cursor) :
    q.matchAt? (c.behind pre) = (p.matchAt? c).map (Match.behind pre f) := by
  unfold Pattern.matchAt?
  rw [h c]
  cases p c <;> rfl

theorem Moved.matchesFrom (h : Moved pre f p q) (skip : Nat) (before text : List Char) :
    q.matchesFrom skip (before ++ pre.reverse) text =
      (p.matchesFrom skip before text).map (Match.behind pre f) := by
  induction text generalizing skip before with
  | nil =>
    have hat := h.matchAt? ⟨before, []⟩
    rw [Cursor.behind] at hat
    rw [Pattern.matchesFrom, Pattern.matchesFrom, hat]
    cases p.matchAt? ⟨before, []⟩ <;> rfl
  | cons ch rest ih =>
    have hat := h.matchAt? ⟨before, ch :: rest⟩
    rw [Cursor.behind] at hat
    cases skip with
    | succ left => exact ih left (ch :: before)
    | zero =>
      rw [Pattern.matchesFrom, Pattern.matchesFrom, hat]
      cases p.matchAt? ⟨before, ch :: rest⟩ with
      | none => exact ih 0 (ch :: before)
      | some m => exact congrArg (m.behind pre f :: ·) (ih (m.length - 1) (ch :: before))

/-! ### A text in two parts -/

/-- The match starts before the last part of a text and stops in it. -/
def RunsInto (m : Match α) (rest : List Char) : Prop :=
  rest.length < m.start.after.length ∧ m.stop.after.length < rest.length

instance (m : Match α) (rest : List Char) : Decidable (RunsInto m rest) :=
  inferInstanceAs (Decidable (_ ∧ _))

/-- The matches that start in the first part come first. Something of the second part is passed over
only if one of them runs into it. -/
theorem matchesFrom_append (p : Pattern α) (skip : Nat) (before a b : List Char) :
    ∃ ms left, p.matchesFrom skip before (a ++ b) =
      ms ++ p.matchesFrom left (a.reverse ++ before) b ∧
      (∀ m ∈ ms, m.start.offset < before.length + a.length) ∧
      (left ≠ 0 ↔ a.length < skip ∨ ∃ m ∈ ms, RunsInto m b) := by
  induction a generalizing skip before with
  | nil => exact ⟨[], skip, rfl, by simp, by simp [Nat.pos_iff_ne_zero]⟩
  | cons ch a ih =>
    have hbefore : ∀ ms : List (Match α), ∀ left,
        ms ++ p.matchesFrom left (a.reverse ++ ch :: before) b =
          ms ++ p.matchesFrom left ((ch :: a).reverse ++ before) b := by simp
    have hlen : (ch :: before).length + a.length = before.length + (ch :: a).length := by
      simp only [List.length_cons]
      omega
    cases skip with
    | succ skip =>
      obtain ⟨ms, left, hms, hstart, hleft⟩ := ih skip (ch :: before)
      rw [hlen] at hstart
      refine ⟨ms, left, hms.trans (hbefore ms left), hstart, ?_⟩
      simpa using hleft
    | zero =>
      rw [List.cons_append, matchesFrom]
      cases hat : p.matchAt? ⟨before, ch :: (a ++ b)⟩ with
      | none =>
        obtain ⟨ms, left, hms, hstart, hleft⟩ := ih 0 (ch :: before)
        rw [hlen] at hstart
        refine ⟨ms, left, hms.trans (hbefore ms left), hstart, ?_⟩
        simpa using hleft
      | some m =>
        obtain ⟨ms, left, hms, hstart, hleft⟩ := ih (m.length - 1) (ch :: before)
        rw [hlen] at hstart
        have hplace : m.start = ⟨before, ch :: (a ++ b)⟩ := (mem_of_matchAt? hat).1
        have hruns : RunsInto m b ↔ a.length < m.length - 1 := by
          simp only [RunsInto, Excerpt.length, hplace, List.length_cons, List.length_append]
          omega
        refine ⟨m :: ms, left, congrArg (m :: ·) (hms.trans (hbefore ms left)), ?_, ?_⟩
        · refine List.forall_mem_cons.2 ⟨?_, hstart⟩
          simp [hplace, Cursor.offset]
        · simp [hleft, hruns]

/-- Where the pattern reads something, the place is inside of a match. -/
theorem exists_covering (hp : p.Progress) {before after : List Char} (h : p ⟨before, after⟩ ≠ []) :
    ∃ m ∈ p.matchesIn (before.reverse ++ after),
      m.start.offset ≤ before.length ∧ before.length < m.stop.offset := by
  obtain ⟨ms, left, hms, hstart, hleft⟩ := matchesFrom_append p 0 [] before.reverse after
  rw [matchesIn, hms]
  by_cases hzero : left = 0
  · -- no match runs into the place, so one starts there
    cases after with
    | nil => exact absurd (hp.eq_nil_at_end before) h
    | cons ch rest =>
      cases hm : p.matchAt? ⟨before, ch :: rest⟩ with
      | none => exact absurd (matchAt?_eq_none.1 hm) h
      | some m =>
        obtain ⟨hplace, _⟩ := mem_of_matchAt? hm
        obtain ⟨hlength, hstop⟩ := hp.reads_of_matchAt? hm
        have hoffset : (⟨before, ch :: rest⟩ : Cursor).offset = before.length := rfl
        refine ⟨m, List.mem_append_right _ ?_, ?_, by omega⟩
        · rw [hzero, List.reverse_reverse, List.append_nil, matchesFrom, hm]
          exact List.mem_cons_self
        · rw [hplace, hoffset]
  · obtain ⟨m, hm, _, hruns⟩ := (hleft.1 hzero).resolve_left (Nat.not_lt_zero _)
    have hmem : m ∈ p.matchesFrom 0 [] (before.reverse ++ after) := hms ▸ List.mem_append_left _ hm
    obtain ⟨htext, _, hread⟩ := mem_matchesFrom hp hmem
    obtain ⟨s, _, hread⟩ := hp _ _ hread
    have hlength := congrArg List.length (hread.text_eq.trans htext)
    have hbefore := hstart m hm
    simp only [Cursor.text, List.length_append, List.length_reverse,
      List.length_nil] at hlength hbefore
    refine ⟨m, List.mem_append_left _ hm, ?_, ?_⟩
    · omega
    · unfold Cursor.offset
      omega

end Pattern

end ClassAtlas
