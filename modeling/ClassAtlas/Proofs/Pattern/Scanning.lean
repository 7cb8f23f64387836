import ClassAtlas.Proofs.Pattern.Reading

/-! Scanning a text for the matches of a pattern. The matches are readings of the pattern, they
stand one after the other, and a stretch that the pattern misses at every place can be passed over
without changing what is found behind it. -/

namespace ClassAtlas.Pattern

variable {α β : Type} {p : Pattern α}

/-- Each reading goes on by at least one character. -/
def Progress (p : Pattern α) : Prop := ∀ c, ∀ r ∈ p c, ∃ s, s ≠ [] ∧ c.Reads s r.2

theorem matchAt?_eq_none {c : Cursor} : p.matchAt? c = none ↔ p c = [] := by
  unfold matchAt?
  split <;> simp_all

theorem mem_of_matchAt? {c : Cursor} {m : Match α} (h : p.matchAt? c = some m) :
    m.start = c ∧ (m.value, m.stop) ∈ p c := by
  unfold matchAt? at h
  split at h
  · simp at h
  · next a stop rs hpc =>
    obtain rfl := Option.some.inj h
    exact ⟨rfl, by simp [hpc]⟩

theorem Progress.eq_nil_at_end (hp : p.Progress) (before : List Char) : p ⟨before, []⟩ = [] := by
  rw [List.eq_nil_iff_forall_not_mem]
  intro r hr
  obtain ⟨s, hs, hread⟩ := hp _ r hr
  have h := hread.after_eq
  simp_all

/-! ### Where the matches stand -/

theorem Progress.reads_of_matchAt? (hp : p.Progress) {c : Cursor} {m : Match α}
    (h : p.matchAt? c = some m) :
    1 ≤ m.length ∧ m.stop.offset = c.offset + m.length := by
  obtain ⟨hstart, hmem⟩ := mem_of_matchAt? h
  obtain ⟨s, hs, hread⟩ := hp c _ hmem
  have hlen : m.length = s.length := by
    simp [Excerpt.length, hstart, hread.after_eq]
  rw [hlen]
  exact ⟨List.length_pos_iff.2 hs, hread.offset_eq⟩

/-- A match is a reading of the pattern at a place of the text that has not been passed over. -/
theorem mem_matchesFrom (hp : p.Progress) {m : Match α} {skip : Nat} {before text : List Char}
    (h : m ∈ matchesFrom p skip before text) :
    m.start.text = before.reverse ++ text ∧ before.length + skip ≤ m.start.offset ∧
      (m.value, m.stop) ∈ p m.start := by
  induction text generalizing skip before with
  | nil =>
    rw [matchesFrom, matchAt?_eq_none.2 (hp.eq_nil_at_end before)] at h
    exact absurd h List.not_mem_nil
  | cons ch rest ih =>
    -- what is found further on stands behind the first character
    have later : ∀ left, m ∈ matchesFrom p left (ch :: before) rest →
        m.start.text = before.reverse ++ ch :: rest ∧
          before.length + left + 1 ≤ m.start.offset ∧ (m.value, m.stop) ∈ p m.start := by
      intro left hm
      obtain ⟨htext, hoff, hmem⟩ := ih hm
      refine ⟨by simpa using htext, ?_, hmem⟩
      rw [List.length_cons] at hoff
      omega
    unfold matchesFrom at h
    split at h
    · next left =>
      obtain ⟨htext, hoff, hmem⟩ := later left h
      exact ⟨htext, by omega, hmem⟩
    · split at h
      · next m' hm' =>
        rcases List.mem_cons.1 h with rfl | h
        · obtain ⟨hstart, hmem⟩ := mem_of_matchAt? hm'
          rw [hstart]
          exact ⟨rfl, by simp [Cursor.offset], hmem⟩
        · obtain ⟨htext, hoff, hmem⟩ := later _ h
          exact ⟨htext, by omega, hmem⟩
      · obtain ⟨htext, hoff, hmem⟩ := later 0 h
        exact ⟨htext, by omega, hmem⟩

theorem pairwise_matchesFrom (hp : p.Progress) (skip : Nat) (before text : List Char) :
    (matchesFrom p skip before text).Pairwise fun a b => a.stop.offset ≤ b.start.offset := by
  induction text generalizing skip before with
  | nil =>
    rw [matchesFrom, matchAt?_eq_none.2 (hp.eq_nil_at_end before)]
    exact .nil
  | cons ch rest ih =>
    unfold matchesFrom
    split
    · exact ih _ _
    · split
      · next m hm =>
        refine List.pairwise_cons.2 ⟨?_, ih _ _⟩
        intro m' hm'
        obtain ⟨_, hoff, _⟩ := mem_matchesFrom hp hm'
        obtain ⟨hlen, hstop⟩ := hp.reads_of_matchAt? hm
        rw [hstop]
        simp only [Cursor.offset, List.length_cons] at hoff ⊢
        omega
      · exact ih _ _

theorem mem_matchesIn (hp : p.Progress) {m : Match α} {text : List Char}
    (h : m ∈ matchesIn p text) : m.start.text = text ∧ (m.value, m.stop) ∈ p m.start := by
  obtain ⟨htext, _, hmem⟩ := mem_matchesFrom hp h
  exact ⟨htext, hmem⟩

theorem pairwise_matchesIn (hp : p.Progress) (text : List Char) :
    (matchesIn p text).Pairwise fun a b => a.stop.offset ≤ b.start.offset :=
  pairwise_matchesFrom hp 0 [] text

theorem pairwise_starts (hp : p.Progress) (text : List Char) :
    (matchesIn p text).Pairwise fun a b => a.start.offset < b.start.offset := by
  refine (pairwise_matchesIn hp text).imp_of_mem fun {a b} ha _ hle => ?_
  obtain ⟨s, hne, hread⟩ := hp _ _ (mem_matchesIn hp ha).2
  have hpos := List.length_pos_iff.2 hne
  have hstop : a.stop.offset = _ := hread.offset_eq
  omega

/-- Every reading reads the character. -/
def Requires (p : Pattern α) (ch : Char) : Prop := ∀ c, ∀ r ∈ p c, ∃ s, ch ∈ s ∧ c.Reads s r.2

theorem Requires.progress {ch : Char} (hp : p.Requires ch) : p.Progress := by
  intro c r hr
  obtain ⟨s, hs, hread⟩ := hp c r hr
  exact ⟨s, List.ne_nil_of_mem hs, hread⟩

/-- Without the character there is no match. -/
theorem Requires.matchesIn_eq_nil {ch : Char} (hp : p.Requires ch) {text : List Char}
    (h : ch ∉ text) : p.matchesIn text = [] := by
  rw [List.eq_nil_iff_forall_not_mem]
  intro m hm
  obtain ⟨htext, hmem⟩ := mem_matchesIn hp.progress hm
  obtain ⟨s, hs, hread⟩ := hp _ _ hmem
  refine h ?_
  rw [← htext, Cursor.text, hread.after_eq]
  simp [hs]

/-- The leftmost match is the first of all matches. -/
theorem search_eq_head? (p : Pattern α) (text : List Char) :
    p.search text = (p.matchesIn text).head? := by
  have h : ∀ before, searchFrom p before text = (matchesFrom p 0 before text).head? := by
    induction text with
    | nil =>
      intro before
      unfold searchFrom matchesFrom
      cases matchAt? p ⟨before, []⟩ <;> rfl
    | cons ch rest ih =>
      intro before
      unfold searchFrom matchesFrom
      simp only
      split
      · rfl
      · exact ih _
  exact h []

/-- A pattern that reads somewhere in a text occurs in it. -/
theorem occurs_of_mem {before after : List Char} {r : α × Cursor} (h : r ∈ p ⟨before, after⟩) :
    p.occurs (before.reverse ++ after) = true := by
  have hfound : ∀ s start, s.reverse ++ start = before →
      (searchFrom p start (s ++ after)).isSome = true := by
    intro s
    induction s with
    | nil =>
      rintro start rfl
      cases hm : p.matchAt? ⟨start, after⟩ with
      | none => exact absurd h (by simp [matchAt?_eq_none.1 hm])
      | some m => cases after <;> simp [searchFrom, hm]
    | cons ch s ih =>
      intro start hstart
      rw [List.cons_append, searchFrom]
      split
      · rfl
      · exact ih (ch :: start) (by simpa using hstart)
  exact hfound before.reverse [] (by simp)

theorem eq_nil_of_search_eq_none {before after : List Char}
    (h : p.search (before.reverse ++ after) = none) : p ⟨before, after⟩ = [] := by
  rw [List.eq_nil_iff_forall_not_mem]
  intro r hr
  have hoccurs := occurs_of_mem hr
  simp [occurs, h] at hoccurs

/-- The match that is found is a reading at a place of the text, and no place before it has one. -/
theorem of_search_eq_some {text : List Char} {m : Match α} (h : p.search text = some m) :
    m.start.text = text ∧ (m.value, m.stop) ∈ p m.start ∧
      ∀ before after, before.reverse ++ after = text → p ⟨before, after⟩ ≠ [] →
        m.start.offset ≤ before.length := by
  have hfound : ∀ (rest start : List Char), searchFrom p start rest = some m →
      m.start.text = start.reverse ++ rest ∧ (m.value, m.stop) ∈ p m.start ∧
        ∀ s after, s ++ after = rest → p ⟨s.reverse ++ start, after⟩ ≠ [] →
          m.start.offset ≤ start.length + s.length := by
    intro rest
    induction rest with
    | nil =>
      intro start h
      obtain ⟨hstart, hmem⟩ := mem_of_matchAt? h
      rw [hstart]
      exact ⟨rfl, hmem, fun s after _ _ => Nat.le_add_right _ _⟩
    | cons ch rest ih =>
      intro start h
      unfold searchFrom at h
      split at h
      · next m' hm' =>
        obtain rfl := Option.some.inj h
        obtain ⟨hstart, hmem⟩ := mem_of_matchAt? hm'
        rw [hstart]
        exact ⟨rfl, hmem, fun s after _ _ => Nat.le_add_right _ _⟩
      · next hnone =>
        obtain ⟨htext, hmem, hfirst⟩ := ih (ch :: start) h
        refine ⟨by simpa using htext, hmem, ?_⟩
        intro s after hs hne
        cases s with
        | nil =>
          obtain rfl : after = ch :: rest := hs
          exact absurd (matchAt?_eq_none.1 hnone) hne
        | cons x s =>
          obtain ⟨rfl, hrest⟩ := List.cons.inj hs
          have hle := hfirst s after hrest (by simpa using hne)
          simp only [List.length_cons] at hle ⊢
          omega
  obtain ⟨htext, hmem, hfirst⟩ := hfound text [] h
  refine ⟨htext, hmem, ?_⟩
  intro before after hbefore hne
  have hle := hfirst before.reverse after hbefore (by simpa using hne)
  simpa using hle

/-- Where the pattern reads something, a match starts there or before. -/
theorem exists_mem_matchesIn {before after : List Char} (h : p ⟨before, after⟩ ≠ []) :
    ∃ m ∈ p.matchesIn (before.reverse ++ after), m.start.offset ≤ before.length := by
  obtain ⟨r, hr⟩ := List.exists_mem_of_ne_nil _ h
  obtain ⟨m, hm⟩ := Option.isSome_iff_exists.1 (occurs_of_mem hr)
  obtain ⟨_, _, hfirst⟩ := of_search_eq_some hm
  rw [search_eq_head?] at hm
  exact ⟨m, List.mem_of_head? hm, hfirst before after rfl h⟩

/-- Nothing is read without a character of the class ahead. -/
def Needs (p : Pattern α) (cls : Char → Bool) : Prop :=
  ∀ c, p c ≠ [] → ∃ ch ∈ c.after, cls ch = true

theorem Needs.bind_left {cls : Char → Bool} {f : α → Pattern β} (h : p.Needs cls) :
    (p >>= f).Needs cls := by
  intro c hne
  refine h c fun hnil => hne ?_
  rw [bind_apply, hnil, List.flatMap_nil]

theorem Needs.bind_right {cls cls' : Char → Bool} {f : α → Pattern β} (hp : p.Within cls')
    (hf : ∀ a, (f a).Needs cls) : (p >>= f).Needs cls := by
  intro c hne
  obtain ⟨r, hr⟩ := List.exists_mem_of_ne_nil _ hne
  obtain ⟨q, hq, hr⟩ := mem_bind.1 hr
  obtain ⟨s, hs, _⟩ := hp c q hq
  obtain ⟨ch, hch, hcls⟩ := hf q.1 q.2 (List.ne_nil_of_mem hr)
  exact ⟨ch, by rw [hs.after_eq]; exact List.mem_append_right _ hch, hcls⟩

theorem needs_one (cls : Char → Bool) : (one cls).Needs cls := by
  intro c hne
  obtain ⟨r, hr⟩ := List.exists_mem_of_ne_nil _ hne
  obtain ⟨ch, hch, hread⟩ := mem_one hr
  exact ⟨ch, by simp [hread.after_eq], hch⟩

theorem needs_lit {s : String} {cls : Char → Bool} {ch : Char} (hch : ch ∈ s.toList)
    (hcls : cls ch = true) : (lit s).Needs cls := by
  intro c hne
  obtain ⟨r, hr⟩ := List.exists_mem_of_ne_nil _ hne
  refine ⟨ch, ?_, hcls⟩
  rw [(mem_lit hr).after_eq]
  exact List.mem_append_left _ hch

theorem Needs.occurs_eq_false {cls : Char → Bool} (h : p.Needs cls) {text : List Char}
    (htext : ∀ ch ∈ text, cls ch = false) : p.occurs text = false := by
  have hnone : ∀ before s, (∀ ch ∈ s, cls ch = false) → p.matchAt? ⟨before, s⟩ = none := by
    intro before s hs
    rw [matchAt?_eq_none]
    by_contra hne
    obtain ⟨ch, hch, hcls⟩ := h _ hne
    simp [hs ch hch] at hcls
  have hsearch : ∀ before, searchFrom p before text = none := by
    induction text with
    | nil => exact fun before => hnone before [] htext
    | cons ch rest ih =>
      intro before
      rw [searchFrom, hnone before _ htext]
      exact ih (fun x hx => htext x (List.mem_cons_of_mem _ hx)) _
  rw [occurs, search, hsearch]
  rfl

/-! ### Stretches without a match -/

/-- The pattern reads nothing at any place inside `seg`, whatever stands around it. -/
def Misses (p : Pattern α) (seg : List Char) : Prop :=
  ∀ t s, seg = t ++ s → s ≠ [] → ∀ before rest, p ⟨t.reverse ++ before, s ++ rest⟩ = []

theorem misses_nil : Misses p [] := by
  intro t s h hs
  simp_all

/-- Two missed stretches make one, and so does a stretch that is missed as long as the second one
follows. -/
theorem misses_append {a b : List Char}
    (ha : ∀ t s, a = t ++ s → s ≠ [] → ∀ before rest,
      p ⟨t.reverse ++ before, s ++ (b ++ rest)⟩ = [])
    (hb : Misses p b) : Misses p (a ++ b) := by
  intro t s h hs before rest
  rcases List.append_eq_append_iff.1 h with ⟨u, rfl, rfl⟩ | ⟨u, rfl, rfl⟩
  · have h := hb u s rfl hs (a.reverse ++ before) rest
    simpa using h
  · cases u with
    | nil =>
      have h := hb [] b rfl (by simpa using hs) (t.reverse ++ before) rest
      simpa using h
    | cons x u =>
      have h := ha t (x :: u) rfl (by simp) before rest
      simpa using h

theorem Misses.append {a b : List Char} (ha : Misses p a) (hb : Misses p b) : Misses p (a ++ b) :=
  misses_append (fun t s h hs before rest => ha t s h hs before (b ++ rest)) hb

theorem Misses.append_left {a b : List Char}
    (ha : ∀ s, s <:+ a → s ≠ [] → ∀ before rest, p ⟨before, s ++ (b ++ rest)⟩ = [])
    (hb : Misses p b) : Misses p (a ++ b) :=
  misses_append (fun t s h hs before rest => ha s ⟨t, h.symm⟩ hs (t.reverse ++ before) rest) hb

theorem misses_single {x : Char} (h : ∀ before rest, p ⟨before, x :: rest⟩ = []) :
    Misses p [x] := by
  intro t s hs hne before rest
  cases t with
  | nil =>
    rw [List.nil_append] at hs
    subst hs
    exact h _ _
  | cons y t => simp_all

theorem Misses.cons {x : Char} {s : List Char} (hx : Misses p [x]) (hs : Misses p s) :
    Misses p (x :: s) := hx.append hs

/-- The same for a character that is missed as long as the rest follows. -/
theorem Misses.cons_of_forall {x : Char} {s : List Char}
    (hx : ∀ before rest, p ⟨before, x :: (s ++ rest)⟩ = []) (hs : Misses p s) :
    Misses p (x :: s) := by
  refine misses_append (a := [x]) (fun t u h hu before rest => ?_) hs
  cases t with
  | nil =>
    obtain rfl : [x] = u := h
    exact hx before rest
  | cons y t => simp_all

/-- At the start of a stretch that is missed nothing is read. -/
theorem Misses.eq_nil_at_start {seg : List Char} (h : Misses p seg) (hne : seg ≠ [])
    (before rest : List Char) : p ⟨before, seg ++ rest⟩ = [] := h [] seg rfl hne before rest

theorem Misses.flatMap {ι : Type} {items : List ι} {line : ι → List Char}
    (h : ∀ i ∈ items, Misses p (line i)) : Misses p (items.flatMap line) := by
  induction items with
  | nil => exact misses_nil
  | cons i items ih =>
    rw [List.flatMap_cons]
    exact (h i List.mem_cons_self).append (ih fun j hj => h j (List.mem_cons_of_mem _ hj))

theorem misses_of_forall_mem {seg : List Char}
    (h : ∀ ch ∈ seg, ∀ before rest, p ⟨before, ch :: rest⟩ = []) : Misses p seg := by
  induction seg with
  | nil => exact misses_nil
  | cons x s ih =>
    exact (misses_single (h x List.mem_cons_self)).cons
      (ih fun ch hch => h ch (List.mem_cons_of_mem _ hch))

/-- A stretch is passed over if nothing is read at any of its places. -/
theorem matchesFrom_pass {seg before rest : List Char}
    (h : ∀ t s, seg = t ++ s → s ≠ [] → p ⟨t.reverse ++ before, s ++ rest⟩ = []) :
    matchesFrom p 0 before (seg ++ rest) = matchesFrom p 0 (seg.reverse ++ before) rest := by
  have go : ∀ s t, seg = t ++ s →
      Pattern.matchesFrom p 0 (t.reverse ++ before) (s ++ rest) =
        Pattern.matchesFrom p 0 (seg.reverse ++ before) rest := by
    intro s
    induction s with
    | nil => intro t ht; simp [ht]
    | cons x s ih =>
      intro t ht
      have hx : p.matchAt? ⟨t.reverse ++ before, x :: (s ++ rest)⟩ = none :=
        matchAt?_eq_none.2 (h t (x :: s) ht (by simp))
      have hstep := ih (t ++ [x]) (by simp [ht])
      rw [List.cons_append, Pattern.matchesFrom, hx]
      simpa using hstep
  exact go seg [] rfl

theorem Misses.matchesFrom {seg : List Char} (h : Misses p seg) (before rest : List Char) :
    matchesFrom p 0 before (seg ++ rest) = matchesFrom p 0 (seg.reverse ++ before) rest :=
  matchesFrom_pass fun t s hsplit hs => h t s hsplit hs before rest

/-- A text that is missed at every place, its end included, has no match. -/
theorem Misses.matchesIn_eq_nil {seg : List Char} (h : Misses p seg)
    (hend : p ⟨seg.reverse, []⟩ = []) : p.matchesIn seg = [] := by
  have hall := h.matchesFrom [] []
  rw [List.append_nil, List.append_nil] at hall
  rw [Pattern.matchesIn, hall, Pattern.matchesFrom, matchAt?_eq_none.2 hend]
  rfl

theorem Misses.search_eq_none {seg : List Char} (h : Misses p seg)
    (hend : p ⟨seg.reverse, []⟩ = []) : p.search seg = none := by
  rw [search_eq_head?, h.matchesIn_eq_nil hend]
  rfl

theorem Misses.replaceFrom {seg : List Char} (h : Misses p seg) (new before rest : List Char) :
    replaceFrom p new 0 before (seg ++ rest) =
      seg ++ replaceFrom p new 0 (seg.reverse ++ before) rest := by
  have go : ∀ s t, seg = t ++ s →
      Pattern.replaceFrom p new 0 (t.reverse ++ before) (s ++ rest) =
        s ++ Pattern.replaceFrom p new 0 (seg.reverse ++ before) rest := by
    intro s
    induction s with
    | nil => intro t ht; simp [ht]
    | cons x s ih =>
      intro t ht
      have hx : p.matchAt? ⟨t.reverse ++ before, x :: (s ++ rest)⟩ = none :=
        matchAt?_eq_none.2 (h t (x :: s) ht (by simp) before rest)
      have hstep := ih (t ++ [x]) (by simp [ht])
      rw [List.cons_append, Pattern.replaceFrom, hx]
      simpa using hstep
  exact go seg [] rfl

theorem Misses.replace {seg : List Char} (h : Misses p seg) (new : List Char) :
    p.replace new seg = seg := by
  have hr := h.replaceFrom new [] []
  simpa [Pattern.replace, Pattern.replaceFrom] using hr

/-! ### Stretches with matches -/

theorem matchesFrom_skip (s before rest : List Char) :
    matchesFrom p s.length before (s ++ rest) = matchesFrom p 0 (s.reverse ++ before) rest := by
  induction s generalizing before with
  | nil => rfl
  | cons x s ih =>
    rw [List.cons_append, List.length_cons, matchesFrom, ih]
    simp

theorem replaceFrom_skip (new s before rest : List Char) :
    replaceFrom p new s.length before (s ++ rest) =
      replaceFrom p new 0 (s.reverse ++ before) rest := by
  induction s generalizing before with
  | nil => rfl
  | cons x s ih =>
    rw [List.cons_append, List.length_cons, replaceFrom, ih]
    simp

/-- From `before` on, scanning `seg` yields `out` and goes on behind it. Each match is looked at
through `f`. -/
def Finds (p : Pattern α) (f : Match α → Option β) (before seg rest : List Char)
    (out : List β) : Prop :=
  (matchesFrom p 0 before (seg ++ rest)).filterMap f =
    out ++ (matchesFrom p 0 (seg.reverse ++ before) rest).filterMap f

variable {f : Match α → Option β} {before rest a b : List Char} {out out' : List β}

theorem finds_pass (h : ∀ t s, a = t ++ s → s ≠ [] → p ⟨t.reverse ++ before, s ++ rest⟩ = []) :
    Finds p f before a rest [] := by
  rw [Finds, matchesFrom_pass h]
  rfl

theorem Misses.finds (h : Misses p a) : Finds p f before a rest [] :=
  finds_pass fun t s hsplit hs => h t s hsplit hs before rest

theorem Finds.append (ha : Finds p f before a (b ++ rest) out)
    (hb : Finds p f (a.reverse ++ before) b rest out') :
    Finds p f before (a ++ b) rest (out ++ out') := by
  unfold Finds at *
  rw [List.append_assoc, ha, hb, List.append_assoc, List.reverse_append, List.append_assoc]

/-- Stretches one after the other. What stands before each of them satisfies an invariant. -/
theorem Finds.flatMap {ι : Type} {items : List ι} {line : ι → List Char} {found : ι → List β}
    (inv : List Char → Prop)
    (hstep : ∀ i ∈ items, ∀ before rest, inv before → Finds p f before (line i) rest (found i))
    (hinv : ∀ i ∈ items, ∀ before, inv before → inv ((line i).reverse ++ before))
    (before rest : List Char) (h : inv before) :
    Finds p f before (items.flatMap line) rest (items.flatMap found) := by
  induction items generalizing before with
  | nil => rfl
  | cons i items ih =>
    rw [List.flatMap_cons, List.flatMap_cons]
    refine (hstep i List.mem_cons_self _ _ h).append ?_
    exact ih (fun j hj => hstep j (List.mem_cons_of_mem _ hj))
      (fun j hj => hinv j (List.mem_cons_of_mem _ hj)) _ (hinv i List.mem_cons_self _ h)

/-- A match reads the whole stretch, and `f` says what it is worth. -/
theorem finds_match {x : Char} {s : List Char} {v : α}
    (h : p.matchAt? ⟨before, x :: s ++ rest⟩ =
      some ⟨⟨⟨before, x :: s ++ rest⟩, ⟨(x :: s).reverse ++ before, rest⟩⟩, v⟩) :
    Finds p f before (x :: s) rest
      (f ⟨⟨⟨before, x :: s ++ rest⟩, ⟨(x :: s).reverse ++ before, rest⟩⟩, v⟩).toList := by
  have hlen : (x :: s ++ rest).length - rest.length - 1 = s.length := by
    simp only [List.length_append, List.length_cons]
    omega
  rw [List.cons_append] at h hlen
  rw [Finds, List.cons_append, matchesFrom, h]
  simp only [Excerpt.length, hlen, List.filterMap_cons]
  rw [matchesFrom_skip, List.reverse_cons, List.append_assoc, List.singleton_append]
  cases f _ <;> rfl

/-- What a whole text holds, when its end cannot start a match. -/
theorem Finds.matchesIn (h : Finds p f [] a [] out) (hend : p ⟨a.reverse, []⟩ = []) :
    (matchesIn p a).filterMap f = out := by
  rw [Finds, List.append_nil, List.append_nil, Pattern.matchesFrom,
    matchAt?_eq_none.2 hend] at h
  simpa [Pattern.matchesIn] using h

end ClassAtlas.Pattern
