import Mathlib.Data.List.TakeWhile
import ClassAtlas.Pattern.Search

/-! What a pattern reads. Every reading goes on from its place through characters of the text, and
`Within` bounds which characters these may be; there is one lemma for each way to build a pattern.
The `mem_` lemmas take the readings of a composed pattern apart. -/

namespace ClassAtlas

/-- What holds of the characters of a text is decided by going through the text, and not through
all characters there are. -/
instance (priority := high) decidableForallMemText (text : List Char) (p : Char → Prop)
    [DecidablePred p] : Decidable (∀ ch ∈ text, p ch) := List.decidableBAll p text

namespace Cursor

/-- `c` goes on to `d` by reading `s`. -/
structure Reads (c : Cursor) (s : List Char) (d : Cursor) : Prop where
  after_eq : c.after = s ++ d.after
  before_eq : d.before = s.reverse ++ c.before

namespace Reads

variable {c d e : Cursor} {s t : List Char}

theorem refl (c : Cursor) : c.Reads [] c := ⟨rfl, rfl⟩

theorem trans (h : c.Reads s d) (k : d.Reads t e) : c.Reads (s ++ t) e := by
  constructor
  · rw [h.after_eq, k.after_eq, List.append_assoc]
  · rw [k.before_eq, h.before_eq, List.reverse_append, List.append_assoc]

theorem single {ch : Char} {before rest : List Char} :
    Reads ⟨before, ch :: rest⟩ [ch] ⟨ch :: before, rest⟩ := ⟨rfl, rfl⟩

theorem text_eq (h : c.Reads s d) : d.text = c.text := by
  simp [text, h.after_eq, h.before_eq]

theorem offset_eq (h : c.Reads s d) : d.offset = c.offset + s.length := by
  rw [offset, h.before_eq, List.length_append, List.length_reverse, Nat.add_comm]
  rfl

theorem offset_le (h : c.Reads s d) : c.offset ≤ d.offset := by
  rw [h.offset_eq]
  exact Nat.le_add_right _ _

end Reads

theorem after_eq_drop (c : Cursor) : c.after = c.text.drop c.offset := by
  simp [text, offset]

/-- Of two places in one text, the earlier one goes on to the later one. -/
theorem reads_of_offset_le {c d : Cursor} (ht : c.text = d.text) (ho : c.offset ≤ d.offset) :
    ∃ s, c.Reads s d := by
  have hp : c.before.reverse <+: d.before.reverse := by
    have hd : d.before.reverse <+: c.text := ht ▸ List.prefix_append _ _
    exact List.prefix_of_prefix_length_le (List.prefix_append _ _) hd (by simpa [offset] using ho)
  obtain ⟨s, hs⟩ := hp
  refine ⟨s, ?_, ?_⟩
  · have h := ht
    rw [text, text, ← hs, List.append_assoc] at h
    exact List.append_cancel_left h
  · rw [← List.reverse_reverse d.before, ← hs]
    simp

end Cursor

namespace Excerpt

@[simp] theorem chars_append (before before' s rest : List Char) :
    (⟨⟨before, s ++ rest⟩, ⟨before', rest⟩⟩ : Excerpt).chars = s := by
  simp [chars, length]

theorem chars_of_reads {c d : Cursor} {s : List Char} (h : c.Reads s d) :
    (⟨c, d⟩ : Excerpt).chars = s := by
  simp [chars, length, h.after_eq]

@[simp] theorem text_append (before before' s rest : List Char) :
    (⟨⟨before, s ++ rest⟩, ⟨before', rest⟩⟩ : Excerpt).text = String.ofList s := by
  rw [text, chars_append]

end Excerpt

namespace Pattern

variable {α β : Type} {c : Cursor}

/-! ### Taking readings apart -/

theorem mem_bind {p : Pattern α} {f : α → Pattern β} {r : β × Cursor} :
    r ∈ (p >>= f) c ↔ ∃ q ∈ p c, r ∈ f q.1 q.2 := by
  rw [bind_apply, List.mem_flatMap]

theorem mem_bind_of_mem {p : Pattern α} {f : α → Pattern β} {a : α} {d : Cursor} {r : β × Cursor}
    (hp : (a, d) ∈ p c) (hf : r ∈ f a d) : r ∈ (p >>= f) c :=
  mem_bind.2 ⟨(a, d), hp, hf⟩

theorem mem_pure {a : α} {r : α × Cursor} : r ∈ (pure a : Pattern α) c ↔ r = (a, c) := by
  rw [pure_apply, List.mem_singleton]

theorem mem_orElse {p q : Pattern α} {r : α × Cursor} :
    r ∈ (p <|> q) c ↔ r ∈ p c ∨ r ∈ q c := by
  rw [orElse_apply, List.mem_append]

theorem mem_map {p : Pattern α} {f : α → β} {r : β × Cursor} :
    r ∈ (f <$> p) c ↔ ∃ q ∈ p c, r = (f q.1, q.2) := by
  change r ∈ (p >>= fun a => pure (f a)) c ↔ _
  simp only [mem_bind, mem_pure]

theorem mem_optional {p : Pattern α} {r : Option α × Cursor} :
    r ∈ (optional p) c ↔ (∃ q ∈ p c, r = (some q.1, q.2)) ∨ r = (none, c) := by
  change r ∈ (some <$> p <|> pure none) c ↔ _
  rw [mem_orElse, mem_map, mem_pure]

theorem mem_maybe {p : Pattern Unit} {r : Unit × Cursor} :
    r ∈ (maybe p) c ↔ r ∈ p c ∨ r = ((), c) := by
  rw [maybe, mem_orElse, mem_pure]

theorem mem_here {r : Cursor × Cursor} : r ∈ here c ↔ r = (c, c) := by
  rw [here, List.mem_singleton]

theorem mem_require {holds : Cursor → Bool} {r : Unit × Cursor} :
    r ∈ require holds c ↔ holds c = true ∧ r = ((), c) := by
  unfold require
  split <;> simp_all

theorem mem_captured {p : Pattern Unit} {r : Excerpt × Cursor} :
    r ∈ captured p c ↔ ((), r.2) ∈ p c ∧ r.1 = ⟨c, r.2⟩ := by
  unfold captured
  rw [List.mem_map]
  constructor
  · rintro ⟨q, hq, rfl⟩
    exact ⟨hq, rfl⟩
  · rintro ⟨hr, he⟩
    exact ⟨((), r.2), hr, Prod.ext he.symm rfl⟩

theorem mem_one {cls : Char → Bool} {r : Unit × Cursor} (h : r ∈ one cls c) :
    ∃ ch, cls ch = true ∧ c.Reads [ch] r.2 := by
  obtain ⟨before, after⟩ := c
  cases after with
  | nil => simp [one] at h
  | cons ch rest =>
    simp only [one] at h
    split at h
    · next hch =>
      rw [List.mem_singleton] at h
      subst h
      exact ⟨ch, hch, .single⟩
    · simp at h

theorem mem_chars {s : List Char} {r : Unit × Cursor} (h : r ∈ chars s c) : c.Reads s r.2 := by
  induction s generalizing c with
  | nil =>
    rw [chars, List.mem_singleton] at h
    subst h
    exact .refl c
  | cons ch chs ih =>
    obtain ⟨before, after⟩ := c
    cases after with
    | nil => simp [chars] at h
    | cons next rest =>
      simp only [chars] at h
      split at h
      · next hch =>
        obtain rfl := eq_of_beq hch
        exact Cursor.Reads.single.trans (ih h)
      · simp at h

theorem mem_lit {s : String} {r : Unit × Cursor} (h : r ∈ lit s c) : c.Reads s.toList r.2 :=
  mem_chars h

theorem mem_oneOf {names : List String} {r : Unit × Cursor} (h : r ∈ oneOf names c) :
    ∃ s ∈ names, c.Reads s.toList r.2 := by
  induction names with
  | nil => exact absurd h List.not_mem_nil
  | cons s rest ih =>
    rw [oneOf, mem_orElse] at h
    rcases h with h | h
    · exact ⟨s, List.mem_cons_self, mem_lit h⟩
    · obtain ⟨t, ht, hr⟩ := ih h
      exact ⟨t, List.mem_cons_of_mem _ ht, hr⟩

theorem skip_eq (cls : Char → Bool) (before text : List Char) :
    skip cls before text = ⟨(text.takeWhile cls).reverse ++ before, text.dropWhile cls⟩ := by
  induction text generalizing before with
  | nil => rfl
  | cons ch rest ih =>
    unfold skip
    split
    · next hch => simp [ih, hch]
    · next hch => simp [hch]

/-- A run reads characters of its class and stops where another one, or none, comes next. -/
theorem mem_run {cls : Char → Bool} {r : Unit × Cursor} (h : r ∈ run cls c) :
    ∃ s, c.Reads s r.2 ∧ (∀ ch ∈ s, cls ch = true) ∧ ∀ ch ∈ r.2.after.head?, cls ch = false := by
  rw [run, List.mem_singleton, skip_eq] at h
  subst h
  refine ⟨c.after.takeWhile cls, ⟨List.takeWhile_append_dropWhile.symm, rfl⟩,
    fun ch hch => List.mem_takeWhile_imp hch, ?_⟩
  intro ch hch
  have hd := List.head?_dropWhile_not cls c.after
  simp only [Option.mem_def] at hch
  simp only [hch] at hd
  simpa using hd

theorem mem_run1 {cls : Char → Bool} {r : Unit × Cursor} (h : r ∈ run1 cls c) :
    ∃ s, s ≠ [] ∧ c.Reads s r.2 ∧ (∀ ch ∈ s, cls ch = true) ∧
      ∀ ch ∈ r.2.after.head?, cls ch = false := by
  obtain ⟨q, hq, hr⟩ := mem_bind.1 h
  obtain ⟨ch, hch, hread⟩ := mem_one hq
  obtain ⟨s, hs, hall, hstop⟩ := mem_run hr
  refine ⟨ch :: s, by simp, hread.trans hs, ?_, hstop⟩
  intro x hx
  rcases List.mem_cons.1 hx with rfl | hx
  · exact hch
  · exact hall x hx

theorem mem_prefixes {cls : Char → Bool} {before text : List Char}
    {shorter : List (Unit × Cursor)} {r : Unit × Cursor}
    (h : r ∈ prefixes cls before text shorter) :
    r ∈ shorter ∨ ∃ s, (⟨before, text⟩ : Cursor).Reads s r.2 ∧ ∀ ch ∈ s, cls ch = true := by
  induction text generalizing before shorter with
  | nil =>
    rcases List.mem_cons.1 h with rfl | h
    · exact .inr ⟨[], .refl _, by simp⟩
    · exact .inl h
  | cons ch rest ih =>
    have hstay : r ∈ ((), ⟨before, ch :: rest⟩) :: shorter →
        r ∈ shorter ∨ ∃ s, (⟨before, ch :: rest⟩ : Cursor).Reads s r.2 ∧ ∀ x ∈ s, cls x = true := by
      intro h
      rcases List.mem_cons.1 h with rfl | h
      · exact .inr ⟨[], .refl _, by simp⟩
      · exact .inl h
    unfold prefixes at h
    split at h
    · next hch =>
      rcases ih h with h | ⟨s, hs, hall⟩
      · exact hstay h
      · refine .inr ⟨ch :: s, Cursor.Reads.single.trans hs, ?_⟩
        exact List.forall_mem_cons.2 ⟨hch, hall⟩
    · exact hstay h

theorem mem_many {cls : Char → Bool} {r : Unit × Cursor} (h : r ∈ many cls c) :
    ∃ s, c.Reads s r.2 ∧ ∀ ch ∈ s, cls ch = true :=
  (mem_prefixes h).resolve_left List.not_mem_nil

/-! ### The characters that a pattern reads -/

/-- Each reading goes on through characters of a class. -/
def Within (cls : Char → Bool) (p : Pattern α) : Prop :=
  ∀ c, ∀ r ∈ p c, ∃ s, c.Reads s r.2 ∧ ∀ ch ∈ s, cls ch = true

/-- The class of all characters. -/
def anyChar (_ : Char) : Bool := true

variable {cls cls' : Char → Bool} {p q : Pattern α}

theorem Within.mono (h : p.Within cls) (hsub : ∀ ch, cls ch = true → cls' ch = true) :
    p.Within cls' := by
  intro c r hr
  obtain ⟨s, hs, hall⟩ := h c r hr
  exact ⟨s, hs, fun ch hch => hsub ch (hall ch hch)⟩

theorem Within.forward (h : p.Within cls) : p.Within anyChar := h.mono fun _ _ => rfl

theorem within_nothing (h : ∀ c, ∀ r ∈ p c, r.2 = c) : p.Within cls := by
  intro c r hr
  rw [h c r hr]
  exact ⟨[], .refl c, by simp⟩

theorem within_pure (a : α) : (pure a : Pattern α).Within cls :=
  within_nothing fun c r hr => by rw [mem_pure.1 hr]

theorem within_require (holds : Cursor → Bool) : (require holds).Within cls :=
  within_nothing fun c r hr => by rw [(mem_require.1 hr).2]

theorem Within.bind {f : α → Pattern β} (hp : p.Within cls) (hf : ∀ a, (f a).Within cls) :
    (p >>= f).Within cls := by
  intro c r hr
  obtain ⟨q, hq, hr⟩ := mem_bind.1 hr
  obtain ⟨s, hs, hall⟩ := hp c q hq
  obtain ⟨t, ht, hall'⟩ := hf q.1 q.2 r hr
  refine ⟨s ++ t, hs.trans ht, ?_⟩
  intro ch hch
  rcases List.mem_append.1 hch with h | h
  · exact hall ch h
  · exact hall' ch h

theorem Within.orElse (hp : p.Within cls) (hq : q.Within cls) : (p <|> q).Within cls := by
  intro c r hr
  rcases mem_orElse.1 hr with h | h
  · exact hp c r h
  · exact hq c r h

theorem Within.optional (hp : p.Within cls) : (optional p).Within cls := by
  intro c r hr
  rcases mem_optional.1 hr with ⟨q, hq, rfl⟩ | rfl
  · exact hp c q hq
  · exact ⟨[], .refl c, by simp⟩

theorem Within.maybe {p : Pattern Unit} (hp : p.Within cls) : (maybe p).Within cls :=
  Within.orElse hp (within_pure ())

theorem Within.captured {p : Pattern Unit} (hp : p.Within cls) : (captured p).Within cls := by
  intro c r hr
  exact hp c ((), r.2) (mem_captured.1 hr).1

theorem within_one (cls : Char → Bool) : (one cls).Within cls := by
  intro c r hr
  obtain ⟨ch, hch, hread⟩ := mem_one hr
  exact ⟨[ch], hread, by simpa using hch⟩

theorem within_run (cls : Char → Bool) : (run cls).Within cls := by
  intro c r hr
  obtain ⟨s, hs, hall, _⟩ := mem_run hr
  exact ⟨s, hs, hall⟩

theorem within_run1 (cls : Char → Bool) : (run1 cls).Within cls :=
  (within_one cls).bind fun _ => within_run cls

theorem within_lit {s : String} (h : ∀ ch ∈ s.toList, cls ch = true) : (lit s).Within cls :=
  fun _ _ hr => ⟨s.toList, mem_lit hr, h⟩

theorem within_oneOf {names : List String} (h : ∀ s ∈ names, ∀ ch ∈ s.toList, cls ch = true) :
    (oneOf names).Within cls := by
  intro c r hr
  obtain ⟨s, hs, hread⟩ := mem_oneOf hr
  exact ⟨s.toList, hread, h s hs⟩

theorem mem_repetitions {p : Pattern Unit} (hp : p.Within cls) (limit : List Char) :
    ∀ (c : Cursor) (fewer : List (Unit × Cursor)), ∀ r ∈ repetitions p limit c fewer,
      r ∈ fewer ∨ ∃ s, c.Reads s r.2 ∧ ∀ ch ∈ s, cls ch = true := by
  induction limit with
  | nil =>
    intro c fewer r hr
    rcases List.mem_cons.1 hr with rfl | hr
    · exact .inr ⟨[], .refl c, by simp⟩
    · exact .inl hr
  | cons x limit ih =>
    intro c fewer r hr
    have hstay : r ∈ ((), c) :: fewer →
        r ∈ fewer ∨ ∃ s, c.Reads s r.2 ∧ ∀ ch ∈ s, cls ch = true := by
      intro h
      rcases List.mem_cons.1 h with rfl | h
      · exact .inr ⟨[], .refl c, by simp⟩
      · exact .inl h
    -- the readings of one more repetition are put in front of those gathered so far
    have hfold : ∀ rs : List (Unit × Cursor), (∀ q ∈ rs, q ∈ p c) →
        r ∈ rs.foldr (fun q acc => repetitions p limit q.2 acc) (((), c) :: fewer) →
        r ∈ fewer ∨ ∃ s, c.Reads s r.2 ∧ ∀ ch ∈ s, cls ch = true := by
      intro rs
      induction rs with
      | nil => exact fun _ h => hstay h
      | cons q rs ihrs =>
        intro hsub h
        rcases ih q.2 _ r h with h | ⟨t, ht, hall⟩
        · exact ihrs (fun q' hq' => hsub q' (List.mem_cons_of_mem _ hq')) h
        · obtain ⟨s, hs, hall'⟩ := hp c q (hsub q List.mem_cons_self)
          refine .inr ⟨s ++ t, hs.trans ht, ?_⟩
          intro ch hch
          rcases List.mem_append.1 hch with h | h
          · exact hall' ch h
          · exact hall ch h
    unfold repetitions at hr
    split at hr
    · exact hstay hr
    · exact hfold (p c) (fun _ h => h) hr

theorem Within.repeated {p : Pattern Unit} (hp : p.Within cls) : (repeated p).Within cls := by
  intro c r hr
  rcases mem_repetitions hp c.after c [] r hr with h | h
  · exact absurd h List.not_mem_nil
  · exact h

theorem reads_skipAll {p : Pattern Unit} (hp : p.Within cls) (limit : List Char) (c : Cursor) :
    ∃ s, c.Reads s (skipAll p limit c) ∧ ∀ ch ∈ s, cls ch = true := by
  induction limit generalizing c with
  | nil => exact ⟨[], .refl c, by simp⟩
  | cons x limit ih =>
    unfold skipAll
    split
    · exact ⟨[], .refl c, by simp⟩
    · next r rs hpc =>
      obtain ⟨s, hs, hall⟩ := hp c r (by simp [hpc])
      obtain ⟨t, ht, hall'⟩ := ih r.2
      refine ⟨s ++ t, hs.trans ht, ?_⟩
      intro ch hch
      rcases List.mem_append.1 hch with h | h
      · exact hall ch h
      · exact hall' ch h

theorem Within.runOf {p : Pattern Unit} (hp : p.Within cls) : (runOf p).Within cls := by
  intro c r hr
  rw [Pattern.runOf, List.mem_singleton] at hr
  subst hr
  exact reads_skipAll hp c.after c

end Pattern

end ClassAtlas
