import ClassAtlas.Proofs.Source.Absence
import ClassAtlas.Source.Header

/-! Where no package, import or class is declared. Each of these declarations starts with a keyword
that is a word of its own with a blank behind it, so words that are other ones are missed. -/

namespace ClassAtlas.Text

theorem exists_mem_of_inRanges {ranges : List (Nat × Nat)} {n : Nat}
    (h : inRanges ranges n = true) : ∃ r ∈ ranges, r.1 ≤ n ∧ n ≤ r.2 := by
  induction ranges with
  | nil => simp [inRanges] at h
  | cons r ranges ih =>
    unfold inRanges at h
    split at h
    · next hle => exact ⟨r, List.mem_cons_self, by simpa using h, hle⟩
    · obtain ⟨r', hr', hin⟩ := ih h
      exact ⟨r', List.mem_cons_of_mem _ hr', hin⟩

/-- No character is both a blank and a part of a word. -/
theorem isWord_of_isBlank {c : Char} (h : isBlank c = true) : isWord c = false := by
  have hall : ∀ r ∈ blanks, ∀ n ∈ List.range' r.1 (r.2 + 1 - r.1),
      isWord (Char.ofNat n) = false := by
    decide +kernel
  obtain ⟨r, hr, hlo, hhi⟩ := exists_mem_of_inRanges h
  have hmem : c.toNat ∈ List.range' r.1 (r.2 + 1 - r.1) := by
    rw [List.mem_range'_1]
    omega
  have hc := hall r hr _ hmem
  rwa [Char.ofNat_toNat] at hc

theorem isBlank_of_isWord {c : Char} (h : isWord c = true) : isBlank c = false := by
  by_contra hb
  simp [isWord_of_isBlank (by simpa using hb)] at h

end ClassAtlas.Text

namespace ClassAtlas.Source

open Pattern

variable {α : Type} {p : Pattern α}

theorem isBlank_of_isDotted {ch : Char} (h : isDotted ch = true) : Text.isBlank ch = false := by
  rcases Bool.or_eq_true_iff.1 h with h | h
  · exact Text.isBlank_of_isWord h
  · rw [beq_iff_eq.1 h]
    decide

theorem blanks1_misses {s : List Char} (h : ∀ ch ∈ s, Text.isBlank ch = false) : Misses blanks1 s :=
  misses_of_forall_mem fun ch hch _ _ => run1_eq_nil (stops_cons (h ch hch))

/-- A pattern that reads only where one of the words stands as a word of its own, with a character
of the class behind it. -/
def WordsBefore (cls : Char → Bool) (words : List String) (p : Pattern α) : Prop :=
  ∀ c, p c ≠ [] → startsWord c.before = false ∧
    ∃ w ∈ words, ∃ x rest, cls x = true ∧ c.after = w.toList ++ x :: rest

/-- The same with a blank behind the word. -/
abbrev WordsOnly (words : List String) (p : Pattern α) : Prop := WordsBefore Text.isBlank words p

theorem WordsBefore.mono {cls : Char → Bool} {words words' : List String}
    (h : WordsBefore cls words p) (hsub : ∀ k ∈ words, k ∈ words') : WordsBefore cls words' p := by
  intro c hc
  obtain ⟨hstart, k, hk, rest⟩ := h c hc
  exact ⟨hstart, k, hsub k hk, rest⟩

theorem WordsBefore.eq_nil_at_end {cls : Char → Bool} {words : List String}
    (hp : WordsBefore cls words p)
    (before : List Char) : p ⟨before, []⟩ = [] := by
  by_contra hne
  obtain ⟨_, k, _, x, rest, _, heq⟩ := hp _ hne
  simp at heq

theorem mem_boundary {c : Cursor} {r : Unit × Cursor} (h : r ∈ boundary c) {w rest : List Char}
    (hw : Worded w) (hc : c.after = w ++ rest) : startsWord c.before = false ∧ r = ((), c) := by
  obtain ⟨hne, rfl⟩ := mem_require.1 h
  refine ⟨?_, rfl⟩
  rw [hc, hw.startsWord rest] at hne
  simpa using hne

/-- A keyword and the blanks behind it. -/
theorem mem_keyword (names : List String) (hnames : ∀ s ∈ names, Worded s.toList) {c : Cursor}
    {q : Pattern Unit} (hq : ∀ c, ∀ r ∈ q c, ∃ s ∈ names, c.Reads s.toList r.2)
    (f : Unit → Pattern α)
    (h : (do boundary; q; let u ← blanks1; f u : Pattern α) c ≠ []) :
    startsWord c.before = false ∧
      ∃ w ∈ names, ∃ x rest, Text.isBlank x = true ∧ c.after = w.toList ++ x :: rest := by
  obtain ⟨r, hr⟩ := List.exists_mem_of_ne_nil _ h
  obtain ⟨q₁, h₁, hr⟩ := mem_bind.1 hr
  obtain ⟨q₂, h₂, hr⟩ := mem_bind.1 hr
  obtain ⟨q₃, h₃, hr⟩ := mem_bind.1 hr
  obtain rfl : q₁ = ((), c) := (mem_require.1 h₁).2
  obtain ⟨s, hs, hread⟩ := hq _ _ h₂
  obtain ⟨gap, hne, hgap, hblank, _⟩ := mem_run1 h₃
  obtain ⟨hstart, _⟩ := mem_boundary h₁ (hnames s hs) hread.after_eq
  refine ⟨hstart, s, hs, ?_⟩
  cases gap with
  | nil => exact absurd rfl hne
  | cons x gap =>
    refine ⟨x, gap ++ q₃.2.after, hblank x List.mem_cons_self, ?_⟩
    rw [hread.after_eq, hgap.after_eq]
    rfl

theorem packagePattern_wordsOnly : WordsOnly ["package"] packagePattern := by
  intro c hc
  exact mem_keyword ["package"] (by decide)
    (fun c r hr => ⟨"package", by simp, mem_lit hr⟩) _ hc

theorem importPattern_wordsOnly : WordsOnly ["import"] importPattern := by
  intro c hc
  exact mem_keyword ["import"] (by decide)
    (fun c r hr => ⟨"import", by simp, mem_lit hr⟩) _ hc

/-- The words that may start the declaration of a class. -/
def classWords : List String := ["public", "abstract", "final", "class"]

theorem classPattern_wordsOnly : WordsOnly classWords classPattern := by
  intro c hc
  by_cases hmods :
      (do boundary; oneOf ["public", "abstract", "final"]; blanks1 : Pattern Unit) c = []
  · -- no modifier comes first, so the keyword itself does
    unfold classPattern at hc
    rw [bind_eq_of_single (runOf_eq_single hmods)] at hc
    exact mem_keyword classWords (by decide)
      (fun c r hr => ⟨"class", by decide, mem_lit hr⟩) _ hc
  · refine mem_keyword classWords (by decide) (q := oneOf ["public", "abstract", "final"])
      ?_ pure ?_
    · intro c r hr
      obtain ⟨s, hs, hread⟩ := mem_oneOf hr
      exact ⟨s, List.mem_append_left ["class"] hs, hread⟩
    · obtain ⟨r, hr⟩ := List.exists_mem_of_ne_nil _ hmods
      refine List.ne_nil_of_mem (a := r) ?_
      obtain ⟨q₁, h₁, hr⟩ := mem_bind.1 hr
      obtain ⟨q₂, h₂, hr⟩ := mem_bind.1 hr
      exact mem_bind.2 ⟨q₁, h₁, mem_bind.2 ⟨q₂, h₂, mem_bind.2 ⟨r, hr, by simp [mem_pure]⟩⟩⟩

/-- Where another word stands, a keyword may be read, but then no blank follows it. -/
theorem stops_behind_keyword {k : String} (hk : Worded k.toList) {w before rest : List Char}
    (hw : ∀ ch ∈ w, Text.isWord ch = true) (hrest : Stops Text.isWord rest) (hother : k.toList ≠ w)
    {d : Cursor} (hread : Cursor.Reads ⟨before, w ++ rest⟩ k.toList d) :
    Stops Text.isBlank d.after := by
  have heq : w ++ rest = k.toList ++ d.after := hread.after_eq
  cases hafter : d.after with
  | nil => exact stops_nil
  | cons ch more =>
    refine stops_cons ?_
    by_contra hblank
    have hch := Text.isWord_of_isBlank (by simpa using hblank)
    rw [hafter] at heq
    cases rest with
    | nil =>
      rw [List.append_nil] at heq
      have hmem : ch ∈ w := by simp [heq]
      simp [hw ch hmem] at hch
    | cons x rest =>
      obtain ⟨rfl, _⟩ := split_unique hw hk.2 (hrest x (by simp)) hch heq
      exact hother rfl

/-! ### Stretches that are missed -/

section Missed

variable {cls : Char → Bool} {words : List String} {w more : List Char} {x : Char}

theorem WordsBefore.misses_mark (hp : WordsBefore cls words p)
    (hwords : ∀ k ∈ words, Worded k.toList) (hx : Text.isWord x = false) : Misses p [x] := by
  refine misses_single fun before rest => ?_
  by_contra hne
  obtain ⟨_, k, hk, y, rest', _, heq⟩ := hp _ hne
  obtain ⟨ch, hch, hword⟩ := (hwords k hk).head (y :: rest')
  obtain rfl : x = ch := by simpa [← heq] using hch
  simp [hx] at hword

/-- A word is missed when it is none of those looked for or has no proper character behind it. -/
theorem WordsBefore.misses_word (hp : WordsBefore cls words p)
    (hcls : ∀ y, cls y = true → Text.isWord y = false) (hwords : ∀ k ∈ words, Worded k.toList)
    (hw : ∀ ch ∈ w, Text.isWord ch = true) (hx : Text.isWord x = false)
    (hother : (∀ k ∈ words, k.toList ≠ w) ∨ cls x = false) (hmore : Misses p (x :: more)) :
    Misses p (w ++ x :: more) := by
  refine misses_append ?_ hmore
  intro t s hsplit hs before rest
  by_contra hne
  obtain ⟨hstart, k, hk, y, rest', hy, heq⟩ := hp _ hne
  have hsword : ∀ ch ∈ s, Text.isWord ch = true := by
    intro ch hch
    exact hw ch (by simp [hsplit, hch])
  have heq : s ++ x :: (more ++ rest) = k.toList ++ y :: rest' := by simpa using heq
  obtain ⟨hk', rfl, _⟩ := split_unique hsword (hwords k hk).2 hx (hcls y hy) heq
  cases ht : t.reverse with
  | nil =>
    obtain rfl : t = [] := by simpa using ht
    rcases hother with h | h
    · exact h k hk (by rw [hsplit, List.nil_append, hk'])
    · simp [hy] at h
  | cons ch u =>
    -- inside a word no word starts
    have hch : Text.isWord ch = true := by
      refine hw ch ?_
      have hmem : ch ∈ t := List.mem_reverse.1 (ht ▸ List.mem_cons_self)
      simp [hsplit, hmem]
    simp [ht, startsWord, hch] at hstart

/-- A stretch without any character that may stand behind the words. -/
theorem WordsBefore.misses_unbroken {s : List Char} (hp : WordsBefore cls words p)
    (hwords : ∀ k ∈ words, Worded k.toList) (hs : ∀ ch ∈ s, cls ch = false)
    (hx : Text.isWord x = false) (hcls : cls x = false) (hmore : Misses p (x :: more)) :
    Misses p (s ++ x :: more) := by
  refine Misses.append_left ?_ hmore
  intro s' hs' _ before rest
  by_contra hne
  obtain ⟨_, k, hk, y, rest', hy, heq⟩ := hp _ hne
  have heq : s' ++ x :: (more ++ rest) = k.toList ++ y :: rest' := heq
  rcases List.append_eq_append_iff.1 heq with ⟨u, hu, hrest⟩ | ⟨u, hu, hrest⟩
  · cases u with
    | nil =>
      obtain rfl : x = y := (List.cons.inj hrest).1
      simp [hy] at hcls
    | cons z u =>
      obtain rfl : x = z := (List.cons.inj hrest).1
      rw [(hwords k hk).2 x (by simp [hu])] at hx
      simp at hx
  · cases u with
    | nil =>
      obtain rfl : y = x := (List.cons.inj hrest).1
      simp [hy] at hcls
    | cons z u =>
      obtain rfl : y = z := (List.cons.inj hrest).1
      have hmem : y ∈ s := hs'.subset (by simp [hu])
      simp [hs y hmem] at hy

end Missed

end ClassAtlas.Source
