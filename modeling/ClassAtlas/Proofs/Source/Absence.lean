import ClassAtlas.Proofs.Source.Shape

/-! Where no member is declared. A declaration starts with a word, and the first character behind
its words and blanks tells it apart: a method's is a parenthesis and a field's a semicolon or an
equals sign, unless type arguments or brackets come first. Stretches of a source whose words are
followed by something else are therefore missed at every place. -/

namespace ClassAtlas.Source

open Pattern

variable {α : Type}

/-- The first character outside a class cuts a text in one way only. -/
theorem split_unique {cls : Char → Bool} {s s' r r' : List Char} {x x' : Char}
    (hs : ∀ ch ∈ s, cls ch = true) (hs' : ∀ ch ∈ s', cls ch = true) (hx : cls x = false)
    (hx' : cls x' = false) (h : s ++ x :: r = s' ++ x' :: r') : s = s' ∧ x = x' ∧ r = r' := by
  induction s generalizing s' with
  | nil =>
    cases s' with
    | nil => simpa using h
    | cons y s' =>
      rw [List.nil_append, List.cons_append, List.cons.injEq] at h
      have hy := hs' y List.mem_cons_self
      rw [← h.1, hx] at hy
      simp at hy
  | cons y s ih =>
    cases s' with
    | nil =>
      rw [List.nil_append, List.cons_append, List.cons.injEq] at h
      have hy := hs y List.mem_cons_self
      rw [h.1, hx'] at hy
      simp at hy
    | cons y' s' =>
      rw [List.cons_append, List.cons_append, List.cons.injEq] at h
      obtain ⟨rfl, hrest⟩ := ih (fun ch hch => hs ch (List.mem_cons_of_mem _ hch))
        (fun ch hch => hs' ch (List.mem_cons_of_mem _ hch)) h.2
      exact ⟨by rw [h.1], hrest⟩

/-- The text starts with a word, and what stands first behind its words and blanks is one of
`ends`, or else a type's arguments or brackets with one of `ends` behind further words. In a
`gapped` text there is a blank before the first of these. -/
structure Leads (gapped : Bool) (ends text : List Char) : Prop where
  starts : ∃ ch ∈ text.head?, Text.isWord ch = true
  goesOn : (∃ s y more, (∀ ch ∈ s, isPhrase ch = true) ∧
      (gapped = true → ∃ ch ∈ s, Text.isBlank ch = true) ∧ y ∈ ends ∧ text = s ++ y :: more) ∨
    ∃ s suffix t y more, (∀ ch ∈ s, isPhrase ch = true) ∧ FieldTypeSuffix suffix ∧ suffix ≠ [] ∧
      (∀ ch ∈ t, isPhrase ch = true) ∧ y ∈ ends ∧ text = s ++ (suffix ++ (t ++ y :: more))

theorem Heading.leads (h : Heading) (hsuffix : FieldTypeSuffix h.suffix) {ends gap : List Char}
    (hgap : ∀ ch ∈ gap, Text.isBlank ch = true) {y : Char} (hy : y ∈ ends) (more : List Char) :
    Leads true ends (h.chars ++ (gap ++ y :: more)) := by
  have hfirst : ∀ ch ∈ h.modifiers ++ h.type, isPhrase ch = true := by
    intro ch hch
    rcases List.mem_append.1 hch with hch | hch
    · exact h.modifiers_phrase ch hch
    · exact isPhrase_of_isWord (h.type_word.2 ch hch)
  have hsecond : ∀ ch ∈ h.gap ++ (h.name ++ gap), isPhrase ch = true := by
    intro ch hch
    simp only [List.mem_append] at hch
    rcases hch with hch | hch | hch
    · exact isPhrase_of_isBlank (h.gap_blank ch hch)
    · exact isPhrase_of_isWord (h.name_word.2 ch hch)
    · exact isPhrase_of_isBlank (hgap ch hch)
  constructor
  · unfold Heading.chars
    cases hm : h.modifiers with
    | nil =>
      rw [List.nil_append, List.append_assoc]
      exact h.type_word.head _
    | cons x s => exact ⟨x, by simp, h.modifiers_start x (by simp [hm])⟩
  · by_cases hs : h.suffix = []
    · left
      obtain ⟨ch, hch⟩ := List.exists_mem_of_ne_nil _ h.gap_ne
      refine ⟨(h.modifiers ++ h.type) ++ (h.gap ++ (h.name ++ gap)), y, more, ?_, ?_, hy, ?_⟩
      · intro ch hch
        rcases List.mem_append.1 hch with hch | hch
        · exact hfirst ch hch
        · exact hsecond ch hch
      · exact fun _ => ⟨ch, by simp [hch], h.gap_blank ch hch⟩
      · simp [Heading.chars, hs]
    · right
      refine ⟨h.modifiers ++ h.type, h.suffix, h.gap ++ (h.name ++ gap), y, more, hfirst, hsuffix,
        hs, hsecond, hy, ?_⟩
      simp [Heading.chars]

/-- A pattern that reads nothing but annotations and what such a text leads to. -/
def LeadsOnly (gapped : Bool) (ends : List Char) (p : Pattern α) : Prop :=
  ∀ c, p c ≠ [] → ∃ d, ((), d) ∈ annotationRun c ∧ Leads gapped ends d.after

theorem methodPattern_leadsOnly : LeadsOnly true ['('] methodPattern := by
  intro c hc
  obtain ⟨r, hr⟩ := List.exists_mem_of_ne_nil _ hc
  obtain ⟨heading, t, hann, _, hsuffix, hread, hbrace⟩ := mem_methodPattern hr
  refine ⟨r.1.start, hann, ?_⟩
  have hleads := heading.leads (.plain hsuffix) t.gap_blank (show '(' ∈ ['('] by simp)
    (t.parameters ++ ')' :: (t.clause ++ '{' :: r.2.after))
  rw [hread.after_eq, hbrace.after_eq]
  simpa [ParameterText.chars] using hleads

theorem fieldPattern_leadsOnly : LeadsOnly true [';', '='] fieldPattern := by
  intro c hc
  obtain ⟨r, hr⟩ := List.exists_mem_of_ne_nil _ hc
  obtain ⟨heading, gap, value, hann, _, hsuffix, hgap, hvalue, hread⟩ := mem_fieldPattern hr
  refine ⟨r.1.start, hann, ?_⟩
  rw [hread.after_eq]
  rcases hvalue with ⟨rfl, rfl⟩ | ⟨init, rfl⟩
  · have hleads := heading.leads hsuffix hgap (show ';' ∈ [';', '='] by simp) r.2.after
    simpa using hleads
  · have hleads := heading.leads hsuffix hgap (show '=' ∈ [';', '='] by simp)
      (init ++ ';' :: r.2.after)
    simpa using hleads

theorem constructorPattern_leadsOnly : LeadsOnly false ['('] constructorPattern := by
  intro c hc
  obtain ⟨r, hr⟩ := List.exists_mem_of_ne_nil _ hc
  obtain ⟨name, t, hname, _, hread, _⟩ := mem_constructorPattern hr
  obtain ⟨ch, hch, hword⟩ := hname.head (t.chars ++ r.1.opening.after)
  have hafter : c.after = name ++ (t.chars ++ r.1.opening.after) := by
    rw [hread.after_eq, List.append_assoc]
  have hat : ∀ rest, c.after ≠ '@' :: rest := by
    intro rest h
    rw [← hafter, h] at hch
    obtain rfl : '@' = ch := by simpa using hch
    exact absurd hword (by decide)
  refine ⟨c, by rw [annotationRun_of_ne hat]; exact List.mem_singleton_self _, ?_, .inl ?_⟩
  · exact ⟨ch, by rw [hafter]; exact hch, hword⟩
  · refine ⟨name ++ t.gap, '(', t.parameters ++ ')' :: (t.clause ++ r.1.opening.after), ?_,
      by simp, by simp, by rw [hafter]; simp [ParameterText.chars]⟩
    intro x hx
    rcases List.mem_append.1 hx with hx | hx
    · exact isPhrase_of_isWord (hname.2 x hx)
    · exact isPhrase_of_isBlank (t.gap_blank x hx)

/-- A pattern that reads nothing inside a word or right behind an at sign or a dot, unless an
annotation comes next. -/
def FreeOnly (p : Pattern α) : Prop :=
  ∀ c, p c ≠ [] → (∀ rest, c.after ≠ '@' :: rest) → StartsFree c

theorem methodPattern_freeOnly : FreeOnly methodPattern := by
  intro c hc hat
  obtain ⟨r, hr⟩ := List.exists_mem_of_ne_nil _ hc
  obtain ⟨_, _, hann, hfree, _⟩ := mem_methodPattern hr
  rw [annotationRun_of_ne hat, List.mem_singleton] at hann
  obtain rfl : r.1.start = c := congrArg Prod.snd hann
  exact hfree

theorem constructorPattern_freeOnly : FreeOnly constructorPattern := by
  intro c hc _
  obtain ⟨r, hr⟩ := List.exists_mem_of_ne_nil _ hc
  obtain ⟨_, _, _, hfree, _⟩ := mem_constructorPattern hr
  exact hfree

/-- A constructor does not start with an annotation. -/
theorem constructorPattern_at (before rest : List Char) :
    constructorPattern ⟨before, '@' :: rest⟩ = [] := by
  by_contra hne
  obtain ⟨r, hr⟩ := List.exists_mem_of_ne_nil _ hne
  obtain ⟨name, t, hname, _, hread, _⟩ := mem_constructorPattern hr
  obtain ⟨ch, hch, hword⟩ := hname.head (t.chars ++ r.1.opening.after)
  rw [← List.append_assoc, ← hread.after_eq] at hch
  obtain rfl : '@' = ch := by simpa using hch
  exact absurd hword (by decide)

theorem constructorPattern_of_item {c d : Cursor} (h : annotationItem.Prefers c () d) :
    constructorPattern c = [] := by
  obtain ⟨others, hothers⟩ := h
  have hmem : ((), d) ∈ annotationItem c := by
    rw [hothers]
    exact List.mem_cons_self
  obtain ⟨q, hq, _⟩ := mem_bind.1 hmem
  obtain ⟨before, after⟩ := c
  obtain rfl : after = '@' :: q.2.after := (mem_lit hq).after_eq
  exact constructorPattern_at before _

/-! ### Texts that lead to nothing -/

/-- No word comes next, or something else than one of `ends`. -/
theorem not_leads_of_stops {gapped : Bool} {ends text : List Char} (h : Stops Text.isWord text) :
    ¬Leads gapped ends text := by
  intro hleads
  obtain ⟨ch, hch, hword⟩ := hleads.starts
  simp [h ch hch] at hword

/-- What may follow words and blanks where nothing is declared. -/
structure Breaks (ends : List Char) (x : Char) : Prop where
  not_phrase : isPhrase x = false
  not_mem : x ∉ ends
  ne_angle : x ≠ '<'
  ne_bracket : x ≠ '['
  ne_at : x ≠ '@'

instance (ends : List Char) (x : Char) : Decidable (Breaks ends x) :=
  decidable_of_iff (isPhrase x = false ∧ x ∉ ends ∧ x ≠ '<' ∧ x ≠ '[' ∧ x ≠ '@')
    ⟨fun ⟨h₁, h₂, h₃, h₄, h₅⟩ => ⟨h₁, h₂, h₃, h₄, h₅⟩,
      fun ⟨h₁, h₂, h₃, h₄, h₅⟩ => ⟨h₁, h₂, h₃, h₄, h₅⟩⟩

/-- The characters that end a declaration's words stand outside of words and types. -/
def ProperEnds (ends : List Char) : Prop := ∀ y ∈ ends, isPhrase y = false ∧ y ≠ '<' ∧ y ≠ '['

instance (ends : List Char) : Decidable (ProperEnds ends) :=
  inferInstanceAs (Decidable (∀ y ∈ ends, _))

section NotLeads

variable {gapped : Bool} {ends s t rest : List Char} {x y : Char}

theorem FieldTypeSuffix.head {s : List Char} (h : FieldTypeSuffix s) (hne : s ≠ []) :
    ∃ a t, s = a :: t ∧ isPhrase a = false ∧ (a = '<' ∨ a = '[') := by
  cases h with
  | plain h =>
    cases h with
    | none => exact absurd rfl hne
    | arguments _ => exact ⟨'<', _, rfl, by decide, .inl rfl⟩
    | brackets => exact ⟨'[', _, rfl, by decide, .inr rfl⟩
  | both _ => exact ⟨'<', _, rfl, by decide, .inl rfl⟩

theorem Breaks.not_suffix {suffix : List Char} (hx : Breaks ends x) :
    ¬FieldTypeSuffix (x :: suffix) := by
  intro h
  obtain ⟨a, _, heq, _, ha⟩ := h.head (by simp)
  obtain rfl : x = a := (List.cons.inj heq).1
  rcases ha with rfl | rfl
  · exact hx.ne_angle rfl
  · exact hx.ne_bracket rfl

/-- Two ways to cut a text behind its first words and blanks are the same. -/
theorem Leads.cases_of_phrase (hends : ProperEnds ends) (hs : ∀ ch ∈ s, isPhrase ch = true)
    (hx : isPhrase x = false) (h : Leads gapped ends (s ++ x :: rest)) :
    x ∈ ends ∧ (gapped = true → ∃ ch ∈ s, Text.isBlank ch = true) ∨
      ∃ suffix t y more, FieldTypeSuffix (x :: suffix) ∧ (∀ ch ∈ t, isPhrase ch = true) ∧ y ∈ ends ∧
        rest = suffix ++ (t ++ y :: more) := by
  rcases h.goesOn with ⟨s', y, more, hs', hgap, hy, heq⟩ |
      ⟨s', suffix, t, y, more, hs', hsuffix, hne, ht, hy, heq⟩
  · obtain ⟨rfl, rfl, _⟩ := split_unique hs hs' hx (hends y hy).1 heq
    exact .inl ⟨hy, hgap⟩
  · obtain ⟨a, suffix, rfl, ha, _⟩ := hsuffix.head hne
    obtain ⟨_, rfl, hrest⟩ := split_unique hs hs' hx ha heq
    exact .inr ⟨suffix, t, y, more, hsuffix, ht, hy, hrest⟩

theorem not_leads_phrase (hends : ProperEnds ends) (hs : ∀ ch ∈ s, isPhrase ch = true)
    (hx : Breaks ends x) : ¬Leads gapped ends (s ++ x :: rest) := by
  intro h
  rcases h.cases_of_phrase hends hs hx.not_phrase with ⟨hmem, _⟩ | ⟨_, _, _, _, hsuffix, _⟩
  · exact hx.not_mem hmem
  · exact hx.not_suffix hsuffix

/-- A word with no blank behind it is not the type of anything. -/
theorem not_leads_word (hends : ProperEnds ends) (hs : ∀ ch ∈ s, isPhrase ch = true)
    (hblank : ∀ ch ∈ s, Text.isBlank ch = false) (hx : Breaks [] x) :
    ¬Leads true ends (s ++ x :: rest) := by
  intro h
  rcases h.cases_of_phrase hends hs hx.not_phrase with ⟨_, hgap⟩ | ⟨_, _, _, _, hsuffix, _⟩
  · obtain ⟨ch, hch, hb⟩ := hgap rfl
    simp [hblank ch hch] at hb
  · exact hx.not_suffix hsuffix

theorem not_leads_arguments {args : List Char} (hends : ProperEnds ends)
    (hs : ∀ ch ∈ s, isPhrase ch = true) (hargs : '>' ∉ args) (ht : ∀ ch ∈ t, isPhrase ch = true)
    (hy : Breaks ends y) : ¬Leads gapped ends (s ++ '<' :: (args ++ '>' :: (t ++ y :: rest))) := by
  intro h
  have hopen : ∀ {l : List Char}, '>' ∉ l → ∀ ch ∈ l, (ch != '>') = true := by
    intro l hl ch hch
    rw [bne_iff_ne]
    rintro rfl
    exact hl hch
  rcases h.cases_of_phrase hends hs (by decide) with
    ⟨hmem, _⟩ | ⟨suffix, t', y', more, hsuffix, ht', hy', heq⟩
  · exact (hends '<' hmem).2.1 rfl
  · generalize hsuf : '<' :: suffix = full at hsuffix
    cases hsuffix with
    | plain hsuffix =>
      cases hsuffix with
      | none => simp at hsuf
      | brackets => simp at hsuf
      | arguments hargs' =>
        obtain rfl := (List.cons.inj hsuf).2
        simp only [List.append_assoc, List.singleton_append] at heq
        obtain ⟨_, _, heq⟩ := split_unique (hopen hargs) (hopen hargs') (by decide) (by decide) heq
        obtain ⟨_, rfl, _⟩ := split_unique ht ht' hy.not_phrase (hends y' hy').1 heq
        exact hy.not_mem hy'
    | both hargs' =>
      obtain rfl := (List.cons.inj hsuf).2
      simp only [List.append_assoc, List.cons_append, List.nil_append] at heq
      obtain ⟨_, _, heq⟩ := split_unique (hopen hargs) (hopen hargs') (by decide) (by decide) heq
      have heq : t ++ y :: rest = [] ++ '[' :: ']' :: (t' ++ y' :: more) := heq
      obtain ⟨_, rfl, _⟩ := split_unique ht (by simp) hy.not_phrase (by decide) heq
      exact hy.ne_bracket rfl

theorem not_leads_brackets (hends : ProperEnds ends) (hs : ∀ ch ∈ s, isPhrase ch = true)
    (ht : ∀ ch ∈ t, isPhrase ch = true) (hy : Breaks ends y) :
    ¬Leads gapped ends (s ++ '[' :: ']' :: (t ++ y :: rest)) := by
  intro h
  rcases h.cases_of_phrase hends hs (by decide) with
    ⟨hmem, _⟩ | ⟨suffix, t', y', more, hsuffix, ht', hy', heq⟩
  · exact (hends '[' hmem).2.2 rfl
  · obtain rfl : suffix = [']'] := by
      generalize hsuf : '[' :: suffix = full at hsuffix
      cases hsuffix with
      | plain hsuffix =>
        cases hsuffix with
        | none => simp at hsuf
        | arguments _ => simp at hsuf
        | brackets => exact (List.cons.inj hsuf).2
      | both _ => simp at hsuf
    rw [List.singleton_append, List.cons.injEq] at heq
    obtain ⟨_, rfl, _⟩ := split_unique ht ht' hy.not_phrase (hends y' hy').1 heq.2
    exact hy.not_mem hy'

end NotLeads

/-! ### Stretches that are missed -/

theorem ne_at_of_phrase {s : List Char} (hs : ∀ ch ∈ s, isPhrase ch = true) (hne : s ≠ [])
    (more rest : List Char) : s ++ more ≠ '@' :: rest := by
  intro h
  cases s with
  | nil => exact absurd rfl hne
  | cons x s =>
    have hx := hs x List.mem_cons_self
    rw [(List.cons.inj h).1] at hx
    exact absurd hx (by decide)

section Missed

variable {gapped : Bool} {ends s t more : List Char} {x y : Char} {p : Pattern α}

theorem LeadsOnly.eq_nil (hp : LeadsOnly gapped ends p) {c : Cursor}
    (hat : ∀ rest, c.after ≠ '@' :: rest) (h : ¬Leads gapped ends c.after) : p c = [] := by
  by_contra hne
  obtain ⟨d, hd, hleads⟩ := hp c hne
  rw [annotationRun_of_ne hat, List.mem_singleton] at hd
  obtain rfl : d = c := congrArg Prod.snd hd
  exact h hleads

theorem LeadsOnly.eq_nil_of_stops (hp : LeadsOnly gapped ends p) {before rest : List Char}
    (hword : Text.isWord x = false) (hat : x ≠ '@') : p ⟨before, x :: rest⟩ = [] := by
  refine hp.eq_nil ?_ (not_leads_of_stops (stops_cons hword))
  intro rest' h
  exact hat (List.cons.inj h).1

/-- A character outside words starts no declaration. -/
theorem LeadsOnly.misses_mark (hp : LeadsOnly gapped ends p) (hword : Text.isWord x = false)
    (hat : x ≠ '@') : Misses p [x] :=
  misses_single fun _ _ => hp.eq_nil_of_stops hword hat

theorem LeadsOnly.misses_spaces (hp : LeadsOnly gapped ends p) (hs : ∀ ch ∈ s, ch = ' ')
    (hmore : Misses p more) : Misses p (s ++ more) := by
  refine Misses.append (misses_of_forall_mem fun ch hch before rest => ?_) hmore
  rw [hs ch hch]
  exact hp.eq_nil_of_stops (by decide) (by decide)

theorem isWord_of_breaks (h : Breaks ends x) : Text.isWord x = false := by
  have hp := h.not_phrase
  simp only [isPhrase, Bool.or_eq_false_iff] at hp
  exact hp.1

/-- Words and blanks with such marks among them. -/
theorem LeadsOnly.misses_marked (hp : LeadsOnly gapped ends p) (hends : ProperEnds ends)
    (hs : ∀ ch ∈ s, isPhrase ch = true ∨ Breaks ends ch) (hx : Breaks ends x)
    (hmore : Misses p more) : Misses p (s ++ x :: more) := by
  refine Misses.append_left ?_ ((hp.misses_mark (isWord_of_breaks hx) hx.ne_at).cons hmore)
  intro s' hs' hne before rest
  have hmarked : ∀ ch ∈ s' ++ [x], isPhrase ch = true ∨ Breaks ends ch := by
    intro ch hch
    rcases List.mem_append.1 hch with hch | hch
    · exact hs ch (hs'.subset hch)
    · exact .inr (List.mem_singleton.1 hch ▸ hx)
  -- the first mark behind the place ends the reading
  obtain ⟨y, after, hy, hcut⟩ : ∃ y after, Breaks ends y ∧
      s' ++ [x] = (s' ++ [x]).takeWhile isPhrase ++ y :: after := by
    cases hdrop : (s' ++ [x]).dropWhile isPhrase with
    | nil =>
      have hall := List.dropWhile_eq_nil_iff.1 hdrop x (by simp)
      rw [hx.not_phrase] at hall
      simp at hall
    | cons y after =>
      have hmem : y ∈ s' ++ [x] := (List.dropWhile_suffix _).subset (hdrop ▸ List.mem_cons_self)
      have hnot : isPhrase y = false := by
        have hstops := stops_dropWhile isPhrase (s' ++ [x])
        rw [hdrop] at hstops
        exact hstops y rfl
      refine ⟨y, after, (hmarked y hmem).resolve_left (by simp [hnot]), ?_⟩
      rw [← hdrop, List.takeWhile_append_dropWhile]
  have hphrase : ∀ ch ∈ (s' ++ [x]).takeWhile isPhrase, isPhrase ch = true :=
    fun ch hch => List.mem_takeWhile_imp hch
  have htext : s' ++ (x :: more ++ rest) =
      (s' ++ [x]).takeWhile isPhrase ++ y :: (after ++ (more ++ rest)) := by
    have happend := congrArg (· ++ (more ++ rest)) hcut
    simpa using happend
  refine hp.eq_nil ?_ (htext ▸ not_leads_phrase hends hphrase hy)
  intro r heq
  cases s' with
  | nil => exact hne rfl
  | cons ch s' =>
    obtain rfl : ch = '@' := (List.cons.inj heq).1
    rcases hmarked '@' (by simp) with h | h
    · exact absurd h (by decide)
    · exact h.ne_at rfl

theorem LeadsOnly.misses_phrase (hp : LeadsOnly gapped ends p) (hends : ProperEnds ends)
    (hs : ∀ ch ∈ s, isPhrase ch = true) (hx : Breaks ends x) (hmore : Misses p more) :
    Misses p (s ++ x :: more) :=
  hp.misses_marked hends (fun ch hch => .inl (hs ch hch)) hx hmore

theorem LeadsOnly.misses_word (hp : LeadsOnly true ends p) (hends : ProperEnds ends)
    (hs : ∀ ch ∈ s, isPhrase ch = true) (hblank : ∀ ch ∈ s, Text.isBlank ch = false)
    (hx : Breaks [] x) (hmore : Misses p more) : Misses p (s ++ x :: more) := by
  refine Misses.append_left ?_ ((hp.misses_mark (isWord_of_breaks hx) hx.ne_at).cons hmore)
  intro s' hs' hne before rest
  have hphrase : ∀ ch ∈ s', isPhrase ch = true := fun ch hch => hs ch (hs'.subset hch)
  exact hp.eq_nil (ne_at_of_phrase hphrase hne _)
    (not_leads_word hends hphrase (fun ch hch => hblank ch (hs'.subset hch)) hx)

theorem LeadsOnly.misses_arguments {args : List Char} (hp : LeadsOnly gapped ends p)
    (hends : ProperEnds ends) (hs : ∀ ch ∈ s, isPhrase ch = true)
    (hargs : ∀ ch ∈ args, isPhrase ch = true) (hangle : '>' ∉ ends)
    (ht : ∀ ch ∈ t, isPhrase ch = true) (hy : Breaks ends y) (hmore : Misses p more) :
    Misses p (s ++ '<' :: (args ++ '>' :: (t ++ y :: more))) := by
  have hopen : '>' ∉ args := fun h => absurd (hargs _ h) (by decide)
  have hclose : Breaks ends '>' := ⟨by decide, hangle, by decide, by decide, by decide⟩
  refine Misses.append_left ?_ ?_
  · intro s' hs' hne before rest
    have hphrase : ∀ ch ∈ s', isPhrase ch = true := fun ch hch => hs ch (hs'.subset hch)
    refine hp.eq_nil (ne_at_of_phrase hphrase hne _) ?_
    simpa using not_leads_arguments hends hphrase hopen ht hy
  · refine Misses.cons (hp.misses_mark (by decide) (by decide)) ?_
    exact hp.misses_phrase hends hargs hclose (hp.misses_phrase hends ht hy hmore)

theorem LeadsOnly.misses_brackets (hp : LeadsOnly gapped ends p) (hends : ProperEnds ends)
    (hs : ∀ ch ∈ s, isPhrase ch = true) (ht : ∀ ch ∈ t, isPhrase ch = true) (hy : Breaks ends y)
    (hmore : Misses p more) : Misses p (s ++ '[' :: ']' :: (t ++ y :: more)) := by
  refine Misses.append_left ?_ ?_
  · intro s' hs' hne before rest
    have hphrase : ∀ ch ∈ s', isPhrase ch = true := fun ch hch => hs ch (hs'.subset hch)
    refine hp.eq_nil (ne_at_of_phrase hphrase hne _) ?_
    simpa using not_leads_brackets hends hphrase ht hy
  · refine Misses.cons (hp.misses_mark (by decide) (by decide)) ?_
    exact Misses.cons (hp.misses_mark (by decide) (by decide)) (hp.misses_phrase hends ht hy hmore)

/-- The name of an annotation is missed, as long as its at sign is. -/
theorem FreeOnly.misses_name {name : List Char} (hp : FreeOnly p)
    (hname : ∀ ch ∈ name, Text.isWord ch = true)
    (hat : ∀ before rest, p ⟨before, '@' :: (name ++ (more ++ rest))⟩ = [])
    (hmore : Misses p more) :
    Misses p ('@' :: (name ++ more)) := by
  refine misses_append (a := '@' :: name) ?_ hmore
  intro t s hsplit hs before rest
  cases t with
  | nil =>
    obtain rfl : '@' :: name = s := hsplit
    exact hat before rest
  | cons x t =>
    obtain ⟨rfl, hname'⟩ := List.cons.inj hsplit
    by_contra hne
    have hnot : ∀ r, s ++ (more ++ rest) ≠ '@' :: r := by
      refine ne_at_of_phrase (fun ch hch => isPhrase_of_isWord (hname ch ?_)) hs _
      simp [hname', hch]
    have hfree := hp _ hne hnot
    -- the character before the place is the at sign or a part of the name
    rcases List.eq_nil_or_concat t with rfl | ⟨t', z, rfl⟩
    · exact (hfree '@' (by simp)).2.1 rfl
    · have hz := (hfree z (by simp)).1
      rw [hname z (by simp [hname'])] at hz
      simp at hz

end Missed

end ClassAtlas.Source
