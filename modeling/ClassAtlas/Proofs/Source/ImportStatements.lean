import ClassAtlas.Proofs.Pattern.Locality
import ClassAtlas.Proofs.Source.Keywords
import ClassAtlas.Source.Unit

/-! Imports of single types, as they stand in a source, are exactly those that are read. They are
also the only way for a primitive name to become a dependency: every other rule leaves such names
out. -/

namespace ClassAtlas.Text

theorem startsWith_ofList {part : String} {s : List Char} :
    startsWith part (String.ofList s) = true ↔ part.toList <+: s := by
  rw [startsWith, String.toList_ofList, List.isPrefixOf_iff_prefix]

theorem endsWith_ofList {part : String} {s : List Char} :
    endsWith part (String.ofList s) = true ↔ part.toList <:+ s := by
  rw [endsWith, String.toList_ofList, List.isSuffixOf_iff_suffix]

end ClassAtlas.Text

namespace ClassAtlas.Source

open Pattern

/-! ### Blanks and what stands between them -/

/-- Blanks, and at least one. -/
def Gap (s : List Char) : Prop := s ≠ [] ∧ ∀ ch ∈ s, Text.isBlank ch = true

/-- Characters that are not blank, and at least one. -/
def Solid (s : List Char) : Prop := s ≠ [] ∧ ∀ ch ∈ s, Text.isBlank ch = false

instance (s : List Char) : Decidable (Solid s) := inferInstanceAs (Decidable (_ ∧ _))

/-- A name with dots. -/
def Dotted (name : List Char) : Prop := name ≠ [] ∧ ∀ ch ∈ name, isDotted ch = true

instance (name : List Char) : Decidable (Dotted name) := inferInstanceAs (Decidable (_ ∧ _))

theorem Gap.reverse {s : List Char} (h : Gap s) : Gap s.reverse :=
  ⟨List.reverse_ne_nil_iff.2 h.1, fun ch hch => h.2 ch (List.mem_reverse.1 hch)⟩

theorem Gap.stops {cls : Char → Bool} {s : List Char} (h : Gap s)
    (hcls : ∀ ch, Text.isBlank ch = true → cls ch = false) (rest : List Char) :
    Stops cls (s ++ rest) := by
  obtain ⟨hne, hblank⟩ := h
  cases s with
  | nil => exact absurd rfl hne
  | cons ch s => exact stops_cons (hcls ch (hblank ch List.mem_cons_self))

theorem Solid.reverse {s : List Char} (h : Solid s) : Solid s.reverse :=
  ⟨List.reverse_ne_nil_iff.2 h.1, fun ch hch => h.2 ch (List.mem_reverse.1 hch)⟩

theorem Dotted.solid {name : List Char} (h : Dotted name) : Solid name :=
  ⟨h.1, fun ch hch => isBlank_of_isDotted (h.2 ch hch)⟩

theorem Solid.stops {s : List Char} (h : Solid s) (rest : List Char) :
    Stops Text.isBlank (s ++ rest) := by
  obtain ⟨ch, s', rfl⟩ := List.exists_cons_of_ne_nil h.1
  exact stops_cons (h.2 ch List.mem_cons_self)

/-- Blanks before a solid text are cut off in one way only. -/
theorem gap_unique {gap gap' s s' rest rest' : List Char}
    (hgap : ∀ ch ∈ gap, Text.isBlank ch = true)
    (hgap' : ∀ ch ∈ gap', Text.isBlank ch = true) (hs : Solid s) (hs' : Solid s')
    (h : gap ++ (s ++ rest) = gap' ++ (s' ++ rest')) : s ++ rest = s' ++ rest' := by
  obtain ⟨x, t, rfl⟩ := List.exists_cons_of_ne_nil hs.1
  obtain ⟨x', t', rfl⟩ := List.exists_cons_of_ne_nil hs'.1
  rw [List.cons_append, List.cons_append] at h ⊢
  obtain ⟨_, hx, ht⟩ :=
    split_unique hgap hgap' (hs.2 x List.mem_cons_self) (hs'.2 x' List.mem_cons_self) h
  rw [hx, ht]

/-- A solid text ends at the next blank. -/
theorem solid_unique {s s' gap gap' rest rest' : List Char} (hs : Solid s) (hs' : Solid s')
    (hgap : Gap gap) (hgap' : Gap gap') (h : s ++ (gap ++ rest) = s' ++ (gap' ++ rest')) :
    s = s' ∧ gap ++ rest = gap' ++ rest' := by
  obtain ⟨x, t, rfl⟩ := List.exists_cons_of_ne_nil hgap.1
  obtain ⟨x', t', rfl⟩ := List.exists_cons_of_ne_nil hgap'.1
  rw [List.cons_append, List.cons_append] at h ⊢
  have hsolid : ∀ {s}, Solid s → ∀ ch ∈ s, (!Text.isBlank ch) = true :=
    fun hs ch hch => by simp [hs.2 ch hch]
  have hblank : ∀ {ch}, Text.isBlank ch = true → (!Text.isBlank ch) = false :=
    fun hch => by simp [hch]
  obtain ⟨hsame, hx, ht⟩ :=
    split_unique (hsolid hs) (hsolid hs') (hblank (hgap.2 x List.mem_cons_self))
    (hblank (hgap'.2 x' List.mem_cons_self)) h
  exact ⟨hsame, by rw [hx, ht]⟩

/-! ### What an import is read as -/

/-- A dotted name, maybe with the word `static` before it or a star behind it. -/
def ImportSpecifier (specifier : List Char) : Prop :=
  ∃ lead name star, (lead = [] ∨ ∃ gap, Gap gap ∧ lead = "static".toList ++ gap) ∧ Dotted name ∧
    (star = [] ∨ star = ".*".toList) ∧ specifier = lead ++ (name ++ star)

theorem solid_append_star {name star : List Char} (hname : Dotted name)
    (hstar : star = [] ∨ star = ".*".toList) : Solid (name ++ star) := by
  refine ⟨by simp [hname.1], List.forall_mem_append.2 ⟨hname.solid.2, ?_⟩⟩
  rcases hstar with rfl | rfl
  · simp
  · decide

theorem mem_importSpecifier {c : Cursor} {r : Unit × Cursor} (h : r ∈ importSpecifier c) :
    ∃ specifier, c.Reads specifier r.2 ∧ ImportSpecifier specifier := by
  unfold importSpecifier at h
  obtain ⟨q₁, h₁, h⟩ := mem_bind.1 h
  obtain ⟨q₂, h₂, h⟩ := mem_bind.1 h
  obtain ⟨q, hq, h₂⟩ := mem_bind.1 h₂
  obtain ⟨ch, hch, hfirst⟩ := mem_one hq
  obtain ⟨name, hname, hdotted⟩ := mem_many h₂
  obtain ⟨lead, hlead, hread⟩ :
      ∃ lead, (lead = [] ∨ ∃ gap, Gap gap ∧ lead = "static".toList ++ gap) ∧ c.Reads lead q₁.2 := by
    rcases mem_maybe.1 h₁ with h₁ | rfl
    · obtain ⟨q', hq', h₁⟩ := mem_bind.1 h₁
      obtain ⟨gap, hne, hgap, hblank, _⟩ := mem_run1 h₁
      exact ⟨_, .inr ⟨gap, ⟨hne, hblank⟩, rfl⟩, (mem_lit hq').trans hgap⟩
    · exact ⟨[], .inl rfl, .refl c⟩
  obtain ⟨star, hstar, hend⟩ : ∃ star, (star = [] ∨ star = ".*".toList) ∧ q₂.2.Reads star r.2 := by
    rcases mem_maybe.1 h with h | rfl
    · exact ⟨_, .inr rfl, mem_lit h⟩
    · exact ⟨[], .inl rfl, .refl _⟩
  refine ⟨_, hread.trans ((hfirst.trans hname).trans hend), lead, ch :: name, star, hlead,
    ⟨by simp, ?_⟩, hstar, rfl⟩
  exact List.forall_mem_cons.2 ⟨hch, hdotted⟩

theorem mem_importPattern {c : Cursor} {r : Excerpt × Cursor} (h : r ∈ importPattern c) :
    ∃ gap gap', Gap gap ∧ (∀ ch ∈ gap', Text.isBlank ch = true) ∧ ImportSpecifier r.1.chars ∧
      c.Reads ("import".toList ++ (gap ++ (r.1.chars ++ (gap' ++ [';'])))) r.2 := by
  unfold importPattern at h
  obtain ⟨q₁, h₁, h⟩ := mem_bind.1 h
  obtain ⟨q₂, h₂, h⟩ := mem_bind.1 h
  obtain ⟨q₃, h₃, h⟩ := mem_bind.1 h
  obtain ⟨q₄, h₄, h⟩ := mem_bind.1 h
  obtain ⟨q₅, h₅, h⟩ := mem_bind.1 h
  obtain ⟨q₆, h₆, h⟩ := mem_bind.1 h
  obtain rfl := mem_pure.1 h
  obtain ⟨_, rfl⟩ := mem_require.1 h₁
  obtain ⟨gap, hne, hgap, hblank, _⟩ := mem_run1 h₃
  obtain ⟨hspecifier, hexcerpt⟩ := mem_captured.1 h₄
  obtain ⟨specifier, hread, hshape⟩ := mem_importSpecifier hspecifier
  obtain ⟨gap', hgap', hblank', _⟩ := mem_run h₅
  have hchars : q₄.1.chars = specifier := by rw [hexcerpt, Excerpt.chars_of_reads hread]
  rw [hchars]
  refine ⟨gap, gap', ⟨hne, hblank⟩, hblank', hshape, ?_⟩
  exact (mem_lit h₂).trans (hgap.trans (hread.trans (hgap'.trans (mem_lit h₆))))

theorem importPattern_progress : importPattern.Progress := by
  intro c r hr
  obtain ⟨gap, gap', _, _, _, hread⟩ := mem_importPattern hr
  exact ⟨_, by simp, hread⟩

/-! ### Imports in a source -/

/-- Behind `before` the source imports a single type: the keyword, which is a word of its own, then
the name and a semicolon. -/
structure ImportAt (content before name rest : List Char) : Prop where
  fresh : startsWord before.reverse = false
  dotted : Dotted name
  written : ∃ gap gap', Gap gap ∧ (∀ ch ∈ gap', Text.isBlank ch = true) ∧
    content = before ++ ("import".toList ++ (gap ++ (name ++ (gap' ++ ';' :: rest))))

/-- The pattern reads an import where it stands. -/
theorem importPattern_ne_nil {before name gap gap' rest : List Char}
    (hb : startsWord before = false)
    (hname : Dotted name) (hgap : Gap gap) (hgap' : ∀ ch ∈ gap', Text.isBlank ch = true) :
    importPattern ⟨before, "import".toList ++ (gap ++ (name ++ (gap' ++ ';' :: rest)))⟩ ≠ [] := by
  have hstops : Stops isDotted (gap' ++ ';' :: rest) := by
    cases gap' with
    | nil => exact stops_cons (by decide)
    | cons x gap' =>
      refine stops_cons ?_
      by_contra hx
      have hblank := isBlank_of_isDotted (by simpa using hx)
      rw [hgap' x List.mem_cons_self] at hblank
      exact absurd hblank (by decide)
  let opened := gap.reverse ++ ("import".toList.reverse ++ before)
  let closed := name.reverse ++ opened
  have hspecifier :
      ((⟨⟨opened, name ++ (gap' ++ ';' :: rest)⟩, ⟨closed, gap' ++ ';' :: rest⟩⟩ : Excerpt),
      (⟨closed, gap' ++ ';' :: rest⟩ : Cursor)) ∈
        captured importSpecifier ⟨opened, name ++ (gap' ++ ';' :: rest)⟩ := by
    refine mem_captured.2 ⟨mem_bind_of_mem (mem_maybe.2 (.inr rfl)) ?_, rfl⟩
    exact mem_bind_of_mem (prefers_many1 hname.1 hname.2 hstops).mem (mem_maybe.2 (.inr rfl))
  refine List.ne_nil_of_mem (a :=
    (⟨⟨opened, name ++ (gap' ++ ';' :: rest)⟩, ⟨closed, gap' ++ ';' :: rest⟩⟩,
    ⟨";".toList.reverse ++ (gap'.reverse ++ closed), rest⟩)) ?_
  refine mem_bind_of_mem (Prefers.of_eq (boundary_eq_single hb rfl)).mem ?_
  refine mem_bind_of_mem (Prefers.of_eq (lit_append "import" _ _)).mem ?_
  refine mem_bind_of_mem (Prefers.of_eq (run1_append hgap.1 hgap.2 (hname.solid.stops _))).mem ?_
  refine mem_bind_of_mem hspecifier ?_
  refine mem_bind_of_mem (Prefers.of_eq (run_append hgap' (stops_cons (by decide)))).mem ?_
  exact mem_bind_of_mem (Prefers.of_eq (lit_append ";" _ rest)).mem (mem_pure.2 rfl)

/-- The last solid text between blanks, and what stands before it, read backwards. -/
theorem back_unique {more more' gap gap' s s' tail tail' : List Char} (hgap : Gap gap)
    (hgap' : Gap gap') (hs : Solid s) (hs' : Solid s') (htail : ∀ ch ∈ tail, Text.isBlank ch = true)
    (htail' : ∀ ch ∈ tail', Text.isBlank ch = true)
    (h : more ++ (gap ++ (s ++ tail)) = more' ++ (gap' ++ (s' ++ tail'))) :
    s = s' ∧ gap.reverse ++ more.reverse = gap'.reverse ++ more'.reverse := by
  have hback := congrArg List.reverse h
  simp only [List.reverse_append, List.append_assoc] at hback
  have hcut := gap_unique (fun ch hch => htail ch (List.mem_reverse.1 hch))
    (fun ch hch => htail' ch (List.mem_reverse.1 hch)) hs.reverse hs'.reverse hback
  obtain ⟨hsame, hrest⟩ := solid_unique hs.reverse hs'.reverse hgap.reverse hgap'.reverse hcut
  exact ⟨List.reverse_inj.1 hsame, hrest⟩

/-- An import that ends like the import of a single type has the same specifier: before the name
stands the keyword, where a static import has another word. -/
theorem specifier_unique {lead gap₁ gap₁' gap₂ gap₂' specifier name : List Char}
    (hspecifier : ImportSpecifier specifier) (hgap₁ : Gap gap₁)
    (hgap₁' : ∀ ch ∈ gap₁', Text.isBlank ch = true) (hname : Dotted name) (hgap₂ : Gap gap₂)
    (hgap₂' : ∀ ch ∈ gap₂', Text.isBlank ch = true)
    (h : "import".toList ++ (gap₁ ++ (specifier ++ gap₁')) =
      lead ++ ("import".toList ++ (gap₂ ++ (name ++ gap₂')))) : specifier = name := by
  obtain ⟨start, own, star, hstart, hown, hstar, rfl⟩ := hspecifier
  have hsolid := solid_append_star hown hstar
  rw [← List.append_assoc lead] at h
  rcases hstart with rfl | ⟨gap, hgap, rfl⟩
  · rw [List.nil_append] at h ⊢
    exact (back_unique hgap₁ hgap₂ hsolid hname.solid hgap₁' hgap₂' h).1
  · have hmore :
        ("import".toList ++ (gap₁ ++ "static".toList)) ++ (gap ++ ((own ++ star) ++ gap₁')) =
        (lead ++ "import".toList) ++ (gap₂ ++ (name ++ gap₂')) := by
      simpa only [List.append_assoc] using h
    obtain ⟨_, hwords⟩ := back_unique hgap hgap₂ hsolid hname.solid hgap₁' hgap₂' hmore
    simp only [List.reverse_append, List.append_assoc] at hwords
    have hstatic : Solid "static".toList.reverse := by decide
    have himport : Solid "import".toList.reverse := by decide
    have hsame := gap_unique hgap.reverse.2 hgap₂.reverse.2 hstatic himport hwords
    exact absurd (List.cons.inj hsame).1 (by decide)

theorem semicolon_not_mem_blanks {gap : List Char} (h : ∀ ch ∈ gap, Text.isBlank ch = true) :
    ';' ∉ gap :=
  fun hmem => absurd (h _ hmem) (by decide)

theorem Dotted.not_mem {name : List Char} (h : Dotted name) {ch : Char}
    (hch : isDotted ch = false) : ch ∉ name := by
  intro hmem
  rw [h.2 ch hmem] at hch
  exact absurd hch (by decide)

theorem ImportSpecifier.semicolon_not_mem {specifier : List Char} (h : ImportSpecifier specifier) :
    ';' ∉ specifier := by
  obtain ⟨lead, name, star, hlead, hname, hstar, rfl⟩ := h
  simp only [List.mem_append, not_or]
  refine ⟨?_, hname.not_mem (by decide), ?_⟩
  · rcases hlead with rfl | ⟨gap, hgap, rfl⟩
    · exact List.not_mem_nil
    · rw [List.mem_append, not_or]
      exact ⟨by decide, semicolon_not_mem_blanks hgap.2⟩
  · rcases hstar with rfl | rfl
    · exact List.not_mem_nil
    · decide

/-- The semicolon that ends an import is its first one. -/
theorem semicolon_not_mem_import {gap specifier gap' : List Char} (hgap : Gap gap)
    (h : ';' ∉ specifier) (hgap' : ∀ ch ∈ gap', Text.isBlank ch = true) :
    ';' ∉ "import".toList ++ (gap ++ (specifier ++ gap')) := by
  simp only [List.mem_append, not_or]
  exact ⟨by decide, semicolon_not_mem_blanks hgap.2, h, semicolon_not_mem_blanks hgap'⟩

/-- A match that covers the place of an import is that import, since both end at the next
semicolon. -/
theorem ImportAt.specifier_eq {content before name rest : List Char}
    (h : ImportAt content before name rest)
    {m : Match Excerpt} (hm : m ∈ importPattern.matchesIn content)
    (hle : m.start.offset ≤ before.length)
    (hlt : before.length < m.stop.offset) : m.value.chars = name := by
  obtain ⟨gap, gap', hgap, hgap', hcontent⟩ := h.written
  obtain ⟨htext, hmem⟩ := mem_matchesIn importPattern_progress hm
  obtain ⟨gap₁, gap₁', hgap₁, hgap₁', hspecifier, hread⟩ := mem_importPattern hmem
  let place : Cursor := ⟨before.reverse, "import".toList ++ (gap ++ (name ++ gap')) ++ ';' :: rest⟩
  have hplace : place.text = content := by
    rw [hcontent]
    simp [place, Cursor.text]
  have hoffset : place.offset = before.length := List.length_reverse
  -- the match goes on to the place of the import and from there to its own end
  obtain ⟨lead, hlead⟩ := Cursor.reads_of_offset_le (htext.trans hplace.symm) (hoffset ▸ hle)
  obtain ⟨tail, htail⟩ : ∃ tail, place.Reads tail m.stop :=
    Cursor.reads_of_offset_le (hplace.trans (hread.text_eq.trans htext).symm) (hoffset ▸ hlt.le)
  have hall : "import".toList ++ (gap₁ ++ (m.value.chars ++ gap₁')) ++ [';'] = lead ++ tail := by
    refine (List.append_left_inj m.stop.after).1 ?_
    rw [← (hlead.trans htail).after_eq, hread.after_eq]
    simp
  rcases List.eq_nil_or_concat tail with rfl | ⟨own, x, rfl⟩
  · have hstop : m.stop.offset = place.offset := htail.offset_eq
    omega
  · rw [List.concat_eq_append, ← List.append_assoc lead] at hall
    obtain ⟨hlead, hx⟩ := List.append_inj' hall rfl
    obtain rfl : ';' = x := List.head_eq_of_cons_eq hx
    have hends : own ++ ';' :: m.stop.after =
        "import".toList ++ (gap ++ (name ++ gap')) ++ ';' :: rest := by
      have hafter : place.after = _ := htail.after_eq
      simpa [place] using hafter.symm
    have hown : ';' ∉ own := by
      intro hmem
      apply semicolon_not_mem_import hgap₁ hspecifier.semicolon_not_mem hgap₁'
      rw [hlead]
      exact List.mem_append_right _ hmem
    have hsingle := semicolon_not_mem_import hgap (h.dotted.not_mem (by decide)) hgap'
    obtain ⟨rfl, _, _⟩ := split_unique (bne_of_not_mem hown) (bne_of_not_mem hsingle) (by decide)
      (by decide) hends
    exact specifier_unique hspecifier hgap₁ hgap₁' h.dotted hgap hgap' hlead

theorem replace_solid {s : List Char} (h : Solid s) : blanks1.replace [' '] s = s :=
  (blanks1_misses h.2).replace _

/-- The blanks behind the word `static` are written as one space. -/
theorem replace_static {gap s : List Char} (hgap : Gap gap) (hs : Solid s) :
    "static ".toList <+: blanks1.replace [' '] ("static".toList ++ gap ++ s) := by
  have hword : Misses blanks1 "static".toList := blanks1_misses (by decide)
  have hread : blanks1 ⟨"static".toList.reverse ++ [], gap ++ (s ++ [])⟩ = _ :=
    run1_append hgap.1 hgap.2 (hs.stops [])
  have hspace := (Prefers.of_eq hread).replaceFrom gap hgap.1 rfl [' ']
  rw [List.append_nil s] at hspace
  rw [replace, List.append_assoc, hword.replaceFrom, hspace, ← List.append_assoc]
  exact List.prefix_append _ _

/-- The imports of single types that are read are those that stand in the source. -/
theorem mem_importNames_single {content name : List Char} :
    (String.ofList name ∈ importNames content ∧
        Text.startsWith "static " (String.ofList name) = false ∧
        Text.endsWith ".*" (String.ofList name) = false) ↔
      ∃ before rest, ImportAt content before name rest := by
  rw [← Bool.not_eq_true, ← Bool.not_eq_true, Text.startsWith_ofList, Text.endsWith_ofList]
  constructor
  · rintro ⟨hname, hstatic, hdemand⟩
    obtain ⟨m, hm, hread⟩ := List.mem_map.1 hname
    obtain rfl : blanks1.replace [' '] m.value.chars = name := String.ofList_injective hread
    obtain ⟨htext, hmem⟩ := mem_matchesIn importPattern_progress hm
    obtain ⟨gap, gap', hgap, hgap', ⟨lead, own, star, hlead, hown, hstar, hchars⟩, hread⟩ :=
      mem_importPattern hmem
    have hsolid := solid_append_star hown hstar
    have hfresh := (importPattern_wordsOnly m.start (List.ne_nil_of_mem hmem)).1
    rw [hchars] at hstatic hdemand ⊢
    rcases hlead with rfl | ⟨gap'', hgap'', rfl⟩
    · rw [List.nil_append, replace_solid hsolid] at hdemand ⊢
      rcases hstar with rfl | rfl
      · refine ⟨m.start.before.reverse, m.stop.after, by rwa [List.reverse_reverse], ?_, gap,
          gap', hgap, hgap', ?_⟩
        · rwa [List.append_nil]
        · rw [← htext, Cursor.text, hread.after_eq, hchars]
          simp
      · exact absurd (List.suffix_append _ _) hdemand
    · exact absurd (replace_static hgap'' hsolid) hstatic
  · rintro ⟨before, rest, hat⟩
    obtain ⟨gap, gap', hgap, hgap', hcontent⟩ := hat.written
    obtain ⟨m, hm, hle, hlt⟩ := exists_covering importPattern_progress
      (importPattern_ne_nil hat.fresh hat.dotted hgap hgap')
    rw [List.reverse_reverse, ← hcontent] at hm
    rw [List.length_reverse] at hle hlt
    have hspace : ' ' ∉ name := hat.dotted.not_mem (by decide)
    have hstar : '*' ∉ name := hat.dotted.not_mem (by decide)
    refine ⟨List.mem_map.2 ⟨m, hm, ?_⟩, fun hpre => ?_, fun hsuf => ?_⟩
    · rw [hat.specifier_eq hm hle hlt, replace_solid hat.dotted.solid]
    · exact hspace (hpre.subset (by decide))
    · exact hstar (hsuf.subset (by decide))

/-! ### Primitive names -/

/-- What may stand before the last part of a dotted name. -/
def Qualifier (qualifier : List Char) : Prop := qualifier = [] ∨ ∃ outer, qualifier = outer ++ ['.']

/-- What follows the last dot is the last part. -/
theorem afterLast_eq_iff {name specifier : List Char} (hname : '.' ∉ name) :
    Text.afterLast '.' (String.ofList specifier) = String.ofList name ↔
      ∃ qualifier, Qualifier qualifier ∧ specifier = qualifier ++ name := by
  rw [Text.afterLast, String.toList_ofList, String.ofList_inj]
  constructor
  · intro h
    refine ⟨(specifier.reverse.dropWhile (· != '.')).reverse, ?_, ?_⟩
    · cases hrest : specifier.reverse.dropWhile (· != '.') with
      | nil => exact .inl rfl
      | cons ch outer =>
        have hstops := stops_dropWhile (· != '.') specifier.reverse
        rw [hrest] at hstops
        obtain rfl : ch = '.' := by simpa using hstops ch rfl
        exact .inr ⟨outer.reverse, List.reverse_cons⟩
    · rw [← h, ← List.reverse_append, List.takeWhile_append_dropWhile, List.reverse_reverse]
  · rintro ⟨qualifier, hqualifier, rfl⟩
    have hpart : ∀ ch ∈ name.reverse, (ch != '.') = true :=
      bne_of_not_mem fun hmem => hname (List.mem_reverse.1 hmem)
    rw [List.reverse_append, List.takeWhile_append_of_pos hpart]
    rcases hqualifier with rfl | ⟨outer, rfl⟩
    · simp
    · simp

theorem not_mem_primitiveTypes_of_mem_typeNames {name : String} {type : List Char}
    (h : name ∈ typeNames type) : name ∉ primitiveTypes := by
  obtain ⟨_, hother⟩ := List.mem_filter.1 h
  simpa using hother

theorem not_mem_primitiveTypes_of_mem_injectedTypes {name : String} {content : List Char}
    (h : name ∈ injectedTypes content) : name ∉ primitiveTypes := by
  obtain ⟨_, hother⟩ := List.mem_filter.1 h
  simpa using hother

/-- Only the imports can add a primitive name. -/
theorem exists_import_of_mem_dependencies {name : String} (hname : name ∈ primitiveTypes)
    {content : List Char} {imports : List String} {fields : List Field} {methods : List Method}
    (h : name ∈ dependencies content imports fields methods) :
    ∃ specifier ∈ imports, name ∈ importedNames specifier := by
  have hmarkers : ∀ marker ∈ frameworkMarkers, marker ∉ primitiveTypes := by decide
  unfold dependencies at h
  rw [NameSet.mem_ofList] at h
  simp only [List.mem_append, List.mem_flatMap] at h
  rcases h with (((h | h) | ⟨f, _, h⟩) | ⟨m, _, t, _, h⟩) | h
  · exact absurd hname (hmarkers name (List.mem_filter.1 h).1)
  · exact absurd hname (not_mem_primitiveTypes_of_mem_injectedTypes h)
  · exact absurd hname (not_mem_primitiveTypes_of_mem_typeNames h)
  · exact absurd hname (not_mem_primitiveTypes_of_mem_typeNames h)
  · exact h

/-- An import of a single type names it by its last part. -/
theorem mem_importedNames {name specifier : List Char} (hname : '.' ∉ name) :
    String.ofList name ∈ importedNames (String.ofList specifier) ↔
      Text.startsWith "static " (String.ofList specifier) = false ∧
      Text.endsWith ".*" (String.ofList specifier) = false ∧
      ∃ qualifier, Qualifier qualifier ∧ specifier = qualifier ++ name := by
  rw [← afterLast_eq_iff hname]
  unfold importedNames
  split
  · next hskip =>
    rcases Bool.or_eq_true_iff.1 hskip with h | h
    · simp [h]
    · simp [h]
  · next hsingle =>
    obtain ⟨hstatic, hdemand⟩ := Bool.or_eq_false_iff.1 (Bool.not_eq_true _ ▸ hsingle)
    have hwhole : String.ofList name = String.ofList specifier →
        Text.afterLast '.' (String.ofList specifier) = String.ofList name := by
      intro heq
      exact (afterLast_eq_iff hname).2 ⟨[], .inl rfl, (String.ofList_inj.1 heq).symm⟩
    rw [List.mem_cons, List.mem_singleton]
    constructor
    · rintro (heq | heq)
      · exact ⟨hstatic, hdemand, hwhole heq⟩
      · exact ⟨hstatic, hdemand, heq.symm⟩
    · rintro ⟨_, _, heq⟩
      exact .inr heq.symm

/-- The imports name a type exactly if an import of a single type with that last part stands in the
source. -/
theorem exists_importedName_iff {content name : List Char} (hname : '.' ∉ name) :
    (∃ specifier ∈ importNames content, String.ofList name ∈ importedNames specifier) ↔
      ∃ before qualifier rest, Qualifier qualifier ∧
        ImportAt content before (qualifier ++ name) rest := by
  constructor
  · rintro ⟨specifier, hread, hin⟩
    rw [← String.ofList_toList (s := specifier)] at hread hin
    obtain ⟨hstatic, hdemand, qualifier, hqualifier, heq⟩ := (mem_importedNames hname).1 hin
    obtain ⟨before, rest, hat⟩ := mem_importNames_single.1 ⟨hread, hstatic, hdemand⟩
    exact ⟨before, qualifier, rest, hqualifier, heq ▸ hat⟩
  · rintro ⟨before, qualifier, rest, hqualifier, hat⟩
    obtain ⟨hread, hstatic, hdemand⟩ := mem_importNames_single.2 ⟨before, rest, hat⟩
    exact ⟨_, hread, (mem_importedNames hname).2 ⟨hstatic, hdemand, qualifier, hqualifier, rfl⟩⟩

/-- A primitive name is a dependency of a class exactly if its source has an import of a single type
with that name as its last part. -/
theorem primitive_mem_dependencies_iff {settings : Settings} {path : String} {content : List Char}
    {c : JavaClass} (h : readClass? settings path content = some c) {name : String}
    (hname : name ∈ primitiveTypes) :
    name ∈ c.dependencies ↔ ∃ before qualifier rest, Qualifier qualifier ∧
      ImportAt content before (qualifier ++ name.toList) rest := by
  have hplain : ∀ name ∈ primitiveTypes, '.' ∉ name.toList := by decide
  rw [← exists_importedName_iff (hplain name hname), String.ofList_toList]
  obtain ⟨header, _, rfl⟩ := Option.map_eq_some_iff.1 h
  constructor
  · exact exists_import_of_mem_dependencies hname
  · intro hin
    exact NameSet.mem_ofList.2 (List.mem_append_right _ (List.mem_flatMap.2 hin))

/-- The type of the field is left out, and the imported type is not. -/
theorem primitive_mem_dependencies_iff_long :
    let content := "import  java.lang.Long ;\nclass N \x7b\n    Integer n;\n\x7d".toList
    ∃ c, readClass? Settings.default "N.java" content = some c ∧ "Long" ∈ c.dependencies ∧
      ¬∃ before qualifier rest, Qualifier qualifier ∧
        ImportAt content before (qualifier ++ "Integer".toList) rest := by
  intro content
  have hnames : (readClass? Settings.default "N.java" content).map (·.dependencies.toList) =
      some ["Long", "java.lang.Long"] := by decide +kernel
  obtain ⟨c, hc, hlist⟩ := Option.map_eq_some_iff.1 hnames
  refine ⟨c, hc, (primitive_mem_dependencies_iff hc (by decide)).2 ?_, fun himport => ?_⟩
  · refine ⟨[], "java.lang.".toList, "\nclass N \x7b\n    Integer n;\n\x7d".toList,
      .inr ⟨"java.lang".toList, by decide⟩, rfl, by decide, [' ', ' '], [' '],
      ⟨by decide, by decide⟩,
      by decide, by decide⟩
  · have hmem : "Integer" ∈ c.dependencies :=
      (primitive_mem_dependencies_iff hc (by decide)).2 himport
    change "Integer" ∈ c.dependencies.toList at hmem
    rw [hlist] at hmem
    exact absurd hmem (by decide)

/-- An import makes a primitive name a dependency. -/
theorem dependencies_with_primitive_name :
    ¬∀ settings path content c, readClass? settings path content = some c →
      ∀ name ∈ c.dependencies, name ∉ primitiveTypes := by
  intro hnone
  have hnames : (readClass? Settings.default "N.java"
      "import java.lang.Integer;\nclass N \x7b\x7d".toList).map
      (·.dependencies.toList) = some ["Integer", "java.lang.Integer"] := by decide +kernel
  obtain ⟨c, hc, hlist⟩ := Option.map_eq_some_iff.1 hnames
  have hmem : "Integer" ∈ c.dependencies.toList := by
    rw [hlist]
    decide
  exact hnone _ _ _ c hc "Integer" hmem (by decide)

end ClassAtlas.Source
