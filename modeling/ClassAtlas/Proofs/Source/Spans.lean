import ClassAtlas.Proofs.Source.Shape
import ClassAtlas.Proofs.StableSort
import ClassAtlas.Source.Unit

/-! Where methods stand in a source. A block's end is found by counting braces, and two counts that
start at different braces never cross: hence the bodies of methods lie apart, or one inside the
other, or both run to the end of the source. -/

namespace ClassAtlas.Source

open Pattern

/-! ### Counting braces -/

theorem blockEndFrom_eq_some {depth : Int} {position stop : Nat} {text : List Char}
    (h : blockEndFrom depth position text = some stop) :
    position ≤ stop ∧ stop < position + text.length ∧ text[stop - position]? = some '}' := by
  induction text generalizing depth position with
  | nil => simp [blockEndFrom] at h
  | cons c rest ih =>
    have later : ∀ d, blockEndFrom d (position + 1) rest = some stop →
        position ≤ stop ∧ stop < position + (c :: rest).length ∧
          (c :: rest)[stop - position]? = some '}' := by
      intro d hd
      obtain ⟨hle, hlt, hget⟩ := ih hd
      refine ⟨by omega, by simp only [List.length_cons]; omega, ?_⟩
      have hsub : stop - position = (stop - (position + 1)) + 1 := by omega
      rw [hsub, List.getElem?_cons_succ, hget]
    unfold blockEndFrom at h
    split at h
    · exact later _ h
    · split at h
      · next hc =>
        split at h
        · obtain rfl := Option.some.inj h
          simp [eq_of_beq hc]
        · exact later _ h
      · exact later _ h

/-- A count that starts deeper ends later, if it ends at all. -/
theorem blockEndFrom_deeper {depth extra : Int} {position stop : Nat} {text : List Char}
    (hd : 1 ≤ depth) (he : 1 ≤ extra)
    (h : blockEndFrom (depth + extra) position text = some stop) :
    ∃ stop', stop' < stop ∧ blockEndFrom depth position text = some stop' := by
  induction text generalizing depth position with
  | nil => simp [blockEndFrom] at h
  | cons c rest ih =>
    unfold blockEndFrom at h ⊢
    split
    · next hc =>
      rw [if_pos hc, Int.add_right_comm] at h
      exact ih (by omega) h
    · next hc =>
      rw [if_neg hc] at h
      split
      · next hc' =>
        have hne : ¬(depth + extra - 1 == 0) = true := by
          rw [beq_iff_eq]
          omega
        rw [if_pos hc', if_neg hne] at h
        split
        · exact ⟨position, by have := (blockEndFrom_eq_some h).1; omega, rfl⟩
        · next hz =>
          rw [beq_iff_eq] at hz
          have hsub : depth + extra - 1 = depth - 1 + extra := by omega
          rw [hsub] at h
          exact ih (by omega) h
      · next hc' =>
        rw [if_neg hc'] at h
        exact ih hd h

/-- A count either ends inside the first part of a text or goes on behind it, still inside the
block. -/
theorem blockEndFrom_append {depth : Int} (hd : 1 ≤ depth) (position : Nat)
    (first rest : List Char) :
    (∃ stop, stop < position + first.length ∧
      blockEndFrom depth position (first ++ rest) = some stop) ∨
    ∃ depth', 1 ≤ depth' ∧ blockEndFrom depth position (first ++ rest) =
      blockEndFrom depth' (position + first.length) rest := by
  induction first generalizing depth position with
  | nil => exact .inr ⟨depth, hd, rfl⟩
  | cons c first ih =>
    have step : ∀ d : Int, 1 ≤ d →
        blockEndFrom depth position (c :: first ++ rest) =
          blockEndFrom d (position + 1) (first ++ rest) →
        (∃ stop, stop < position + (c :: first).length ∧
          blockEndFrom depth position (c :: first ++ rest) = some stop) ∨
        ∃ depth', 1 ≤ depth' ∧ blockEndFrom depth position (c :: first ++ rest) =
          blockEndFrom depth' (position + (c :: first).length) rest := by
      intro d hd' heq
      have hlen : position + 1 + first.length = position + (c :: first).length := by
        simp only [List.length_cons]
        omega
      rw [heq, ← hlen]
      exact ih hd' (position + 1)
    by_cases hopen : (c == '{') = true
    · exact step (depth + 1) (by omega) (by rw [List.cons_append, blockEndFrom, if_pos hopen])
    · by_cases hclose : (c == '}') = true
      · by_cases hlast : (depth - 1 == 0) = true
        · refine .inl ⟨position, by simp, ?_⟩
          rw [List.cons_append, blockEndFrom, if_neg hopen, if_pos hclose, if_pos hlast]
        · have hdeep : 1 ≤ depth - 1 := by
            rw [beq_iff_eq] at hlast
            omega
          refine step (depth - 1) hdeep ?_
          rw [List.cons_append, blockEndFrom, if_neg hopen, if_pos hclose, if_neg hlast]
      · refine step depth hd ?_
        rw [List.cons_append, blockEndFrom, if_neg hopen, if_neg hclose]

/-! ### Blocks -/

/-- A brace that opens a block stands right behind the place. -/
def Opens (c : Cursor) : Prop := ∃ rest, c.after = '{' :: rest

theorem blockEnd_of_opens {c : Cursor} {rest : List Char} (h : c.after = '{' :: rest) :
    blockEnd c = (blockEndFrom 1 (c.offset + 1) rest).getD c.text.length := by
  have hlen : c.offset + c.after.length = c.text.length := by
    simp [Cursor.offset, Cursor.text]
  rw [blockEnd, hlen, h]
  rfl

theorem length_text_of_opens {c : Cursor} {rest : List Char} (h : c.after = '{' :: rest) :
    c.text.length = c.offset + 1 + rest.length := by
  simp only [Cursor.text, Cursor.offset, h, List.length_append, List.length_reverse,
    List.length_cons]
  omega

theorem getElem?_offset {c : Cursor} (h : Opens c) : c.text[c.offset]? = some '{' := by
  obtain ⟨rest, h⟩ := h
  simp [Cursor.text, Cursor.offset, h]

theorem blockEnd_bounds {c : Cursor} (h : Opens c) :
    c.offset < blockEnd c ∧ blockEnd c ≤ c.text.length ∧
      (blockEnd c < c.text.length → c.text[blockEnd c]? = some '}') := by
  obtain ⟨rest, h⟩ := h
  have hlen := length_text_of_opens h
  rw [blockEnd_of_opens h]
  cases hend : blockEndFrom 1 (c.offset + 1) rest with
  | none =>
    rw [Option.getD_none]
    exact ⟨by omega, le_rfl, fun hlt => absurd hlt (lt_irrefl _)⟩
  | some stop =>
    obtain ⟨hle, hlt, hget⟩ := blockEndFrom_eq_some hend
    rw [Option.getD_some]
    refine ⟨by omega, by omega, fun _ => ?_⟩
    have hsub : stop - c.offset = (stop - (c.offset + 1)) + 1 := by omega
    rw [← List.take_append_drop c.offset c.text, List.getElem?_append_right (by simp; omega),
      ← c.after_eq_drop, h, List.length_take, Nat.min_eq_left (by omega), hsub,
      List.getElem?_cons_succ, hget]

/-- Between the braces of two blocks lies a text that follows the first brace. -/
theorem exists_between {c d : Cursor} {crest drest : List Char} (ht : c.text = d.text)
    (hc : c.after = '{' :: crest) (hd : d.after = '{' :: drest) (hlt : c.offset < d.offset) :
    ∃ mid, crest = mid ++ '{' :: drest ∧ c.offset + 1 + mid.length = d.offset := by
  obtain ⟨s, hread⟩ := Cursor.reads_of_offset_le ht hlt.le
  have hafter := hread.after_eq
  have hoff := hread.offset_eq
  rw [hc, hd] at hafter
  cases s with
  | nil =>
    simp only [List.length_nil] at hoff
    omega
  | cons x mid =>
    rw [List.cons_append, List.cons.injEq] at hafter
    simp only [List.length_cons] at hoff
    exact ⟨mid, hafter.2, by omega⟩

/-- A count that starts inside a block ends before the block does, unless neither ends. -/
theorem blockEndFrom_inside {depth : Int} (hd : 1 ≤ depth) (position : Nat) (rest : List Char) :
    (blockEndFrom 1 position rest).getD (position + rest.length) <
        (blockEndFrom (1 + depth) position rest).getD (position + rest.length) ∨
      blockEndFrom 1 position rest = none ∧ blockEndFrom (1 + depth) position rest = none := by
  cases houter : blockEndFrom (1 + depth) position rest with
  | some stop =>
    obtain ⟨stop', hlt, hinner⟩ := blockEndFrom_deeper (Int.le_refl 1) hd houter
    rw [hinner]
    exact .inl hlt
  | none =>
    cases hinner : blockEndFrom 1 position rest with
    | none => exact .inr ⟨rfl, rfl⟩
    | some stop => exact .inl (blockEndFrom_eq_some hinner).2.1

/-- Of two blocks the later one lies behind the earlier one or inside it, unless neither is ever
closed. -/
theorem blockEnd_laminar {c d : Cursor} (ht : c.text = d.text) (hc : Opens c) (hd : Opens d)
    (hlt : c.offset < d.offset) :
    blockEnd c < d.offset ∨ blockEnd d < blockEnd c ∨
      blockEnd d = blockEnd c ∧ blockEnd c = c.text.length := by
  obtain ⟨crest, hcrest⟩ := hc
  obtain ⟨drest, hdrest⟩ := hd
  obtain ⟨mid, rfl, hoff⟩ := exists_between ht hcrest hdrest hlt
  rw [blockEnd_of_opens hcrest, blockEnd_of_opens hdrest, ht, length_text_of_opens hdrest]
  rcases blockEndFrom_append (Int.le_refl 1) (c.offset + 1) mid ('{' :: drest) with
    ⟨stop, hstop, hend⟩ | ⟨depth, hdepth, hend⟩
  · left
    rw [hend, Option.getD_some]
    omega
  · -- the second brace makes the first block one deeper
    have hopen : blockEndFrom depth d.offset ('{' :: drest) =
        blockEndFrom (1 + depth) (d.offset + 1) drest := by
      rw [blockEndFrom, if_pos (by decide), Int.add_comm]
    right
    rw [hend, hoff, hopen]
    rcases blockEndFrom_inside hdepth (d.offset + 1) drest with h | ⟨hinner, houter⟩
    · exact .inl h
    · rw [hinner, houter]
      exact .inr ⟨rfl, rfl⟩

/-! ### Methods and constructors -/

/-- Where a method stands: its signature comes before a brace that opens its body. The names that it
calls are those in the body. -/
structure Anchored (content : List Char) (m : LocatedMethod) (start opening : Cursor) : Prop where
  start_eq : m.start = start.offset
  body_eq : m.body = ⟨opening.offset, blockEnd opening⟩
  opening_text : opening.text = content
  start_lt : start.offset < opening.offset
  opens : Opens opening
  calls_eq : m.method.calls =
    calledNames ((opening.after.drop 1).take (blockEnd opening - (opening.offset + 1)))

theorem locateMethod_anchored {content : List Char} {start opening : Cursor}
    (ht : opening.text = content) (hlt : start.offset < opening.offset) (ho : Opens opening)
    (window : Option Int) (name returnType visibility : String) (isStatic : Bool)
    (parameters : List Char) :
    Anchored content
      (locateMethod window start opening name returnType visibility isStatic parameters)
      start opening :=
  ⟨rfl, rfl, ht, hlt, ho, rfl⟩

theorem methodOfHead?_eq_some {window : Option Int} {head : MethodHead} {m : LocatedMethod}
    (h : methodOfHead? window head = some m) :
    ∃ returnType visibility, m = locateMethod window head.start head.opening head.name.text
      returnType visibility head.isStatic head.parameters.chars := by
  unfold methodOfHead? at h
  simp only at h
  split at h
  · simp at h
  · split at h
    · exact ⟨_, _, (Option.some.inj h).symm⟩
    · exact ⟨_, _, (Option.some.inj h).symm⟩

/-- The places of a method's head: the match, the signature, the brace and the end of the match. -/
theorem offsets_of_mem_methodPattern {c : Cursor} {r : MethodHead × Cursor}
    (h : r ∈ methodPattern c) :
    c.offset ≤ r.1.start.offset ∧ r.1.start.offset < r.1.opening.offset ∧
      r.2.offset = r.1.opening.offset + 1 ∧ r.1.opening.text = c.text ∧ Opens r.1.opening := by
  obtain ⟨heading, t, hann, _, _, hread, hbrace⟩ := mem_methodPattern h
  obtain ⟨s, hs, _⟩ := within_annotationRun c _ hann
  refine ⟨hs.offset_le, ?_, hbrace.offset_eq, ?_, ⟨_, hbrace.after_eq⟩⟩
  · have hpos := List.length_pos_iff.2 heading.type_word.1
    rw [hread.offset_eq]
    simp only [Heading.chars, List.length_append]
    omega
  · rw [hread.text_eq, hs.text_eq]

theorem offsets_of_mem_constructorPattern {c : Cursor} {r : ConstructorHead × Cursor}
    (h : r ∈ constructorPattern c) :
    c.offset < r.1.opening.offset ∧ r.2.offset = r.1.opening.offset + 1 ∧
      r.1.opening.text = c.text ∧ Opens r.1.opening := by
  obtain ⟨name, t, hname, _, hread, hbrace⟩ := mem_constructorPattern h
  refine ⟨?_, hbrace.offset_eq, hread.text_eq, ⟨_, hbrace.after_eq⟩⟩
  have hpos := List.length_pos_iff.2 hname.1
  rw [hread.offset_eq, List.length_append]
  omega

theorem methodPattern_requires : methodPattern.Requires '(' := by
  intro c r hr
  obtain ⟨heading, t, hann, _, _, hread, hbrace⟩ := mem_methodPattern hr
  obtain ⟨s, hs, _⟩ := within_annotationRun c _ hann
  refine ⟨_, ?_, hs.trans (hread.trans hbrace)⟩
  simp [ParameterText.chars]

theorem constructorPattern_requires : constructorPattern.Requires '(' := by
  intro c r hr
  obtain ⟨name, t, _, _, hread, hbrace⟩ := mem_constructorPattern hr
  refine ⟨_, ?_, hread.trans hbrace⟩
  simp [ParameterText.chars]

theorem fieldPattern_requires : fieldPattern.Requires ';' := by
  intro c r hr
  obtain ⟨heading, gap, value, hann, _, _, _, _, hread⟩ := mem_fieldPattern hr
  obtain ⟨s, hs, _⟩ := within_annotationRun c _ hann
  refine ⟨_, ?_, hs.trans hread⟩
  simp

theorem progress_methodPattern : methodPattern.Progress := methodPattern_requires.progress

theorem progress_constructorPattern : constructorPattern.Progress :=
  constructorPattern_requires.progress

theorem anchored_of_mem_declaredMethods {content : List Char} {window : Option Int}
    {m : LocatedMethod} (h : m ∈ declaredMethods content window) :
    ∃ start opening, Anchored content m start opening := by
  obtain ⟨found, hfound, hm⟩ := List.mem_filterMap.1 h
  obtain ⟨htext, hmem⟩ := mem_matchesIn progress_methodPattern hfound
  obtain ⟨_, hlt, _, ht, hopen⟩ := offsets_of_mem_methodPattern hmem
  obtain ⟨_, _, rfl⟩ := methodOfHead?_eq_some hm
  exact ⟨_, _, locateMethod_anchored (ht.trans htext) hlt hopen _ _ _ _ _ _⟩

theorem pairwise_declaredMethods (content : List Char) (window : Option Int) :
    (declaredMethods content window).Pairwise fun a b => a.start < b.start := by
  unfold declaredMethods
  rw [List.pairwise_filterMap]
  refine (pairwise_matchesIn progress_methodPattern content).imp_of_mem ?_
  intro a b ha hb hab m hm n hn
  obtain ⟨_, hmema⟩ := mem_matchesIn progress_methodPattern ha
  obtain ⟨_, hmemb⟩ := mem_matchesIn progress_methodPattern hb
  obtain ⟨_, hlta, hstop, _, _⟩ := offsets_of_mem_methodPattern hmema
  obtain ⟨hleb, _, _, _, _⟩ := offsets_of_mem_methodPattern hmemb
  obtain ⟨_, _, rfl⟩ := methodOfHead?_eq_some hm
  obtain ⟨_, _, rfl⟩ := methodOfHead?_eq_some hn
  simp only [locateMethod] at *
  omega

/-- The position lies in the span, its two ends included. -/
def Span.covers (s : Span) (position : Nat) : Prop := s.start ≤ position ∧ position ≤ s.stop

/-- One step of the search for constructors: a match is passed over, or it is one that no occupied
span covers, and from then on its own extent is occupied too. -/
theorem bareConstructorsFrom_cons (window : Option Int) (className : String)
    (occupied : List Span) (m : Match ConstructorHead) (rest : List (Match ConstructorHead)) :
    bareConstructorsFrom window className occupied (m :: rest) =
        bareConstructorsFrom window className occupied rest ∨
      (∀ s ∈ occupied, ¬s.covers m.start.offset) ∧
      ∃ found : LocatedMethod, found = locateMethod window m.start m.value.opening className ""
          "package" false m.value.parameters.chars ∧
        bareConstructorsFrom window className occupied (m :: rest) =
          found :: bareConstructorsFrom window className (occupied ++ [found.extent]) rest := by
  rw [bareConstructorsFrom]
  split
  · exact .inl rfl
  · next h =>
    refine .inr ⟨?_, _, rfl, rfl⟩
    intro s hs hcovers
    simp only [Bool.or_eq_true, not_or, Bool.not_eq_true] at h
    have hany := List.any_eq_false.1 h.1.1.2 s hs
    simp_all [Span.covers]

theorem mem_bareConstructorsFrom {window : Option Int} {className : String} {k : LocatedMethod}
    {occupied : List Span} {found : List (Match ConstructorHead)}
    (h : k ∈ bareConstructorsFrom window className occupied found) :
    (∀ s ∈ occupied, ¬s.covers k.start) ∧
      ∃ m ∈ found, k = locateMethod window m.start m.value.opening className "" "package" false
        m.value.parameters.chars := by
  induction found generalizing occupied with
  | nil => simp [bareConstructorsFrom] at h
  | cons m rest ih =>
    rcases bareConstructorsFrom_cons window className occupied m rest with heq | ⟨hfree, n, hn, heq⟩
    · rw [heq] at h
      obtain ⟨hocc, m', hm', rfl⟩ := ih h
      exact ⟨hocc, m', List.mem_cons_of_mem _ hm', rfl⟩
    · rw [heq, List.mem_cons] at h
      rcases h with rfl | h
      · refine ⟨?_, m, List.mem_cons_self, hn⟩
        rw [hn]
        exact hfree
      · obtain ⟨hocc, m', hm', rfl⟩ := ih h
        refine ⟨?_, m', List.mem_cons_of_mem _ hm', rfl⟩
        intro s hs
        exact hocc s (List.mem_append_left _ hs)

/-- Each constructor starts behind the bodies of those found before it. -/
theorem pairwise_bareConstructorsFrom (window : Option Int) (className : String)
    (occupied : List Span) {found : List (Match ConstructorHead)}
    (hfound : found.Pairwise fun a b => a.start.offset ≤ b.start.offset) :
    (bareConstructorsFrom window className occupied found).Pairwise
      fun a b => a.body.stop < b.start := by
  induction found generalizing occupied with
  | nil => exact .nil
  | cons m rest ih =>
    obtain ⟨hall, hrest⟩ := List.pairwise_cons.1 hfound
    rcases bareConstructorsFrom_cons window className occupied m rest with heq | ⟨_, n, hn, heq⟩
    · rw [heq]
      exact ih _ hrest
    · rw [heq]
      refine List.pairwise_cons.2 ⟨?_, ih _ hrest⟩
      intro k hk
      obtain ⟨hocc, m', hm', rfl⟩ := mem_bareConstructorsFrom hk
      have hfree := hocc n.extent (by simp)
      have hle := hall m' hm'
      simp only [Span.covers, LocatedMethod.extent, locateMethod, hn] at hfree ⊢
      omega

theorem Anchored.start_lt_stop {content : List Char} {m : LocatedMethod} {start opening : Cursor}
    (h : Anchored content m start opening) : m.start < m.body.stop := by
  have hstop := (blockEnd_bounds h.opens).1
  have hlt := h.start_lt
  rw [h.start_eq, h.body_eq]
  exact hlt.trans hstop

theorem mem_bareConstructors {content : List Char} {window : Option Int} {className : String}
    {known : List LocatedMethod} {k : LocatedMethod}
    (h : k ∈ bareConstructors content window className known) :
    (∀ m ∈ known, ¬m.extent.covers k.start) ∧ k.method.endpoint = none ∧
      ∃ start opening, Anchored content k start opening := by
  unfold bareConstructors at h
  split at h
  · exact absurd h List.not_mem_nil
  · obtain ⟨hocc, m, hm, rfl⟩ := mem_bareConstructorsFrom h
    obtain ⟨htext, hmem⟩ := mem_matchesIn progress_constructorPattern hm
    obtain ⟨hlt, _, ht, hopen⟩ := offsets_of_mem_constructorPattern hmem
    refine ⟨fun n hn => hocc n.extent (List.mem_map_of_mem hn), rfl, _, _,
      locateMethod_anchored (ht.trans htext) hlt hopen _ _ _ _ _ _⟩

theorem pairwise_bareConstructors (content : List Char) (window : Option Int)
    (className : String) (known : List LocatedMethod) :
    (bareConstructors content window className known).Pairwise
      fun a b => a.body.stop < b.start := by
  unfold bareConstructors
  split
  · exact .nil
  · refine pairwise_bareConstructorsFrom _ _ _ ?_
    refine (pairwise_matchesIn progress_constructorPattern content).imp_of_mem ?_
    intro a b ha _ hab
    obtain ⟨_, hmem⟩ := mem_matchesIn progress_constructorPattern ha
    obtain ⟨hlt, hstop, _, _⟩ := offsets_of_mem_constructorPattern hmem
    simp only at hlt hstop
    omega

/-! ### The methods of a source -/

section Located

variable (content : List Char) (window : Option Int) (className : String)

theorem locatedMethods_eq :
    locatedMethods content window className =
      (declaredMethods content window ++
        bareConstructors content window className (declaredMethods content window)).insertionSort
          fun a b => a.start ≤ b.start :=
  sortBy_decide _

theorem locatedMethods_perm :
    (locatedMethods content window className).Perm (declaredMethods content window ++
      bareConstructors content window className (declaredMethods content window)) := by
  rw [locatedMethods_eq]
  exact List.perm_insertionSort _ _

theorem mem_locatedMethods {m : LocatedMethod} :
    m ∈ locatedMethods content window className ↔ m ∈ declaredMethods content window ∨
      m ∈ bareConstructors content window className (declaredMethods content window) := by
  rw [(locatedMethods_perm content window className).mem_iff, List.mem_append]

theorem anchored_of_mem_locatedMethods {m : LocatedMethod}
    (h : m ∈ locatedMethods content window className) :
    ∃ start opening, Anchored content m start opening := by
  rcases (mem_locatedMethods content window className).1 h with h | h
  · exact anchored_of_mem_declaredMethods h
  · exact (mem_bareConstructors h).2.2

/-- Without a parenthesis there are no methods. -/
theorem locatedMethods_eq_nil (h : '(' ∉ content) :
    locatedMethods content window className = [] := by
  have hdeclared : declaredMethods content window = [] := by
    rw [declaredMethods, methodPattern_requires.matchesIn_eq_nil h, List.filterMap_nil]
  have hbare : bareConstructors content window className [] = [] := by
    rw [bareConstructors, constructorPattern_requires.matchesIn_eq_nil h]
    split <;> rfl
  have hperm := locatedMethods_perm content window className
  rw [hdeclared, hbare] at hperm
  exact hperm.eq_nil

theorem endpoint_of_mem_locatedMethods {m : LocatedMethod}
    (h : m ∈ locatedMethods content window className) : m.method.endpoint = none := by
  rcases (mem_locatedMethods content window className).1 h with h | h
  · obtain ⟨found, _, hm⟩ := List.mem_filterMap.1 h
    obtain ⟨_, _, rfl⟩ := methodOfHead?_eq_some hm
    rfl
  · exact (mem_bareConstructors h).2.1

/-- No two methods share their place, because the declared ones are in order, each constructor
starts behind the one before it and none starts where a declared method does. -/
theorem pairwise_locatedMethods :
    (locatedMethods content window className).Pairwise fun a b => a.start < b.start := by
  have hle : (locatedMethods content window className).Pairwise fun a b => a.start ≤ b.start := by
    have htotal : Std.Total fun a b : LocatedMethod => a.start ≤ b.start :=
      ⟨fun _ _ => Nat.le_total _ _⟩
    have htrans : IsTrans LocatedMethod fun a b => a.start ≤ b.start :=
      ⟨fun _ _ _ => Nat.le_trans⟩
    rw [locatedMethods_eq]
    exact List.pairwise_insertionSort _ _
  have hne : (locatedMethods content window className).Pairwise fun a b => a.start ≠ b.start := by
    rw [(locatedMethods_perm content window className).pairwise_iff fun h => h.symm,
      List.pairwise_append]
    refine ⟨(pairwise_declaredMethods content window).imp Nat.ne_of_lt, ?_, ?_⟩
    · refine (pairwise_bareConstructors content window className _).imp_of_mem ?_
      intro a b ha _ hab
      obtain ⟨_, _, hanchor⟩ := (mem_bareConstructors ha).2.2
      exact Nat.ne_of_lt (hanchor.start_lt_stop.trans hab)
    · intro m hm k hk heq
      obtain ⟨_, _, hanchor⟩ := anchored_of_mem_declaredMethods hm
      refine (mem_bareConstructors hk).1 m hm ⟨heq.le, ?_⟩
      rw [← heq]
      exact hanchor.start_lt_stop.le
  exact (hle.and hne).imp fun h => Nat.lt_of_le_of_ne h.1 h.2

theorem laminar_of_mem_locatedMethods {m n : LocatedMethod}
    (hm : m ∈ locatedMethods content window className)
    (hn : n ∈ locatedMethods content window className) (hle : m.body.start ≤ n.body.start) :
    m.body.stop < n.body.start ∨ n.body.stop < m.body.stop ∨
      n.body.stop = m.body.stop ∧ (m.body.start < n.body.start → m.body.stop = content.length) := by
  obtain ⟨_, c, hc⟩ := anchored_of_mem_locatedMethods content window className hm
  obtain ⟨_, d, hd⟩ := anchored_of_mem_locatedMethods content window className hn
  have htext : c.text = d.text := hc.opening_text.trans hd.opening_text.symm
  rw [hc.body_eq, hd.body_eq] at *
  simp only at *
  rcases Nat.eq_or_lt_of_le hle with heq | hlt
  · -- one brace opens both bodies
    have hcd : c = d := by
      obtain ⟨s, hs⟩ := Cursor.reads_of_offset_le htext heq.le
      have hlen := hs.offset_eq
      obtain rfl : s = [] := List.eq_nil_of_length_eq_zero (by omega)
      obtain ⟨before, after⟩ := c
      obtain ⟨before', after'⟩ := d
      exact congrArg₂ Cursor.mk hs.before_eq.symm hs.after_eq
    rw [hcd]
    exact .inr (.inr ⟨rfl, fun h => absurd h (lt_irrefl _)⟩)
  · rcases blockEnd_laminar htext hc.opens hd.opens hlt with h | h | ⟨h, hend⟩
    · exact .inl h
    · exact .inr (.inl h)
    · exact .inr (.inr ⟨h, fun _ => hend.trans (congrArg List.length hc.opening_text)⟩)

/-- A constructor without modifiers starts outside the extent of every other method. -/
theorem not_covers_of_mem_bareConstructors {k m : LocatedMethod}
    (hk : k ∈ bareConstructors content window className (declaredMethods content window))
    (hm : m ∈ locatedMethods content window className) (hne : m.start ≠ k.start) :
    ¬m.extent.covers k.start := by
  rcases (mem_locatedMethods content window className).1 hm with hm | hm
  · exact (mem_bareConstructors hk).1 m hm
  · have hpair := pairwise_bareConstructors content window className
      (declaredMethods content window)
    have hforward : (bareConstructors content window className
        (declaredMethods content window)).Pairwise
        fun a b => a.start ≠ b.start → ¬a.extent.covers b.start := by
      refine hpair.imp ?_
      intro a b hab _ hcovers
      exact absurd hcovers.2 (not_le.2 hab)
    have hbackward : (bareConstructors content window className
        (declaredMethods content window)).Pairwise
        fun a b => b.start ≠ a.start → ¬b.extent.covers a.start := by
      refine hpair.imp_of_mem ?_
      intro a b ha _ hab _ hcovers
      obtain ⟨_, _, hanchor⟩ := (mem_bareConstructors ha).2.2
      exact absurd hcovers.1 (not_le.2 (hanchor.start_lt_stop.trans hab))
    exact hforward.forall_of_forall_of_flip (fun a _ h => absurd rfl h) hbackward hm hk hne

end Located

/-! ### The members of a class -/

theorem not_inside_of_mem_locatedFields {content : List Char} {bodies : List Span}
    {window : Option Int} {f : LocatedField} (h : f ∈ locatedFields content bodies window) :
    ∀ s ∈ bodies, ¬(s.start < f.start ∧ f.start < s.stop) := by
  obtain ⟨m, _, hm⟩ := List.mem_filterMap.1 h
  unfold fieldOfHead? at hm
  simp only at hm
  split at hm
  · simp at hm
  · next hcond =>
    obtain rfl := Option.some.inj hm
    intro s hs hinside
    simp only [Bool.or_eq_true, not_or, Bool.not_eq_true] at hcond
    have hany := List.any_eq_false.1 hcond.1.1.1 s hs
    simp_all

theorem map_zip_map {α β γ : Type} (g : α → β) (h : α × β → γ) (items : List α) :
    (items.zip (items.map g)).map h = items.map fun a => h (a, g a) := by
  induction items with
  | nil => rfl
  | cons a items ih => simp [ih]

/-- The members of a class are those found in its source, and each method has got its endpoint. -/
theorem members_of_readClass? {settings : Settings} {path : String} {content : List Char}
    {c : JavaClass} (h : readClass? settings path content = some c) :
    (c.methods.map fun m => { m with endpoint := none }) =
        (locatedMethods content settings.methodWindow c.name).map (·.method) ∧
      c.fields = (locatedFields content
        ((locatedMethods content settings.methodWindow c.name).map (·.body))
        settings.fieldWindow).map (·.field) := by
  obtain ⟨header, _, rfl⟩ := Option.map_eq_some_iff.1 h
  refine ⟨?_, rfl⟩
  simp only [Role.classify, List.map_map, map_zip_map]
  apply List.map_congr_left
  intro m hm
  simp only [Function.comp_apply, ← endpoint_of_mem_locatedMethods _ _ _ hm]

/-- The methods of a source come in the order of their signatures, and their bodies are blocks of
braces that lie apart, one inside the other, or end together. A constructor without modifiers
starts outside all other methods, and a field of the class starts outside all bodies. -/
theorem locatedMethods_laminar (content : List Char) (window : Option Int) (className : String) :
    let located := locatedMethods content window className
    let bare := bareConstructors content window className (declaredMethods content window)
    located.Pairwise (fun a b => a.start < b.start) ∧
    (∀ m ∈ located, content[m.body.start]? = some '{' ∧ m.body.start < m.body.stop ∧
      m.body.stop ≤ content.length ∧
      (m.body.stop < content.length → content[m.body.stop]? = some '}')) ∧
    (∀ m ∈ located, ∀ n ∈ located, m.body.start ≤ n.body.start →
      m.body.stop < n.body.start ∨ n.body.stop < m.body.stop ∨
      n.body.stop = m.body.stop ∧
        (m.body.start < n.body.start → m.body.stop = content.length)) ∧
    (∀ k ∈ bare, k ∈ located ∧ ∀ m ∈ located, m.start ≠ k.start →
      ¬(m.start ≤ k.start ∧ k.start ≤ m.body.stop)) ∧
    (∀ settings path c, readClass? settings path content = some c →
      let methods := locatedMethods content settings.methodWindow c.name
      let fields := locatedFields content (methods.map (·.body)) settings.fieldWindow
      (c.methods.map fun m => { m with endpoint := none }) = methods.map (·.method) ∧
        c.fields = fields.map (·.field) ∧
        ∀ f ∈ fields, ∀ m ∈ methods, ¬(m.body.start < f.start ∧ f.start < m.body.stop)) := by
  intro located bare
  refine ⟨pairwise_locatedMethods content window className, ?_, ?_, ?_, ?_⟩
  · intro m hm
    obtain ⟨_, opening, hanchor⟩ := anchored_of_mem_locatedMethods content window className hm
    rw [hanchor.body_eq, ← hanchor.opening_text]
    exact ⟨getElem?_offset hanchor.opens, blockEnd_bounds hanchor.opens⟩
  · intro m hm n hn hle
    exact laminar_of_mem_locatedMethods content window className hm hn hle
  · intro k hk
    refine ⟨(mem_locatedMethods content window className).2 (.inr hk), ?_⟩
    intro m hm hne
    exact not_covers_of_mem_bareConstructors content window className hk hm hne
  · intro settings path c hc methods fields
    obtain ⟨hmethods, hfields⟩ := members_of_readClass? hc
    refine ⟨hmethods, hfields, ?_⟩
    intro f hf m hm
    exact not_inside_of_mem_locatedFields hf m.body (List.mem_map_of_mem hm)

/-- A field, a constructor, and a method and a variable inside another method, which never
closes. -/
def unclosedSource : List Char :=
  "class N\x7bint f;N()\x7b\x7dint m()\x7bint i()\x7b\x7dint g;".toList

theorem locatedMethods_laminar_unclosed :
    (locatedMethods unclosedSource none "N").map (fun m => (m.start, m.body)) =
        [(14, ⟨17, 18⟩), (19, ⟨26, 42⟩), (27, ⟨34, 35⟩)] ∧
      (bareConstructors unclosedSource none "N" (declaredMethods unclosedSource none)).length = 1 ∧
      (∀ m ∈ locatedMethods unclosedSource none "N", ∀ n ∈ locatedMethods unclosedSource none "N",
        m.body.start ≤ n.body.start → m.body.stop < n.body.start ∨ n.body.stop < m.body.stop ∨
        n.body.stop = m.body.stop ∧
          (m.body.start < n.body.start → m.body.stop = unclosedSource.length)) ∧
      ∃ c, readClass? .default "N.java" unclosedSource = some c ∧ c.fields.map (·.name) = ["f"] ∧
        c.fields = (locatedFields unclosedSource ((locatedMethods unclosedSource
          Settings.default.methodWindow c.name).map (·.body)) Settings.default.fieldWindow).map
            (·.field) := by
  have hread : (readClass? .default "N.java" unclosedSource).map (·.fields.map (·.name)) =
      some ["f"] := by
    decide +kernel
  obtain ⟨c, hc, hnames⟩ := Option.map_eq_some_iff.1 hread
  obtain ⟨_, _, hlaminar, _, hmembers⟩ := locatedMethods_laminar unclosedSource none "N"
  obtain ⟨_, hfields, _⟩ := hmembers .default "N.java" c hc
  exact ⟨by decide +kernel, by decide +kernel, hlaminar, c, hc, hnames, hfields⟩

end ClassAtlas.Source
