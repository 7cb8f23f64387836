import ClassAtlas.Proofs.Pattern.Locality
import ClassAtlas.Proofs.Source.Keywords
import ClassAtlas.Proofs.Source.Spans

/-! The names that a body calls. They are described without the scan: a call is a run of word
characters that goes on as a word on neither side, blanks or none, and a parenthesis. No scan over
such calls misses one, because two of them never overlap, and a body inside another one starts
behind a brace, which neither lengthens a word nor cuts one. -/

namespace ClassAtlas.Source

open Pattern

/-! ### Words and calls -/

/-- A run of word characters that goes on as a word on neither side. -/
structure MaximalWord (pre run rest : List Char) : Prop where
  worded : Worded run
  left : ∀ ch ∈ pre.getLast?, Text.isWord ch = false
  right : ∀ ch ∈ rest.head?, Text.isWord ch = false

/-- Somewhere in the text the run is a whole word before a parenthesis, with only blanks between. -/
def CalledIn (run text : List Char) : Prop :=
  ∃ pre rest, text = pre ++ (run ++ rest) ∧ MaximalWord pre run rest ∧
    ∃ gap more, (∀ ch ∈ gap, Text.isBlank ch = true) ∧ rest = gap ++ '(' :: more

theorem startsWord_reverse_eq_false {pre : List Char} :
    startsWord pre.reverse = false ↔ ∀ ch ∈ pre.getLast?, Text.isWord ch = false := by
  rw [← List.head?_reverse]
  cases pre.reverse with
  | nil => simp [startsWord]
  | cons ch rest => simp [startsWord]

/-- Blanks and the parenthesis behind them end a word. -/
theorem isWord_of_mem_gap {gap : List Char} (hgap : ∀ ch ∈ gap, Text.isBlank ch = true) {ch : Char}
    (h : ch ∈ gap ++ ['(']) : Text.isWord ch = false := by
  rcases List.mem_append.1 h with h | h
  · exact Text.isWord_of_isBlank (hgap ch h)
  · rw [List.mem_singleton.1 h]
    decide

theorem stops_gap {gap : List Char} (hgap : ∀ ch ∈ gap, Text.isBlank ch = true) (more : List Char) :
    Stops Text.isWord (gap ++ '(' :: more) := by
  intro ch hch
  apply isWord_of_mem_gap hgap
  cases gap with
  | nil => simpa using hch.symm
  | cons x gap => simp_all

theorem word_unique {w w' rest rest' : List Char} (hw : Worded w) (hw' : Worded w')
    (hrest : Stops Text.isWord rest) (hrest' : Stops Text.isWord rest')
    (h : w ++ rest = w' ++ rest') : w = w' := by
  have hfirst := congrArg (List.takeWhile Text.isWord) h
  rwa [List.takeWhile_append_of_pos hw.2, takeWhile_of_stops hrest, List.append_nil,
    List.takeWhile_append_of_pos hw'.2, takeWhile_of_stops hrest', List.append_nil] at hfirst

/-! ### What the pattern reads -/

theorem reads_of_mem_callPattern {c : Cursor} {r : Excerpt × Cursor} (h : r ∈ callPattern c) :
    startsWord c.before = false ∧ ∃ w gap, Worded w ∧ (∀ ch ∈ gap, Text.isBlank ch = true) ∧
      c.Reads (w ++ (gap ++ ['('])) r.2 ∧ r.1.chars = w := by
  obtain ⟨_, hplace, h⟩ := mem_bind.1 h
  obtain ⟨hbound, rfl⟩ := mem_require.1 hplace
  obtain ⟨name, hname, h⟩ := mem_bind.1 h
  obtain ⟨hword, hexcerpt⟩ := mem_captured.1 hname
  obtain ⟨w, hne, hread, hw, _⟩ := mem_run1 hword
  obtain ⟨_, hgap, h⟩ := mem_bind.1 h
  obtain ⟨gap, hblanks, hgap, _⟩ := mem_run hgap
  obtain ⟨_, hparen, h⟩ := mem_bind.1 h
  rw [mem_pure.1 h]
  refine ⟨?_, w, gap, ⟨hne, hw⟩, hgap, hread.trans (hblanks.trans (mem_lit hparen)), ?_⟩
  · have hstart := Worded.startsWord ⟨hne, hw⟩ name.2.after
    rw [← hread.after_eq] at hstart
    simpa [hstart] using hbound
  · rw [hexcerpt]
    exact Excerpt.chars_of_reads hread

theorem callPattern_requires : callPattern.Requires '(' := by
  intro c r hr
  obtain ⟨_, w, gap, _, _, hread, _⟩ := reads_of_mem_callPattern hr
  exact ⟨_, by simp, hread⟩

theorem prefers_calledWord {before w gap : List Char} (hb : startsWord before = false)
    (hw : Worded w) (hgap : ∀ ch ∈ gap, Text.isBlank ch = true) (more : List Char) :
    callPattern.Prefers ⟨before, w ++ (gap ++ '(' :: more)⟩
      ⟨⟨before, w ++ (gap ++ '(' :: more)⟩, ⟨w.reverse ++ before, gap ++ '(' :: more⟩⟩
      ⟨'(' :: (gap.reverse ++ (w.reverse ++ before)), more⟩ := by
  have hword : word ⟨before, w ++ (gap ++ '(' :: more)⟩ = _ :=
    run1_append hw.1 hw.2 (stops_gap hgap more)
  have hblanks : blanks ⟨w.reverse ++ before, gap ++ '(' :: more⟩ = _ :=
    run_append hgap (stops_cons (by decide))
  refine Prefers.bind (.of_eq (boundary_eq_single hb (hw.startsWord _))) ?_
  refine Prefers.bind (Prefers.of_eq hword).captured (Prefers.bind (.of_eq hblanks) ?_)
  exact Prefers.bind (.of_eq (lit_append "(" _ more)) (prefers_pure _ _)

/-- Two calls in one text do not overlap: a whole word before a parenthesis starts where a reading
starts, or else behind it. -/
theorem start_of_covering {mid w gap tail run rest : List Char} (hw : Worded w)
    (hgap : ∀ ch ∈ gap, Text.isBlank ch = true) (hrun : Worded run)
    (hleft : ∀ ch ∈ mid.getLast?, Text.isWord ch = false)
    (htext : w ++ (gap ++ ['(']) ++ tail = mid ++ (run ++ rest))
    (hshort : mid.length < (w ++ (gap ++ ['('])).length) : mid = [] := by
  have hread : w ++ (gap ++ ['(']) <+: mid ++ (run ++ rest) := htext ▸ List.prefix_append _ _
  obtain ⟨v, hv⟩ := List.prefix_of_prefix_length_le (List.prefix_append mid _) hread hshort.le
  -- what the reading still holds behind `mid` starts like the run
  have hhead : ∃ ch ∈ v, Text.isWord ch = true := by
    rw [← hv, List.append_assoc] at htext
    have hrest := List.append_cancel_left htext
    obtain ⟨ch, hch, hword⟩ := hrun.head rest
    rw [← hrest] at hch
    cases v with
    | nil =>
      have hlen := congrArg List.length hv
      rw [List.append_nil] at hlen
      omega
    | cons x v =>
      obtain rfl : x = ch := by simpa using hch
      exact ⟨x, List.mem_cons_self, hword⟩
  obtain ⟨ch, hch, hword⟩ := hhead
  rcases List.append_eq_append_iff.1 hv with ⟨a, rfl, hv⟩ | ⟨a, rfl, hgaps⟩
  · -- the word ends with `mid`, so its last character is left of the run
    cases hlast : mid.getLast? with
    | none => exact List.getLast?_eq_none_iff.1 hlast
    | some x =>
      have hx := hw.2 x (List.mem_append_left _ (List.mem_of_getLast? hlast))
      rw [hleft x hlast] at hx
      exact absurd hx (by decide)
  · have hch := isWord_of_mem_gap hgap (hgaps ▸ List.mem_append_right _ hch)
    rw [hch] at hword
    exact absurd hword (by decide)

/-- Every call is found: the match that covers its place starts there and reads the same word. -/
theorem exists_match_of_calledIn {run text : List Char} (h : CalledIn run text) :
    ∃ m ∈ callPattern.matchesIn text, m.value.chars = run := by
  obtain ⟨pre, _, rfl, hword, gap, more, hgap, rfl⟩ := h
  have hb := startsWord_reverse_eq_false.2 hword.left
  have hreads := (prefers_calledWord hb hword.worded hgap more).mem
  obtain ⟨m, hm, hle, hlt⟩ := exists_covering callPattern_requires.progress
    (List.ne_nil_of_mem hreads)
  rw [List.reverse_reverse] at hm
  refine ⟨m, hm, ?_⟩
  obtain ⟨htext, hmem⟩ := mem_matchesIn callPattern_requires.progress hm
  obtain ⟨_, w, gap', hw, hgap', hread, hchars⟩ := reads_of_mem_callPattern hmem
  have hplace : m.start.text = (⟨pre.reverse, run ++ (gap ++ '(' :: more)⟩ : Cursor).text := by
    rw [htext, Cursor.text, List.reverse_reverse]
  obtain ⟨mid, hmid⟩ := Cursor.reads_of_offset_le hplace hle
  have hsame := hread.after_eq.symm.trans hmid.after_eq
  have hnil : mid = [] := by
    refine start_of_covering hw hgap' hword.worded ?_ hsame ?_
    · intro ch hch
      have hbefore : pre.reverse = mid.reverse ++ m.start.before := hmid.before_eq
      have hpre : pre = m.start.before.reverse ++ mid := by
        rw [← List.reverse_reverse pre, hbefore, List.reverse_append, List.reverse_reverse]
      apply hword.left
      rw [hpre, List.getLast?_append, Option.mem_def.1 hch]
      rfl
    · have hstop := hread.offset_eq
      have hoffset := hmid.offset_eq
      simp only [Cursor.offset] at hstop hoffset hlt
      omega
  rw [hnil, List.nil_append, List.append_assoc, List.append_assoc] at hsame
  exact hchars.trans (word_unique hw hword.worded (stops_gap hgap' _) (stops_gap hgap more) hsame)

theorem calledIn_of_match {text : List Char} {m : Match Excerpt}
    (h : m ∈ callPattern.matchesIn text) : CalledIn m.value.chars text := by
  obtain ⟨htext, hmem⟩ := mem_matchesIn callPattern_requires.progress h
  obtain ⟨hb, w, gap, hw, hgap, hread, hchars⟩ := reads_of_mem_callPattern hmem
  rw [← htext, hchars]
  refine ⟨m.start.before.reverse, gap ++ '(' :: m.stop.after, ?_, ⟨hw, ?_, ?_⟩, gap, _, hgap, rfl⟩
  · rw [Cursor.text, hread.after_eq]
    simp
  · rw [← startsWord_reverse_eq_false, List.reverse_reverse]
    exact hb
  · exact stops_gap hgap _

theorem mem_calledNames_iff {body : List Char} {name : String} :
    name ∈ calledNames body ↔ CalledIn name.toList body ∧ name ∉ callKeywords := by
  rw [calledNames, NameSet.mem_ofList, List.mem_filter, List.mem_map]
  constructor
  · rintro ⟨⟨m, hm, rfl⟩, hother⟩
    refine ⟨?_, by simpa using hother⟩
    rw [Excerpt.text, String.toList_ofList]
    exact calledIn_of_match hm
  · rintro ⟨hcalled, hother⟩
    obtain ⟨m, hm, hchars⟩ := exists_match_of_calledIn hcalled
    refine ⟨⟨m, hm, ?_⟩, by simpa using hother⟩
    rw [Excerpt.text, hchars, String.ofList_toList]

/-! ### Bodies inside others -/

/-- A call is one in every longer text that has no word character right before the shorter one. -/
theorem CalledIn.within {run text lead : List Char} (h : CalledIn run text)
    (hlead : ∀ ch ∈ lead.getLast?, Text.isWord ch = false) (extra : List Char) :
    CalledIn run (lead ++ (text ++ extra)) := by
  obtain ⟨pre, _, rfl, hword, gap, more, hgap, rfl⟩ := h
  refine ⟨lead ++ pre, gap ++ '(' :: (more ++ extra), by simp, ⟨hword.worded, ?_, ?_⟩, gap, _,
    hgap, rfl⟩
  · intro ch hch
    rw [List.getLast?_append] at hch
    cases hlast : pre.getLast? with
    | none =>
      rw [hlast, Option.none_or] at hch
      exact hlead ch hch
    | some x =>
      rw [hlast, Option.some_or] at hch
      exact hword.left ch (hlast.trans hch)
  · exact stops_gap hgap _

/-- A stretch of a text is cut in two at any position in it. -/
theorem extract_append (content : List Char) {a b c : Nat} (hab : a ≤ b) (hbc : b ≤ c) :
    content.extract a c = content.extract a b ++ content.extract b c := by
  have hlen : c - a = (b - a) + (c - b) := by omega
  have hdrop : a + (b - a) = b := by omega
  rw [List.extract_eq_take_drop, hlen, List.take_add, List.drop_drop, hdrop]

theorem calls_of_mem_locatedMethods {content : List Char} {window : Option Int} {className : String}
    {m : LocatedMethod} (h : m ∈ locatedMethods content window className) :
    content[m.body.start]? = some '{' ∧ m.body.start < m.body.stop ∧
      m.method.calls = calledNames (content.extract (m.body.start + 1) m.body.stop) := by
  obtain ⟨_, opening, hanchor⟩ := anchored_of_mem_locatedMethods content window className h
  have hdrop : content.drop (opening.offset + 1) = opening.after.drop 1 := by
    rw [Cursor.after_eq_drop, List.drop_drop, hanchor.opening_text]
  rw [hanchor.body_eq, hanchor.calls_eq, List.extract_eq_take_drop, hdrop]
  refine ⟨?_, (blockEnd_bounds hanchor.opens).1, rfl⟩
  rw [← hanchor.opening_text]
  exact getElem?_offset hanchor.opens

/-- What is called in a block is called in every block around it. -/
theorem CalledIn.of_nested {run content : List Char} {inner outer : Span}
    (hbrace : content[inner.start]? = some '{') (hlt : inner.start < inner.stop)
    (hstart : outer.start ≤ inner.start) (hstop : inner.stop ≤ outer.stop)
    (h : CalledIn run (content.extract (inner.start + 1) inner.stop)) :
    CalledIn run (content.extract (outer.start + 1) outer.stop) := by
  have hlead : outer.start + 1 ≤ inner.start + 1 := by omega
  rw [extract_append content hlead (by omega), extract_append content hlt hstop]
  refine h.within ?_ _
  -- the text before the inner block ends with the brace that opens it, if there is any
  intro ch hch
  rcases Nat.eq_or_lt_of_le hstart with heq | hless
  · rw [heq] at hch
    simp at hch
  · rw [extract_append content (by omega : outer.start + 1 ≤ inner.start) (Nat.le_succ _)] at hch
    obtain ⟨hbound, hget⟩ := List.getElem?_eq_some_iff.1 hbrace
    have hone : content.extract inner.start (inner.start + 1) = ['{'] := by
      rw [List.extract_eq_take_drop, List.drop_eq_getElem_cons hbound, hget,
        Nat.add_sub_cancel_left]
      rfl
    rw [hone, List.getLast?_concat] at hch
    obtain rfl := Option.some.inj hch
    decide

/-- A body calls exactly the whole words before its parentheses, apart from those of statements, and
a method inside of another one calls nothing that the outer one does not. -/
theorem calls_exact_and_monotone :
    (∀ (body : List Char) (name : String), name ∈ calledNames body ↔
      CalledIn name.toList body ∧ name ∉ ["if", "for", "while", "switch"]) ∧
    ∀ (content : List Char) (window : Option Int) (className : String),
      (∀ m ∈ locatedMethods content window className,
        m.method.calls = calledNames (content.extract (m.body.start + 1) m.body.stop)) ∧
      ∀ inner ∈ locatedMethods content window className,
        ∀ outer ∈ locatedMethods content window className,
          outer.body.start ≤ inner.body.start → inner.body.stop ≤ outer.body.stop →
            ∀ name ∈ inner.method.calls, name ∈ outer.method.calls := by
  refine ⟨fun body name => mem_calledNames_iff, ?_⟩
  intro content window className
  refine ⟨fun m hm => (calls_of_mem_locatedMethods hm).2.2, ?_⟩
  intro inner hinner outer houter hstart hstop name hname
  obtain ⟨hbrace, hlt, hcalls⟩ := calls_of_mem_locatedMethods hinner
  rw [(calls_of_mem_locatedMethods houter).2.2, mem_calledNames_iff]
  rw [hcalls, mem_calledNames_iff] at hname
  exact ⟨hname.1.of_nested hbrace hlt hstart hstop, hname.2⟩

/-- A method of an anonymous class in the body of another method. -/
def nestedSource : List Char :=
  "class N\x7bvoid a()\x7bnew T()\x7bvoid b()\x7bif (f ()) \x7b\x7d\x7d\x7d;g();\x7d\x7d".toList

theorem calls_exact_and_monotone_nested :
    (locatedMethods nestedSource none "N").map (fun m => (m.body, m.method.calls.toList)) =
        [(⟨16, 53⟩, ["T", "b", "f", "g"]), (⟨33, 46⟩, ["f"])] ∧
      ∀ inner ∈ locatedMethods nestedSource none "N",
        ∀ outer ∈ locatedMethods nestedSource none "N",
        outer.body.start ≤ inner.body.start → inner.body.stop ≤ outer.body.stop →
          ∀ name ∈ inner.method.calls, name ∈ outer.method.calls :=
  ⟨by decide +kernel, (calls_exact_and_monotone.2 nestedSource none "N").2⟩

end ClassAtlas.Source
