import ClassAtlas.Proofs.Source.Declaration

/-! A line comment above the declaration of a class. The scan looks for classes in comments too, and
only then leaves out what it found there. So a comment makes no difference as long as nothing that
is read in it goes on into the declaration, and this is exactly when it makes none. -/

namespace ClassAtlas.Source

open Pattern Plain

/-! ### Places in the comment -/

def commentLine (t : List Char) : List Char := "//".toList ++ (t ++ ['\n'])

theorem wholeLines_commentLine (t : List Char) : WholeLines (commentLine t) := by
  rw [commentLine, ← List.append_assoc]
  exact wholeLines_append_newline _

theorem classPattern_mark {x : Char} (hx : Text.isWord x = false) (before more : List Char) :
    classPattern ⟨before, x :: more⟩ = [] :=
  (classPattern_wordsOnly.misses_mark (by decide) hx).eq_nil_at_start (by simp) before more

/-- A class is read only behind the slashes. -/
theorem exists_place {t rest : List Char} {c : Cursor} (htext : c.text = commentLine t ++ rest)
    (hoff : c.offset < (commentLine t).length) (hread : classPattern c ≠ []) :
    ∃ u v, t = u ++ v ∧ c = ⟨u.reverse ++ ['/', '/'], v ++ '\n' :: rest⟩ := by
  obtain ⟨before, after⟩ := c
  have hslash : ∀ before more, classPattern ⟨before, '/' :: more⟩ = [] :=
    classPattern_mark (by decide)
  have hall : before.reverse ++ after = '/' :: '/' :: (t ++ '\n' :: rest) := by
    rw [show before.reverse ++ after = _ from htext]
    simp [commentLine]
  match hb : before.reverse with
  | [] =>
    rw [hb] at hall
    obtain rfl : after = _ := hall
    exact absurd (hslash _ _) hread
  | [x] =>
    rw [hb] at hall
    obtain ⟨_, rfl⟩ := List.cons.inj hall
    exact absurd (hslash _ _) hread
  | x :: y :: u =>
    rw [hb] at hall
    obtain ⟨rfl, htail⟩ := List.cons.inj hall
    obtain ⟨rfl, hbehind⟩ := List.cons.inj htail
    have hlen : u.length ≤ t.length := by
      have hcount := congrArg List.length hb
      simp only [Cursor.offset, commentLine, List.length_append, List.length_reverse,
        List.length_cons] at hoff hcount
      simp at hoff
      omega
    obtain ⟨v, rfl⟩ :=
      List.prefix_of_prefix_length_le ⟨after, hbehind⟩ (List.prefix_append t _) hlen
    refine ⟨u, v, rfl, ?_⟩
    have hbefore : before = u.reverse ++ ['/', '/'] := by
      rw [← List.reverse_reverse before, hb]
      simp
    rw [List.append_assoc] at hbehind
    rw [hbefore, List.append_cancel_left hbehind]

theorem inCommentLine_slashes {u : List Char} (hu : '\n' ∉ u) (after : List Char) :
    inCommentLine ⟨u.reverse ++ ['/', '/'], after⟩ = true := by
  have hhead : Cursor.lineHead ⟨("//".toList ++ u).reverse ++ [], after⟩ = "//".toList ++ u :=
    Cursor.lineHead_eq (by simp [hu]) (by simp)
  have hplace : u.reverse ++ ['/', '/'] = ("//".toList ++ u).reverse ++ [] := by simp
  have hmiss : Misses stringLiteral "//".toList := by
    refine misses_of_forall_mem fun ch hch before rest => ?_
    obtain rfl : ch = '/' := by simpa using hch
    exact orElse_eq_nil (bind_eq_nil (one_eq_nil (stops_cons (by decide))))
      (bind_eq_nil (one_eq_nil (stops_cons (by decide))))
  rw [hplace, inCommentLine, hhead, replace, hmiss.replaceFrom]
  simp [Text.occursInChars]

/-! ### The words of the comment -/

/-- The text holds the word, as a word of its own as far as what stands before it goes, and what
follows it is as said. -/
def HasWord (word text : List Char) (follows : List Char → Prop) : Prop :=
  ∃ u v, text = u ++ (word ++ v) ∧ startsWord u.reverse = false ∧ follows v

/-- The text holds the word `class`. -/
def NamesClass (text : List Char) : Prop := HasWord "class".toList text (Stops Text.isWord)

/-- The last word of the text may stand before `class`. -/
def EndsInModifier (text : List Char) : Prop :=
  ∃ w ∈ classModifierWords, HasWord w.toList text fun v => ∀ ch ∈ v, Text.isBlank ch = true

theorem startsWord_of_append {s t : List Char} (h : startsWord (s ++ t) = false) :
    startsWord s = false := by
  cases s with
  | nil => rfl
  | cons ch s => exact h

/-- A word does not go on beyond the end of a line. -/
theorem exists_behind_word {v w rest more : List Char} {x : Char} (hw : Worded w)
    (h : v ++ '\n' :: rest = w ++ x :: more) :
    ∃ v', v = w ++ v' ∧ v' ++ '\n' :: rest = x :: more := by
  rcases List.append_eq_append_iff.1 h with ⟨z, hz, hrest⟩ | ⟨z, hz, hrest⟩
  · cases z with
    | nil => exact ⟨[], by simpa using hz.symm, hrest⟩
    | cons y z =>
      obtain ⟨rfl, _⟩ := List.cons.inj hrest
      exact absurd (by simp [hz]) (not_mem_of_worded hw (show Text.isWord '\n' = false by decide))
  · exact ⟨z, hz, hrest.symm⟩

/-- From a place on a line, modifiers lead to a keyword on this line, or a modifier is the last word
of the line and the keyword stands below. -/
theorem class_on_line_of_steps {lead rest : List Char} {c e : Cursor} (h : Steps classModifier c e)
    (hb : startsWord e.before = false)
    (hclass : ∃ x more, Text.isBlank x = true ∧ e.after = "class".toList ++ x :: more) :
    ∀ u v, c = ⟨u.reverse ++ lead, v ++ '\n' :: rest⟩ →
      NamesClass (u ++ v) ∨ e.after.length ≤ rest.length ∧ EndsInModifier (u ++ v) := by
  induction h with
  | done _ =>
    rintro u v rfl
    obtain ⟨x, more, hx, hafter⟩ := hclass
    obtain ⟨v', rfl, hv'⟩ := exists_behind_word (by decide) hafter
    refine .inl ⟨u, v', rfl, startsWord_of_append hb, ?_⟩
    cases v' with
    | nil => exact stops_nil
    | cons y v' =>
      obtain ⟨rfl, _⟩ := List.cons.inj hv'
      exact stops_cons (Text.isWord_of_isBlank hx)
  | @step c d e hstep _ hsteps ih =>
    rintro u v rfl
    obtain ⟨hstart, w, hw, gap, hne, hblank, hstop, hread⟩ := mem_classModifier hstep.mem
    obtain ⟨y, gap, rfl⟩ := List.exists_cons_of_ne_nil hne
    have hafter : v ++ '\n' :: rest = w.toList ++ y :: (gap ++ d.after) := by
      simpa using hread.after_eq
    obtain ⟨v', rfl, hv'⟩ := exists_behind_word (classModifierWords_worded w hw) hafter
    have hsplit : v' ++ '\n' :: rest = (y :: gap) ++ d.after := hv'
    rcases List.append_eq_append_iff.1 hsplit with ⟨z, hz, hd⟩ | ⟨z, rfl, hd⟩
    · -- the blanks go on beyond the line
      cases z with
      | nil =>
        have hnewline := hstop '\n' (by rw [← show _ = d.after from hd]; rfl)
        exact absurd hnewline (by decide)
      | cons x z =>
        obtain ⟨rfl, hrest⟩ := List.cons.inj hd
        obtain ⟨s, hs⟩ := hsteps.reads classModifier_progress
        refine .inr ⟨?_, w, hw, u, v', rfl, startsWord_of_append hstart, ?_⟩
        · have hlen := congrArg List.length hs.after_eq
          have hlen' : rest.length = (z ++ d.after).length := congrArg List.length hrest
          rw [List.length_append] at hlen hlen'
          omega
        · intro ch hch
          exact hblank ch (by rw [hz]; exact List.mem_append_left _ hch)
    · -- the next word stands on the line as well
      have hnext := ih hb hclass (u ++ (w.toList ++ y :: gap)) z ?_
      · simpa using hnext
      · obtain ⟨before, after⟩ := d
        obtain rfl : before = _ := hread.before_eq
        obtain rfl : after = _ := hd
        simp

/-! ### What the comment changes -/

/-- Matches that start in the comment do not count. What they have read is passed over all the
same. -/
theorem exists_classHeader?_eq {t : List Char} (ht : '\n' ∉ t) (rest : List Char) :
    ∃ left, classHeader? (commentLine t ++ rest) =
        ((classPattern.matchesFrom left (commentLine t).reverse rest).map
          ClassHeader.ofMatch).find? isDeclaration ∧
      (left ≠ 0 ↔ ∃ m ∈ classPattern.matchesIn (commentLine t ++ rest), RunsInto m rest) := by
  obtain ⟨ms, left, hms, hstart, hleft⟩ :=
    matchesFrom_append classPattern 0 [] (commentLine t) rest
  rw [List.append_nil] at hms
  refine ⟨left, ?_, ?_⟩
  · rw [classHeader?_eq_find?, matchesIn, hms, List.map_append, List.find?_append]
    have hnone : (ms.map ClassHeader.ofMatch).find? isDeclaration = none := by
      rw [List.find?_eq_none]
      intro header hheader
      obtain ⟨m, hm, rfl⟩ := List.mem_map.1 hheader
      have hin : m ∈ classPattern.matchesIn (commentLine t ++ rest) := by
        rw [matchesIn, hms]
        exact List.mem_append_left _ hm
      obtain ⟨htext, hmem⟩ := mem_matchesIn classPattern_progress hin
      obtain ⟨u, v, rfl, hplace⟩ := exists_place htext (by simpa using hstart m hm)
        (List.ne_nil_of_mem hmem)
      have hcomment : inCommentLine m.start = true := by
        rw [hplace]
        exact inCommentLine_slashes (fun hmem => ht (List.mem_append_left v hmem)) _
      simp [isDeclaration, ClassHeader.ofMatch, hcomment]
    rw [hnone, Option.none_or]
  · rw [hleft, matchesIn, hms]
    constructor
    · rintro (h | ⟨m, hm, hruns⟩)
      · omega
      · exact ⟨m, List.mem_append_left _ hm, hruns⟩
    · rintro ⟨m, hm, hruns⟩
      rcases List.mem_append.1 hm with hm | hm
      · exact .inr ⟨m, hm, hruns⟩
      · -- a match of the second part starts there
        obtain ⟨htext, hoff, _⟩ := mem_matchesFrom classPattern_progress hm
        have hlen := congrArg List.length htext
        have hlong := hruns.1
        simp only [Cursor.text, Cursor.offset, List.length_append, List.length_reverse] at hlen hoff
        omega

theorem offset_lt_of_runsInto {a rest : List Char} {m : Match ClassClauses}
    (hm : m ∈ classPattern.matchesIn (a ++ rest)) (h : RunsInto m rest) :
    m.start.offset < a.length := by
  have hlen := congrArg List.length (mem_matchesIn classPattern_progress hm).1
  have hlong := h.1
  simp only [Cursor.text, Cursor.offset, List.length_append, List.length_reverse] at hlen ⊢
  omega

/-- Where a comment ends in a sign that cannot stand in a declaration, no match goes beyond it. -/
theorem not_runsInto_of_sign {u rest : List Char} {x : Char} {m : Match ClassClauses}
    (hangle : '<' ∉ u ++ [x]) (hx : isTypeListChar x = false)
    (hm : m ∈ classPattern.matchesIn (commentLine (u ++ [x]) ++ rest)) : ¬RunsInto m rest := by
  intro hruns
  obtain ⟨htext, hmem⟩ := mem_matchesIn classPattern_progress hm
  obtain ⟨w, v, hsplit, hplace⟩ := exists_place htext (offset_lt_of_runsInto hm hruns)
    (List.ne_nil_of_mem hmem)
  obtain ⟨s, hs, hlisted⟩ := classPattern_listed _ _ hmem
  have hafter : v ++ '\n' :: rest = s ++ m.stop.after := by
    rw [← hs.after_eq, hplace]
  -- the match reads all of the line from its start on
  obtain ⟨s', rfl⟩ : v <+: s := by
    refine List.prefix_of_prefix_length_le (List.prefix_append v _) ⟨_, hafter.symm⟩ ?_
    have hlen := congrArg List.length hafter
    have hshort := hruns.2
    simp only [List.length_append, List.length_cons] at hlen
    omega
  have hxv : x ∈ v := by
    rcases List.eq_nil_or_concat v with rfl | ⟨v', y, rfl⟩
    · rw [hplace] at hmem
      exact absurd (classPattern_mark (by decide) _ _) (List.ne_nil_of_mem hmem)
    · rw [List.concat_eq_append, ← List.append_assoc] at hsplit
      obtain ⟨_, hlast⟩ := List.append_inj' hsplit rfl
      obtain rfl := (List.cons.inj hlast).1
      simp
  have hclear : ∀ ch ∈ v, (ch != '<') = true := by
    intro ch hch
    rw [bne_iff_ne]
    rintro rfl
    exact hangle (hsplit ▸ List.mem_append_right w hch)
  have hin : x ∈ (v ++ s').takeWhile (· != '<') := by
    rw [List.takeWhile_append_of_pos hclear]
    exact List.mem_append_left _ hxv
  simp [hlisted x hin] at hx

/-- Where the comment does not name a class, a match that starts in it runs into what follows, and
its last word is a modifier. -/
theorem runsInto_of_match {t rest : List Char} {m : Match ClassClauses}
    (hm : m ∈ classPattern.matchesIn (commentLine t ++ rest))
    (hoff : m.start.offset < (commentLine t).length) :
    NamesClass t ∨ RunsInto m rest ∧ EndsInModifier t := by
  obtain ⟨htext, hmem⟩ := mem_matchesIn classPattern_progress hm
  obtain ⟨u, v, rfl, hplace⟩ := exists_place htext hoff (List.ne_nil_of_mem hmem)
  obtain ⟨e, hsteps, hb, hclass, s, hne, hs⟩ := mem_classPattern hmem
  rcases class_on_line_of_steps hsteps hb hclass u v hplace with h | ⟨hlen, hends⟩
  · exact .inl h
  · refine .inr ⟨⟨?_, ?_⟩, hends⟩
    · rw [hplace]
      simp only [List.length_append, List.length_cons]
      omega
    · exact Nat.lt_of_lt_of_le (length_lt_of_reads hne hs) hlen

/-- A modifier is read together with the declaration below it. -/
theorem Declares.classPattern_ne_nil {name text gap before : List Char} {w : String}
    (h : Declares name text) (hw : w ∈ classModifierWords) (hb : Pattern.startsWord before = false)
    (hblank : ∀ ch ∈ gap, Text.isBlank ch = true) :
    classPattern ⟨before, w.toList ++ ((gap ++ ['\n']) ++ text)⟩ ≠ [] := by
  have hgap : ∀ ch ∈ gap ++ ['\n'], Text.isBlank ch = true := by
    intro ch hch
    rcases List.mem_append.1 hch with hch | hch
    · exact hblank ch hch
    · obtain rfl := List.mem_singleton.1 hch
      decide
  have htext : Stops Text.isBlank text := by
    have hstart := h.startsWord
    cases text with
    | nil => exact stops_nil
    | cons ch rest => exact stops_cons (Text.isBlank_of_isWord hstart)
  have hmodifier := prefers_classModifier hw hb (by simp) hgap htext
  have hbelow : Pattern.startsWord ((gap ++ ['\n']).reverse ++ (w.toList.reverse ++ before)) =
      false := by
    rw [List.reverse_append]
    exact (by decide : Text.isWord '\n' = false)
  obtain ⟨clauses, stop, hprefers, _⟩ := h.prefers hbelow
  have hsame := hmodifier.runOf_eq classModifier_progress
  have hmem := hprefers.mem
  rw [classPattern_eq, bind_apply] at hmem ⊢
  rw [hsame]
  exact List.ne_nil_of_mem hmem

theorem EndsInModifier.exists_match {t name text : List Char} (h : EndsInModifier t)
    (htext : Declares name text) :
    ∃ m ∈ classPattern.matchesIn (commentLine t ++ text),
      m.start.offset < (commentLine t).length := by
  obtain ⟨w, hw, u, gap, rfl, hu, hblank⟩ := h
  have hstart : startsWord (u.reverse ++ ['/', '/']) = false := by
    cases hr : u.reverse with
    | nil => exact (by decide : Text.isWord '/' = false)
    | cons ch s => rwa [hr] at hu
  obtain ⟨m, hm, hoff⟩ := exists_mem_matchesIn (htext.classPattern_ne_nil hw hstart hblank)
  refine ⟨m, ?_, ?_⟩
  · simpa [commentLine] using hm
  · simp only [List.length_append, List.length_reverse, commentLine, List.length_cons] at hoff ⊢
    simp only [List.length_nil] at hoff ⊢
    have hslashes : "//".toList.length = 2 := rfl
    omega

/-- A comment above changes nothing but where the declaration stands. -/
def Inert (t text : List Char) : Prop :=
  classHeader? (commentLine t ++ text) =
    (classHeader? text).map (ClassHeader.behind (commentLine t))

/-- A declaration is found as such. A comment above it is inert exactly if no match that starts in
the comment runs into the declaration. Where the comment does not hold the word `class`, it is inert
exactly if its last word is no modifier, and without a `<` it is inert as soon as it ends in a sign
that cannot stand in a declaration. What is found is never a class that the comment talks about. -/
theorem classHeader?_commentLine {t name text : List Char} (ht : '\n' ∉ t)
    (htext : Declares name text) :
    (∃ header, classHeader? text = some header ∧ header.start = .start text ∧
      header.name = String.ofList name) ∧
    (Inert t text ↔ ∀ m ∈ classPattern.matchesIn (commentLine t ++ text), ¬RunsInto m text) ∧
    (¬NamesClass t → (Inert t text ↔ ¬EndsInModifier t)) ∧
    (∀ u x, t = u ++ [x] → '<' ∉ t → isTypeListChar x = false → Inert t text) ∧
    ∀ found, classHeader? (commentLine t ++ text) = some found →
      (commentLine t).length ≤ found.start.offset := by
  obtain ⟨header, hheader, hstart, hname⟩ := htext.classHeader?_eq
  obtain ⟨left, hfound, hleft⟩ := exists_classHeader?_eq ht text
  have hplace : ∀ found, classHeader? (commentLine t ++ text) = some found →
      (commentLine t).length + left ≤ found.start.offset := by
    intro found h
    rw [hfound] at h
    obtain ⟨m, hm, rfl⟩ := List.mem_map.1 (List.mem_of_find?_eq_some h)
    obtain ⟨_, hoff, _⟩ := mem_matchesFrom classPattern_progress hm
    rwa [List.length_reverse] at hoff
  have hinert : Inert t text ↔ left = 0 := by
    constructor
    · intro h
      rw [Inert, hheader, Option.map_some] at h
      have hoff := hplace _ h
      simp only [ClassHeader.behind, hstart, Cursor.offset_behind, Cursor.offset_start] at hoff
      omega
    · rintro rfl
      rw [Inert, hfound, find?_behind (wholeLines_commentLine t)]
  have hruns : Inert t text ↔
      ∀ m ∈ classPattern.matchesIn (commentLine t ++ text), ¬RunsInto m text := by
    rw [hinert, ← not_iff_not, ← ne_eq, hleft]
    push Not
    rfl
  refine ⟨⟨header, hheader, hstart, hname⟩, hruns, ?_, ?_,
    fun found h => Nat.le_trans (Nat.le_add_right _ left) (hplace found h)⟩
  · intro hclass
    rw [hruns]
    constructor
    · intro hnone hends
      obtain ⟨m, hm, hoff⟩ := hends.exists_match htext
      exact hnone m hm ((runsInto_of_match hm hoff).resolve_left hclass).1
    · intro hends m hm hinto
      have hoff := offset_lt_of_runsInto hm hinto
      exact hends ((runsInto_of_match hm hoff).resolve_left hclass).2
  · rintro u x rfl hangle hx
    exact hruns.2 fun m hm => not_runsInto_of_sign hangle hx hm

/-- A class that the comment talks about is passed over, and the one below is found. -/
theorem classHeader?_commentLine_other :
    let t := " the class Fake extends Old here".toList
    let text := "public class N<T> extends B {}".toList
    '\n' ∉ t ∧ Declares ['N'] text ∧ NamesClass t ∧ Inert t text := by
  have htext : Declares ['N'] "public class N<T> extends B {}".toList :=
    ⟨by decide, by decide, "public class ", by decide, "<T> extends B {}".toList, by decide,
      stops_cons (by decide)⟩
  refine ⟨by decide, htext, ⟨" the ".toList, " Fake extends Old here".toList, by decide, by decide,
    stops_cons (by decide)⟩, ?_⟩
  exact (classHeader?_commentLine (by decide) htext).2.1.2 (by decide +kernel)

/-- The last word of a comment takes the declaration below for the name of a class. -/
theorem comment_hides_class :
    let t := " the class".toList
    let text := "class N {}".toList
    (classHeader? text).map (fun header => (header.start.offset, header.stop.offset, header.name)) =
        some (0, 7, "N") ∧
      classHeader? (commentLine t ++ text) = none ∧ ¬Inert t text := by
  intro t text
  have hfound : (classHeader? text).map (fun header =>
      (header.start.offset, header.stop.offset, header.name)) = some (0, 7, "N") := by
    decide +kernel
  have hnone : classHeader? (commentLine t ++ text) = none := by
    rw [← Option.isNone_iff_eq_none]
    decide +kernel
  refine ⟨hfound, hnone, ?_⟩
  intro h
  rw [Inert, hnone] at h
  rw [Option.map_eq_none_iff.1 h.symm] at hfound
  simp at hfound

end ClassAtlas.Source
