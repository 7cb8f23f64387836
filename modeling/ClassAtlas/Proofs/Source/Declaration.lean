import ClassAtlas.Proofs.Pattern.Locality
import ClassAtlas.Proofs.Plain.Members

/-! What the declaration of a class reads: modifiers, the keyword, and clauses whose characters are
those of type lists as far as no `<` comes first. Behind whole lines the same declaration is
read. -/

namespace ClassAtlas.Source

open Pattern Plain

/-! ### The parts of a declaration -/

/-- A modifier is a word of its own, and all blanks behind it are read. -/
theorem mem_classModifier {c : Cursor} {r : Unit × Cursor} (h : r ∈ classModifier c) :
    startsWord c.before = false ∧ ∃ w ∈ classModifierWords, ∃ gap, gap ≠ [] ∧
      (∀ ch ∈ gap, Text.isBlank ch = true) ∧ Stops Text.isBlank r.2.after ∧
      c.Reads (w.toList ++ gap) r.2 := by
  obtain ⟨q, hq, hr⟩ := mem_bind.1 h
  obtain rfl : q = ((), c) := (mem_require.1 hq).2
  obtain ⟨q', hq', hgap⟩ := mem_bind.1 hr
  obtain ⟨w, hw, hread⟩ := mem_oneOf hq'
  obtain ⟨gap, hne, hgap, hblank, hstop⟩ := mem_run1 hgap
  have hstart := (mem_boundary hq (classModifierWords_worded w hw) hread.after_eq).1
  exact ⟨hstart, w, hw, gap, hne, hblank, hstop, hread.trans hgap⟩

theorem classModifier_progress : classModifier.Progress := by
  intro c r hr
  obtain ⟨_, w, _, gap, hne, _, _, hread⟩ := mem_classModifier hr
  exact ⟨_, by simp [hne], hread⟩

/-- Up to the first `<` there are only characters of type lists. -/
def Listed (s : List Char) : Prop := ∀ ch ∈ s.takeWhile (· != '<'), isTypeListChar ch = true

theorem Listed.append {s t : List Char} (hs : Listed s) (ht : Listed t) : Listed (s ++ t) := by
  intro ch hch
  rw [List.takeWhile_append] at hch
  split at hch
  · next hall =>
    rcases List.mem_append.1 hch with hch | hch
    · rw [← (List.takeWhile_prefix (· != '<')).eq_of_length hall] at hch
      exact hs ch hch
    · exact ht ch hch
  · exact hs ch hch

/-- All that a pattern reads is listed. -/
def ReadsListed {α : Type} (p : Pattern α) : Prop := ∀ c, ∀ r ∈ p c, ∃ s, c.Reads s r.2 ∧ Listed s

section Listed

variable {α β : Type} {p : Pattern α}

theorem readsListed_of_within (h : p.Within isTypeListChar) : ReadsListed p := by
  intro c r hr
  obtain ⟨s, hs, hall⟩ := h c r hr
  exact ⟨s, hs, fun ch hch => hall ch ((List.takeWhile_prefix _).subset hch)⟩

theorem ReadsListed.bind {f : α → Pattern β} (hp : ReadsListed p) (hf : ∀ a, ReadsListed (f a)) :
    ReadsListed (p >>= f) := by
  intro c r hr
  obtain ⟨q, hq, hr⟩ := mem_bind.1 hr
  obtain ⟨s, hs, hlisted⟩ := hp c q hq
  obtain ⟨s', hs', hlisted'⟩ := hf q.1 q.2 r hr
  exact ⟨s ++ s', hs.trans hs', hlisted.append hlisted'⟩

theorem ReadsListed.optional (hp : ReadsListed p) : ReadsListed (optional p) := by
  intro c r hr
  rcases mem_optional.1 hr with ⟨q, hq, rfl⟩ | rfl
  · exact hp c q hq
  · exact ⟨[], .refl c, by simp [Listed]⟩

theorem ReadsListed.maybe {p : Pattern Unit} (hp : ReadsListed p) : ReadsListed (maybe p) := by
  intro c r hr
  rcases mem_maybe.1 hr with hr | rfl
  · exact hp c r hr
  · exact ⟨[], .refl c, by simp [Listed]⟩

end Listed

theorem within_blanks : blanks.Within isTypeListChar :=
  (within_run _).mono fun ch hch => by simp [isTypeListChar, hch]

theorem within_blanks1_list : blanks1.Within isTypeListChar :=
  (within_run1 _).mono fun ch hch => by simp [isTypeListChar, hch]

theorem within_word : word.Within isTypeListChar :=
  (within_run1 _).mono fun ch hch => by simp [isTypeListChar, hch]

theorem typeArguments_listed : ReadsListed typeArguments := by
  intro c r hr
  obtain ⟨q, hq, hr⟩ := mem_bind.1 hr
  obtain ⟨q', hq', hr⟩ := mem_bind.1 hr
  have hrest : (do run fun c => c != '>' && c != '\x7b'; lit ">" : Pattern Unit).Within anyChar :=
    (within_run _).forward.bind fun _ => within_lit fun _ _ => rfl
  obtain ⟨gap, hgap, hlist⟩ := within_blanks c q hq
  obtain ⟨s, hs, _⟩ := hrest q'.2 r hr
  refine ⟨gap ++ ("<".toList ++ s), hgap.trans ((mem_lit hq').trans hs), ?_⟩
  -- nothing of the arguments stands before their `<`
  have hangle : Listed ("<".toList ++ s) := by simp [Listed]
  exact Listed.append (fun ch hch => hlist ch ((List.takeWhile_prefix _).subset hch)) hangle

theorem extendsClause_listed : ReadsListed extendsClause := by
  have hbase : (run1 isDotted).Within isTypeListChar := by
    refine (within_run1 _).mono fun ch hch => ?_
    rcases Bool.or_eq_true_iff.1 hch with hword | hdot
    · simp [isTypeListChar, hword]
    · simp [isTypeListChar, hdot]
  exact (readsListed_of_within within_blanks1_list).bind fun _ =>
    (readsListed_of_within (within_lit (by decide))).bind fun _ =>
      (readsListed_of_within within_blanks1_list).bind fun _ =>
        (readsListed_of_within hbase.captured).bind fun _ =>
          typeArguments_listed.maybe.bind fun _ => readsListed_of_within (within_pure _)

theorem implementsClause_listed : ReadsListed implementsClause := by
  have hgap : (many1 Text.isBlank).Within isTypeListChar := by
    have hmany : (many Text.isBlank).Within Text.isBlank := fun c r hr => mem_many hr
    exact ((within_one _).bind fun _ => hmany).mono fun ch hch => by simp [isTypeListChar, hch]
  exact (readsListed_of_within within_blanks1_list).bind fun _ =>
    (readsListed_of_within (within_lit (by decide))).bind fun _ =>
      (readsListed_of_within hgap).bind fun _ =>
        readsListed_of_within (within_run1 isTypeListChar).captured

/-- What follows the keyword. -/
theorem clauses_listed : ReadsListed do
    blanks1
    let name ← captured word
    maybe typeArguments
    let base ← optional extendsClause
    let interfaces ← optional implementsClause
    return (⟨name, base, interfaces⟩ : ClassClauses) :=
  (readsListed_of_within within_blanks1_list).bind fun _ =>
    (readsListed_of_within within_word.captured).bind fun _ =>
      typeArguments_listed.maybe.bind fun _ => extendsClause_listed.optional.bind fun _ =>
        implementsClause_listed.optional.bind fun _ => readsListed_of_within (within_pure _)

theorem classPattern_listed : ReadsListed classPattern := by
  have hmodifier : classModifier.Within isTypeListChar :=
    (within_require _).bind fun _ => (within_oneOf (by decide)).bind fun _ => within_blanks1_list
  exact (readsListed_of_within hmodifier.runOf).bind fun _ =>
    (readsListed_of_within (within_require _)).bind fun _ =>
      (readsListed_of_within (within_lit (by decide))).bind fun _ => clauses_listed

theorem mem_unmodifiedClass {c : Cursor} {r : ClassClauses × Cursor} (h : r ∈ unmodifiedClass c) :
    startsWord c.before = false ∧
      (∃ x rest, Text.isBlank x = true ∧ c.after = "class".toList ++ x :: rest) ∧
      ∃ s, s ≠ [] ∧ c.Reads s r.2 := by
  have hkeyword := mem_keyword ["class"] (by decide)
    (fun c r hr => ⟨"class", by simp, mem_lit hr⟩) _ (List.ne_nil_of_mem h)
  obtain ⟨hstart, w, hw, x, rest, hx, hafter⟩ := hkeyword
  obtain rfl := List.mem_singleton.1 hw
  refine ⟨hstart, ⟨x, rest, hx, hafter⟩, ?_⟩
  obtain ⟨q, hq, hr⟩ := mem_bind.1 h
  obtain rfl : q = ((), c) := (mem_require.1 hq).2
  obtain ⟨q', hq', hclauses⟩ := mem_bind.1 hr
  obtain ⟨s, hs, _⟩ := clauses_listed _ r hclauses
  exact ⟨_, by simp, (mem_lit hq').trans hs⟩

/-- The modifiers lead to the keyword, and the declaration goes on from there. -/
theorem mem_classPattern {c : Cursor} {r : ClassClauses × Cursor} (h : r ∈ classPattern c) :
    ∃ e, Steps classModifier c e ∧ startsWord e.before = false ∧
      (∃ x rest, Text.isBlank x = true ∧ e.after = "class".toList ++ x :: rest) ∧
      ∃ s, s ≠ [] ∧ e.Reads s r.2 := by
  obtain ⟨e, hsteps⟩ := classModifier_progress.exists_steps c
  rw [classPattern_eq, bind_eq_of_single hsteps.runOf] at h
  exact ⟨e, hsteps, mem_unmodifiedClass h⟩

theorem classPattern_progress : classPattern.Progress := by
  intro c r hr
  obtain ⟨e, hsteps, _, _, s, hne, hs⟩ := mem_classPattern hr
  obtain ⟨s', hs'⟩ := hsteps.reads classModifier_progress
  exact ⟨s' ++ s, by simp [hne], hs'.trans hs⟩

/-! ### A declaration behind whole lines -/

def ClassClauses.behind (pre : List Char) (clauses : ClassClauses) : ClassClauses where
  name := clauses.name.behind pre
  base := clauses.base.map (Excerpt.behind pre)
  interfaces := clauses.interfaces.map (Excerpt.behind pre)

/-- The same declaration when a text is put in front. -/
def ClassHeader.behind (pre : List Char) (header : ClassHeader) : ClassHeader :=
  { header with start := header.start.behind pre, stop := header.stop.behind pre }

theorem ClassHeader.ofMatch_behind (pre : List Char) (m : Match ClassClauses) :
    ofMatch (m.behind pre (ClassClauses.behind pre)) = (ofMatch m).behind pre := by
  simp only [ofMatch, Match.behind, ClassHeader.behind, ClassClauses.behind, Option.map_map,
    Function.comp_def, Excerpt.text_behind]
  rfl

variable {pre : List Char}

theorem moved_typeArguments : Moved pre id typeArguments typeArguments :=
  (moved_run _).bind fun _ => (moved_lit _).bind fun _ => (moved_run _).bind fun _ => moved_lit _

theorem moved_extendsClause : Moved pre (Excerpt.behind pre) extendsClause extendsClause :=
  (moved_run1 _).bind fun _ => (moved_lit _).bind fun _ => (moved_run1 _).bind fun _ =>
    (moved_run1 _).captured.bind fun _ => moved_typeArguments.maybe.bind fun _ => moved_pure _ _

theorem moved_implementsClause : Moved pre (Excerpt.behind pre) implementsClause implementsClause :=
  (moved_run1 _).bind fun _ => (moved_lit _).bind fun _ => (moved_many1 _).bind fun _ =>
    (moved_run1 _).captured

theorem moved_classPattern (hpre : WholeLines pre) :
    Moved pre (ClassClauses.behind pre) classPattern classPattern := by
  have hboundary : Moved pre id boundary boundary := moved_boundary hpre.startsWord
  have hmodifier : Moved pre id classModifier classModifier :=
    hboundary.bind fun _ => (moved_oneOf _).bind fun _ => moved_run1 _
  exact hmodifier.runOf.bind fun _ => hboundary.bind fun _ => (moved_lit _).bind fun _ =>
    (moved_run1 _).bind fun _ => (moved_run1 _).captured.bind fun _ =>
      moved_typeArguments.maybe.bind fun _ => moved_extendsClause.optional.bind fun _ =>
        moved_implementsClause.optional.bind fun _ => moved_pure _ _

theorem inCommentLine_behind (hpre : WholeLines pre) (c : Cursor) :
    inCommentLine (c.behind pre) = inCommentLine c := by
  have hhead : (c.behind pre).lineHead = c.lineHead := by
    have hstop : Stops (· != '\n') pre.reverse := by
      intro ch hch
      simp [hpre.head_reverse ch hch]
    rw [Cursor.lineHead, Cursor.behind, Cursor.lineHead, List.takeWhile_append]
    split
    · next hall =>
      rw [takeWhile_of_stops hstop, List.append_nil]
      exact congrArg List.reverse ((List.takeWhile_prefix _).eq_of_length hall).symm
    · rfl
  rw [inCommentLine, inCommentLine, hhead]

/-- What counts as a declaration. -/
def isDeclaration (header : ClassHeader) : Bool :=
  !inCommentLine header.start && !statementKeywords.contains header.name

theorem classHeader?_eq_find? (content : List Char) :
    classHeader? content =
      ((classPattern.matchesIn content).map ClassHeader.ofMatch).find? isDeclaration := rfl

/-- Behind whole lines the same declaration is found, if all of the text is scanned. -/
theorem find?_behind (hpre : WholeLines pre) (rest : List Char) :
    ((classPattern.matchesFrom 0 pre.reverse rest).map ClassHeader.ofMatch).find? isDeclaration =
      (classHeader? rest).map (ClassHeader.behind pre) := by
  have hmoved := (moved_classPattern hpre).matchesFrom 0 [] rest
  have hsame : ∀ header : ClassHeader, isDeclaration (header.behind pre) =
      isDeclaration header := by
    intro header
    rw [isDeclaration, isDeclaration]
    exact congrArg (!· && _) (inCommentLine_behind hpre header.start)
  rw [List.nil_append] at hmoved
  rw [hmoved, classHeader?_eq_find?, matchesIn, List.map_map]
  have hbehind : ClassHeader.ofMatch ∘ Match.behind pre (ClassClauses.behind pre) =
      ClassHeader.behind pre ∘ ClassHeader.ofMatch := funext (ClassHeader.ofMatch_behind pre)
  have hpred : isDeclaration ∘ ClassHeader.behind pre = isDeclaration := funext hsame
  rw [hbehind, ← List.map_map, List.find?_map, hpred]

/-! ### The declaration that is found -/

/-- A text that starts with `class` or `public class` and a name. -/
structure Declares (name text : List Char) : Prop where
  worded : Worded name
  proper : String.ofList name ∉ statementKeywords
  starts : ∃ lead ∈ ["class ", "public class "], ∃ rest, text = lead.toList ++ (name ++ rest) ∧
    Stops Text.isWord rest

theorem prefers_unmodifiedClass {name before rest : List Char} (hb : startsWord before = false)
    (hname : Worded name) (hrest : Stops Text.isWord rest) :
    ∃ clauses stop, unmodifiedClass.Prefers ⟨before, "class".toList ++ ' ' :: (name ++ rest)⟩
      clauses stop ∧ clauses.name.text = String.ofList name := by
  have hword : ∀ b, word ⟨b, name ++ rest⟩ = _ := fun b => run1_append hname.1 hname.2 hrest
  obtain ⟨_, d, harguments⟩ := exists_prefers (maybe_ne_nil typeArguments
    ⟨name.reverse ++ ' ' :: ("class".toList.reverse ++ before), rest⟩)
  obtain ⟨base, d', hbase⟩ := exists_prefers (optional_ne_nil extendsClause d)
  obtain ⟨interfaces, stop, hinterfaces⟩ := exists_prefers (optional_ne_nil implementsClause d')
  refine ⟨_, stop, prefers_keyword (by decide) hb (stops_blank_of_head (hname.head rest))
    (Prefers.bind (Prefers.of_eq (hword _)).captured (Prefers.bind harguments
      (Prefers.bind hbase (Prefers.bind hinterfaces (prefers_pure _ _))))), ?_⟩
  exact Excerpt.text_append _ _ _ _

theorem Declares.prefers {name text before : List Char} (h : Declares name text)
    (hb : startsWord before = false) :
    ∃ clauses stop, classPattern.Prefers ⟨before, text⟩ clauses stop ∧
      clauses.name.text = String.ofList name := by
  obtain ⟨lead, hlead, rest, rfl, hrest⟩ := h.starts
  obtain ⟨words, hwords⟩ : ∃ words, lead.toList = modifierText words ++ "class ".toList := by
    rcases List.mem_cons.1 hlead with rfl | hlead
    · exact ⟨[], rfl⟩
    · obtain rfl := List.mem_singleton.1 hlead
      exact ⟨[⟨"public", by decide⟩], rfl⟩
  obtain ⟨before', hsteps, hb'⟩ := steps_modifiers words hb (name ++ rest)
  obtain ⟨clauses, stop, hclass, hname⟩ := prefers_unmodifiedClass hb' h.worded hrest
  have htext : lead.toList ++ (name ++ rest) =
      modifierText words ++ ("class".toList ++ ' ' :: (name ++ rest)) := by simp [hwords]
  rw [htext]
  exact ⟨clauses, stop, Prefers.bind (.of_eq hsteps.runOf) hclass, hname⟩

theorem Declares.startsWord {name text : List Char} (h : Declares name text) :
    Pattern.startsWord text = true := by
  obtain ⟨lead, hlead, rest, rfl, _⟩ := h.starts
  have hall : ∀ s ∈ ["class ", "public class "], ∃ w more, Worded w ∧ s.toList = w ++ more := by
    intro s hs
    rcases List.mem_cons.1 hs with rfl | hs
    · exact ⟨"class".toList, " ".toList, by decide, by decide⟩
    · obtain rfl := List.mem_singleton.1 hs
      exact ⟨"public".toList, " class ".toList, by decide, by decide⟩
  obtain ⟨w, more, hw, hsplit⟩ := hall lead hlead
  rw [hsplit, List.append_assoc]
  exact hw.startsWord _

theorem Declares.classHeader?_eq {name text : List Char} (h : Declares name text) :
    ∃ header, classHeader? text = some header ∧ header.start = .start text ∧
      header.name = String.ofList name := by
  obtain ⟨clauses, stop, hprefers, hname⟩ := h.prefers (show Pattern.startsWord [] = false from rfl)
  have hne : text ≠ [] := by
    rintro rfl
    exact absurd h.startsWord (by decide)
  have hheader : classHeader? ([] ++ text) = _ :=
    Plain.classHeader?_eq misses_nil (by simp [WholeLines]) hne hprefers (hname ▸ h.proper)
  exact ⟨_, hheader, rfl, hname⟩

end ClassAtlas.Source
