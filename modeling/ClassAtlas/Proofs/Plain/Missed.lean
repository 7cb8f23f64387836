import Mathlib.Data.List.Infix
import ClassAtlas.Proofs.Plain.Unit

/-! The parts of a plain file in which a pattern has no match. -/

namespace ClassAtlas.Plain

open Source Pattern

variable {α : Type} {p : Pattern α} {rest : List Char}

/-! ### Patterns that start with a keyword -/

/-- What follows is neither a word nor the end. -/
def Bounded (rest : List Char) : Prop := ∃ x more, rest = x :: more ∧ Text.isWord x = false

theorem bounded_cons {x : Char} (h : Text.isWord x = false) (more : List Char) :
    Bounded (x :: more) := ⟨x, more, rfl, h⟩

/-- A text that is missed as long as no word follows it. -/
def Passed (p : Pattern α) (item : List Char) : Prop :=
  ∀ rest, Bounded rest → Misses p rest → Misses p (item ++ rest)

/-- The text ends outside of words, and none of its words ends in one of the given ones. -/
def Clear (words : List String) (text : List Char) : Prop :=
  text.getLast?.any (fun ch => !Text.isWord ch) = true ∧
    ∀ s ∈ text.tails, ∀ k ∈ words, s.takeWhile Text.isWord ≠ k.toList

instance (words : List String) (text : List Char) : Decidable (Clear words text) :=
  inferInstanceAs (Decidable (_ ∧ _))

theorem declarationWords_worded : ∀ k ∈ declarationWords, Worded k.toList := by
  decide +kernel

section Words

variable {words : List String}

theorem misses_clear (hp : WordsOnly words p) (hwords : ∀ k ∈ words, Worded k.toList)
    {text : List Char} (h : Clear words text) (hrest : Misses p rest) :
    Misses p (text ++ rest) := by
  refine Misses.append ?_ hrest
  intro t s hsplit hs before rest
  by_contra hne
  obtain ⟨_, k, hk, y, rest', hy, heq⟩ := hp _ hne
  have htail : s <:+ text := ⟨t, hsplit.symm⟩
  cases hdrop : s.dropWhile Text.isWord with
  | nil =>
    -- the last character of the text is outside of words
    have hall := List.dropWhile_eq_nil_iff.1 hdrop
    obtain rfl | ⟨s', z, rfl⟩ := List.eq_nil_or_concat s
    · exact hs rfl
    · have hz := hall z (by simp)
      have hlast := h.1
      rw [hsplit, List.concat_eq_append, ← List.append_assoc] at hlast
      simp [hz] at hlast
  | cons z more =>
    have hz : Text.isWord z = false := by
      have hstops := stops_dropWhile Text.isWord s
      rw [hdrop] at hstops
      exact hstops z rfl
    have hcut : s = s.takeWhile Text.isWord ++ z :: more := by
      rw [← hdrop, List.takeWhile_append_dropWhile]
    have heq : s.takeWhile Text.isWord ++ z :: (more ++ rest) = k.toList ++ y :: rest' := by
      have heq : s ++ rest = k.toList ++ y :: rest' := heq
      rw [hcut] at heq
      simpa using heq
    obtain ⟨hword, _⟩ := split_unique (fun ch hch => List.mem_takeWhile_imp hch) (hwords k hk).2 hz
      (Text.isWord_of_isBlank hy) heq
    exact h.2 s ((List.mem_tails _ _).2 htail) k hk hword

theorem passed_name (hp : WordsOnly words p) (hwords : ∀ k ∈ words, k ∈ declarationWords)
    (t : TypeName) : Passed p t.chars := by
  rintro _ ⟨x, more, rfl, hx⟩ hrest
  exact hp.misses_word (fun _ => Text.isWord_of_isBlank)
    (fun k hk => declarationWords_worded k (hwords k hk)) t.worded.2 hx
    (.inl fun k hk => t.chars_ne (hwords k hk)) hrest

theorem passed_type (hp : WordsOnly words p) (hwords : ∀ k ∈ words, k ∈ declarationWords)
    (t : PlainType) : Passed p t.chars := by
  intro rest hbounded hrest
  have hmark : ∀ x, Text.isWord x = false → Misses p [x] := fun x hx =>
    hp.misses_mark (fun k hk => declarationWords_worded k (hwords k hk)) hx
  obtain ⟨base, suffix⟩ := t
  cases suffix with
  | none =>
    rw [PlainType.chars, Suffix.chars, List.append_nil]
    exact passed_name hp hwords base rest hbounded hrest
  | argument type =>
    rw [PlainType.chars, Suffix.chars, List.append_assoc, List.cons_append, List.append_assoc]
    refine passed_name hp hwords base _ (bounded_cons (by decide) _) ?_
    refine Misses.cons (hmark _ (by decide)) ?_
    refine passed_name hp hwords type _ (bounded_cons (by decide) _) ?_
    exact Misses.cons (hmark _ (by decide)) hrest
  | brackets =>
    rw [PlainType.chars, Suffix.chars, List.append_assoc]
    refine passed_name hp hwords base _ (bounded_cons (by decide) _) ?_
    exact Misses.cons (hmark _ (by decide)) (Misses.cons (hmark _ (by decide)) hrest)

theorem passed_joined {sep : List Char} (hsep : Bounded sep) (hmiss : Misses p sep)
    {items : List (List Char)} (h : ∀ item ∈ items, Passed p item) :
    Passed p (joined sep items) := by
  intro rest hbounded hrest
  have htail : ∀ items : List (List Char), (∀ item ∈ items, Passed p item) →
      Bounded (items.flatMap (sep ++ ·) ++ rest) ∧ Misses p (items.flatMap (sep ++ ·) ++ rest) := by
    intro items
    induction items with
    | nil => exact fun _ => ⟨hbounded, hrest⟩
    | cons item items ih =>
      intro h
      obtain ⟨hb, hm⟩ := ih fun i hi => h i (List.mem_cons_of_mem _ hi)
      constructor
      · obtain ⟨x, more, rfl, hx⟩ := hsep
        exact bounded_cons hx _
      · rw [List.flatMap_cons, List.append_assoc, List.append_assoc]
        exact hmiss.append (h item List.mem_cons_self _ hb hm)
  cases items with
  | nil => exact hrest
  | cons item items =>
    obtain ⟨hb, hm⟩ := htail items fun i hi => h i (List.mem_cons_of_mem _ hi)
    rw [joined, List.append_assoc]
    exact h item List.mem_cons_self _ hb hm

theorem passed_dotted (hp : WordsOnly words p) (hwords : ∀ k ∈ words, k ∈ declarationWords)
    (d : DottedName) : Passed p d.chars := by
  have hdot : Misses p ['.'] :=
    hp.misses_mark (fun k hk => declarationWords_worded k (hwords k hk)) (by decide)
  refine passed_joined (bounded_cons (by decide) _) hdot fun item hitem => ?_
  obtain ⟨n, _, rfl⟩ := List.mem_map.1 hitem
  exact passed_name hp hwords n.asType

/-- A package line, for patterns that look for something else. -/
theorem misses_package (hp : WordsOnly words p) (hwords : ∀ k ∈ words, k ∈ declarationWords)
    (hclear : Clear words "package ".toList) (d : DottedName) :
    Misses p ("package ".toList ++ (d.chars ++ [';', '\n'])) := by
  have hword := fun k hk => declarationWords_worded k (hwords k hk)
  refine misses_clear hp hword hclear ?_
  refine passed_dotted hp hwords d _ (bounded_cons (by decide) _) ?_
  exact (hp.misses_mark hword (by decide)).cons (hp.misses_mark hword (by decide))

theorem misses_import (hp : WordsOnly words p) (hwords : ∀ k ∈ words, k ∈ declarationWords)
    (himport : Clear words "import ".toList) (hstatic : Clear words "static ".toList) (i : Import) :
    Misses p i.line := by
  have hword := fun k hk => declarationWords_worded k (hwords k hk)
  have hmark : ∀ {x rest}, Text.isWord x = false → Misses p rest → Misses p (x :: rest) :=
    fun hx hrest => (hp.misses_mark hword hx).cons hrest
  have hend : Misses p [';', '\n'] := hmark (by decide) (hmark (by decide) misses_nil)
  have hname : ∀ rest, Bounded rest → Misses p rest → Misses p (i.name.chars ++ rest) := by
    intro rest hbounded hrest
    rw [QualifiedName.chars, List.append_assoc]
    refine passed_dotted hp hwords _ _ (bounded_cons (by decide) _) (hmark (by decide) ?_)
    exact passed_name hp hwords i.name.name.asType _ hbounded hrest
  unfold Import.line Import.specifier
  refine misses_clear hp hword himport ?_
  split
  · exact hname _ (bounded_cons (by decide) _) hend
  · rw [List.append_assoc]
    exact hname _ (bounded_cons (by decide) _) (hmark (by decide) (hmark (by decide) hend))
  · rw [List.append_assoc]
    exact misses_clear hp hword hstatic (hname _ (bounded_cons (by decide) _) hend)

end Words

/-! ### Behind the header there are no packages and no imports -/

def headerWords : List String := ["package", "import"]

theorem headerWords_declaration : ∀ k ∈ headerWords, k ∈ declarationWords := by decide +kernel

theorem headerWords_worded : ∀ k ∈ headerWords, Worded k.toList := by decide

section Header

variable (hp : WordsOnly headerWords p)

include hp

theorem misses_clear_header {text : List Char} (h : Clear headerWords text)
    (hrest : Misses p rest) : Misses p (text ++ rest) :=
  misses_clear hp headerWords_worded h hrest

theorem misses_mark_header {x : Char} (h : Text.isWord x = false) (hrest : Misses p rest) :
    Misses p (x :: rest) :=
  (hp.misses_mark headerWords_worded h).cons hrest

theorem passed_interfaces (names : List Name) : Passed p (commaList (names.map Name.chars)) := by
  have hcomma : Misses p [',', ' '] :=
    misses_mark_header hp (by decide) (misses_mark_header hp (by decide) misses_nil)
  refine passed_joined (bounded_cons (by decide) _) hcomma fun item hitem => ?_
  obtain ⟨n, _, rfl⟩ := List.mem_map.1 hitem
  exact passed_name hp headerWords_declaration n.asType

theorem passed_parameters (ps : List PlainParameter) :
    Passed p (commaList (ps.map PlainParameter.chars)) := by
  have hcomma : Misses p [',', ' '] :=
    misses_mark_header hp (by decide) (misses_mark_header hp (by decide) misses_nil)
  refine passed_joined (bounded_cons (by decide) _) hcomma fun item hitem => ?_
  obtain ⟨q, _, rfl⟩ := List.mem_map.1 hitem
  intro rest hbounded hrest
  rw [PlainParameter.chars, List.append_assoc]
  refine passed_type hp headerWords_declaration q.type _ (bounded_cons (by decide) _) ?_
  refine misses_mark_header hp (by decide) ?_
  exact passed_name hp headerWords_declaration q.name.asType _ hbounded hrest

theorem misses_modifiers (m : Modifiers) (hrest : Misses p rest) : Misses p (m.chars ++ rest) := by
  have hstatic : Misses p (m.staticText ++ rest) := by
    unfold Modifiers.staticText
    split
    · exact misses_clear_header hp (by decide) hrest
    · exact hrest
  rw [Modifiers.chars, List.append_assoc]
  unfold Modifiers.visibilityText
  split
  · next v _ =>
    have hclear : ∀ v ∈ visibilities, Clear headerWords (v.toList ++ [' ']) := by decide
    exact misses_clear_header hp (hclear v.val v.property) hstatic
  · exact hstatic

/-- The class line. -/
theorem header_misses_classLine (u : PlainUnit) : Misses p u.classLine := by
  have hend : Misses p ([' ', '{', '\n'] ++ []) := misses_clear_header hp (by decide) misses_nil
  have hinterfaces : Bounded (u.interfaceClause ++ [' ', '{', '\n']) ∧
      Misses p (u.interfaceClause ++ [' ', '{', '\n']) := by
    unfold PlainUnit.interfaceClause
    split
    · exact ⟨bounded_cons (by decide) _, hend⟩
    · refine ⟨bounded_cons (by decide) _, ?_⟩
      rw [List.append_assoc]
      refine misses_clear_header hp (by decide) ?_
      exact passed_interfaces hp _ _ (bounded_cons (by decide) _) hend
  have hbase : Bounded (u.baseClause ++ (u.interfaceClause ++ [' ', '{', '\n'])) ∧
      Misses p (u.baseClause ++ (u.interfaceClause ++ [' ', '{', '\n'])) := by
    unfold PlainUnit.baseClause
    split
    · next b _ =>
      refine ⟨bounded_cons (by decide) _, ?_⟩
      rw [List.append_assoc]
      refine misses_clear_header hp (by decide) ?_
      exact passed_name hp headerWords_declaration b.asType _ hinterfaces.1 hinterfaces.2
    · exact hinterfaces
  unfold PlainUnit.classLine
  refine misses_clear_header hp (by decide) ?_
  exact passed_name hp headerWords_declaration u.name.asType _ hbase.1 hbase.2

theorem header_misses_field (f : PlainField) : Misses p f.lines := by
  have hend : Misses p ([';', '\n'] ++ []) := misses_clear_header hp (by decide) misses_nil
  have hline : Misses p ("    ".toList ++ (f.declaration ++ ['\n'])) := by
    rw [PlainField.declaration, List.append_assoc, List.append_assoc, List.cons_append,
      List.append_assoc]
    refine misses_clear_header hp (by decide) (misses_modifiers hp _ ?_)
    refine passed_type hp headerWords_declaration f.type _ (bounded_cons (by decide) _) ?_
    refine misses_mark_header hp (by decide) ?_
    exact passed_name hp headerWords_declaration f.name.asType _ (bounded_cons (by decide) _) hend
  unfold PlainField.lines
  split
  · exact misses_clear_header hp (by decide) hline
  · exact hline

theorem header_misses_call (n : Name) : Misses p (PlainMethod.callLine n) := by
  have hend : Misses p (['(', ')', ';', '\n'] ++ []) :=
    misses_clear_header hp (by decide) misses_nil
  refine misses_clear_header hp (by decide) ?_
  exact passed_name hp headerWords_declaration n.asType _ (bounded_cons (by decide) _) hend

theorem header_misses_method (m : PlainMethod) : Misses p m.lines := by
  have hend : Misses p ("    ".toList ++ ['}', '\n']) :=
    misses_clear_header hp (by decide)
      (misses_mark_header hp (by decide) (misses_mark_header hp (by decide) misses_nil))
  have hbody : Misses p ('{' :: (m.body ++ ['}', '\n'])) := by
    rw [PlainMethod.body, List.cons_append, List.append_assoc]
    refine misses_mark_header hp (by decide) (misses_mark_header hp (by decide) ?_)
    exact (Misses.flatMap fun n _ => header_misses_call hp n).append hend
  have hparams : Misses p (m.name.chars ++ '(' :: (commaList (m.parameters.map PlainParameter.chars)
      ++ [')', ' '] ++ '{' :: (m.body ++ ['}', '\n']))) := by
    refine passed_name hp headerWords_declaration m.name.asType _ (bounded_cons (by decide) _) ?_
    refine misses_mark_header hp (by decide) ?_
    rw [List.append_assoc]
    refine passed_parameters hp m.parameters _ (bounded_cons (by decide) _) ?_
    exact misses_clear_header hp (by decide) hbody
  unfold PlainMethod.lines PlainMethod.signature
  refine misses_clear_header hp (by decide) ?_
  rw [List.append_assoc, List.append_assoc]
  refine misses_modifiers hp _ ?_
  refine passed_type hp headerWords_declaration m.returnType _ (bounded_cons (by decide) _) ?_
  refine misses_mark_header hp (by decide) ?_
  simpa using hparams

end Header

/-! ### Patterns of members -/

/-- A text between words and blanks that is missed, as long as what stands first behind them ends
no declaration. -/
def Crossed (p : Pattern α) (ends item : List Char) : Prop :=
  ∀ s t y more, (∀ ch ∈ s, isPhrase ch = true) → (∀ ch ∈ t, isPhrase ch = true) → Breaks ends y →
    Misses p more → Misses p (s ++ (item ++ (t ++ y :: more)))

theorem phrase_append {s t : List Char} (hs : ∀ ch ∈ s, isPhrase ch = true)
    (ht : ∀ ch ∈ t, isPhrase ch = true) : ∀ ch ∈ s ++ t, isPhrase ch = true := by
  intro ch hch
  rcases List.mem_append.1 hch with h | h
  · exact hs ch h
  · exact ht ch h

theorem TypeName.phrase (t : TypeName) : ∀ ch ∈ t.chars, isPhrase ch = true :=
  fun ch hch => isPhrase_of_isWord (t.worded.2 ch hch)

theorem Modifiers.phrase (m : Modifiers) : ∀ ch ∈ m.chars, isPhrase ch = true := by
  refine phrase_append ?_ ?_
  · unfold Modifiers.visibilityText
    split
    · next v _ =>
      have hall : ∀ v ∈ visibilities, ∀ ch ∈ v.toList ++ [' '], isPhrase ch = true := by decide
      exact hall v.val v.property
    · simp
  · unfold Modifiers.staticText
    split
    · decide
    · simp

section Members

variable {gapped : Bool} {ends : List Char}

theorem crossed_phrase (hp : LeadsOnly gapped ends p) (hends : ProperEnds ends) {item : List Char}
    (hitem : ∀ ch ∈ item, isPhrase ch = true) : Crossed p ends item := by
  intro s t y more hs ht hy hmore
  have h := hp.misses_phrase hends (phrase_append hs (phrase_append hitem ht)) hy hmore
  simpa using h

theorem crossed_type (hp : LeadsOnly gapped ends p) (hends : ProperEnds ends) (hangle : '>' ∉ ends)
    (t : PlainType) : Crossed p ends t.chars := by
  intro s u y more hs hu hy hmore
  obtain ⟨base, suffix⟩ := t
  have hbase := phrase_append hs base.phrase
  cases suffix with
  | none =>
    have h := crossed_phrase hp hends base.phrase s u y more hs hu hy hmore
    simpa [PlainType.chars, Suffix.chars] using h
  | argument type =>
    have h := hp.misses_arguments hends hbase type.phrase hangle hu hy hmore
    simpa [PlainType.chars, Suffix.chars] using h
  | brackets =>
    have h := hp.misses_brackets hends hbase hu hy hmore
    simpa [PlainType.chars, Suffix.chars] using h

theorem Crossed.append_phrase {item u : List Char} (h : Crossed p ends item)
    (hu : ∀ ch ∈ u, isPhrase ch = true) : Crossed p ends (item ++ u) := by
  intro s t y more hs ht hy hmore
  have h := h s (u ++ t) y more hs (phrase_append hu ht) hy hmore
  simpa using h

theorem crossed_joined (hp : LeadsOnly gapped ends p) (hends : ProperEnds ends) {x : Char}
    {sep : List Char} (hx : Breaks ends x) (hsep : ∀ ch ∈ sep, isPhrase ch = true)
    {items : List (List Char)} (h : ∀ item ∈ items, Crossed p ends item) :
    Crossed p ends (joined (x :: sep) items) := by
  intro s t y more hs ht hy hmore
  have htail : ∀ (items : List (List Char)) (s item : List Char), (∀ i ∈ items, Crossed p ends i) →
      Crossed p ends item → (∀ ch ∈ s, isPhrase ch = true) →
        Misses p (s ++ (item ++ (items.flatMap (x :: sep ++ ·) ++ (t ++ y :: more)))) := by
    intro items
    induction items with
    | nil => exact fun s item _ hitem hs => hitem s t y more hs ht hy hmore
    | cons i items ih =>
      intro s item h hitem hs
      have hrest := ih sep i (fun j hj => h j (List.mem_cons_of_mem _ hj))
          (h i List.mem_cons_self) hsep
      have hall := hitem s [] x _ hs (by simp) hx hrest
      simpa using hall
  cases items with
  | nil =>
    have hnil : Crossed p ends [] := crossed_phrase hp hends (by simp)
    exact hnil s t y more hs ht hy hmore
  | cons item items =>
    have hall := htail items s item (fun j hj => h j (List.mem_cons_of_mem _ hj))
      (h item List.mem_cons_self) hs
    rw [joined, List.append_assoc]
    exact hall

theorem crossed_names (hp : LeadsOnly gapped ends p) (hends : ProperEnds ends) {x : Char}
    {sep : List Char} (hx : Breaks ends x) (hsep : ∀ ch ∈ sep, isPhrase ch = true)
    (names : List Name) : Crossed p ends (joined (x :: sep) (names.map Name.chars)) := by
  refine crossed_joined hp hends hx hsep fun item hitem => ?_
  obtain ⟨n, _, rfl⟩ := List.mem_map.1 hitem
  exact crossed_phrase hp hends n.asType.phrase

theorem crossed_parameters (hp : LeadsOnly gapped ends p) (hends : ProperEnds ends)
    (hcomma : Breaks ends ',') (hangle : '>' ∉ ends) (ps : List PlainParameter) :
    Crossed p ends (commaList (ps.map PlainParameter.chars)) := by
  refine crossed_joined hp hends hcomma (by decide) fun item hitem => ?_
  obtain ⟨q, _, rfl⟩ := List.mem_map.1 hitem
  refine (crossed_type hp hends hangle q.type).append_phrase ?_
  exact phrase_append (s := [' ']) (by decide) q.name.asType.phrase

theorem PlainUnit.interfaceClause_eq (u : PlainUnit) :
    ∃ s, (∀ ch ∈ s, isPhrase ch = true) ∧
      u.interfaceClause = s ++ commaList (u.interfaces.map Name.chars) := by
  unfold PlainUnit.interfaceClause
  split
  · next h => exact ⟨[], by simp, by rw [h]; rfl⟩
  · exact ⟨_, by decide, rfl⟩

theorem PlainUnit.baseClause_phrase (u : PlainUnit) : ∀ ch ∈ u.baseClause, isPhrase ch = true := by
  unfold PlainUnit.baseClause
  split
  · next b _ => exact phrase_append (by decide) b.asType.phrase
  · simp

/-- The class line declares no member. -/
theorem member_misses_classLine (hp : LeadsOnly gapped ends p) (hends : ProperEnds ends)
    (hcomma : Breaks ends ',') (hbrace : Breaks ends '{') (u : PlainUnit) :
    Misses p u.classLine := by
  obtain ⟨s, hs, hclause⟩ := u.interfaceClause_eq
  have hstart : ∀ ch ∈ "public class ".toList ++ (u.name.chars ++ (u.baseClause ++ s)),
      isPhrase ch = true :=
    phrase_append (by decide) (phrase_append u.name.asType.phrase
      (phrase_append u.baseClause_phrase hs))
  have hline : Misses p ['\n'] := hp.misses_mark (by decide) (by decide)
  have h := crossed_names hp hends hcomma (show ∀ ch ∈ [' '], isPhrase ch = true by decide)
    u.interfaces _ [' '] '{' ['\n'] hstart (by decide) hbrace hline
  unfold PlainUnit.classLine
  rw [hclause]
  unfold commaList
  simpa only [List.append_assoc, List.cons_append, List.nil_append] using h

theorem crossed_dotted (hp : LeadsOnly gapped ends p) (hends : ProperEnds ends)
    (hdot : Breaks ends '.') (d : DottedName) : Crossed p ends d.chars :=
  crossed_names hp hends hdot (by simp) (d.head :: d.tail)

/-- A qualified name, when its last part is missed. -/
theorem misses_qualified (hp : LeadsOnly gapped ends p) (hends : ProperEnds ends)
    (hdot : Breaks ends '.') (q : QualifiedName) {s tail : List Char}
    (hs : ∀ ch ∈ s, isPhrase ch = true) (htail : Misses p (q.name.chars ++ tail)) :
    Misses p (s ++ (q.chars ++ tail)) := by
  have h := crossed_dotted hp hends hdot q.qualifier s [] '.' _ hs (by simp) hdot htail
  simpa [QualifiedName.chars] using h

/-- An import line, when a single word before a semicolon is missed. -/
theorem member_misses_import (hp : LeadsOnly gapped ends p) (hends : ProperEnds ends)
    (hdot : Breaks ends '.')
    (hlast : ∀ (n : Name) (more : List Char), Misses p more → Misses p (n.chars ++ ';' :: more))
    (i : Import) : Misses p i.line := by
  have hmark : ∀ {x rest}, Text.isWord x = false → x ≠ '@' → Misses p rest → Misses p (x :: rest) :=
    fun hx hat hrest => (hp.misses_mark hx hat).cons hrest
  have hend : Misses p ['\n'] := hmark (by decide) (by decide) misses_nil
  unfold Import.line Import.specifier
  split
  · exact misses_qualified hp hends hdot i.name (by decide) (hlast _ _ hend)
  · rw [List.append_assoc]
    refine misses_qualified hp hends hdot i.name (by decide) ?_
    refine hp.misses_phrase hends i.name.name.asType.phrase hdot ?_
    exact hmark (by decide) (by decide) (hmark (by decide) (by decide) hend)
  · rw [List.append_assoc, ← List.append_assoc]
    exact misses_qualified hp hends hdot i.name (by decide) (hlast _ _ hend)

theorem member_misses_package (hp : LeadsOnly gapped ends p) (hends : ProperEnds ends)
    (hdot : Breaks ends '.') (hsemi : Breaks ends ';') (d : DottedName) :
    Misses p ("package ".toList ++ (d.chars ++ [';', '\n'])) :=
  crossed_dotted hp hends hdot d _ [] ';' ['\n'] (by decide) (by simp) hsemi
    (hp.misses_mark (by decide) (by decide))

theorem member_misses_declaration (hp : LeadsOnly gapped ends p) (hends : ProperEnds ends)
    (hangle : '>' ∉ ends) (hsemi : Breaks ends ';') {s : List Char}
    (hs : ∀ ch ∈ s, isPhrase ch = true) (f : PlainField) :
    Misses p (s ++ (f.declaration ++ ['\n'])) := by
  have hname : ∀ ch ∈ ' ' :: f.name.chars, isPhrase ch = true :=
    phrase_append (s := [' ']) (by decide) f.name.asType.phrase
  have h := crossed_type hp hends hangle f.type _ _ ';' ['\n']
    (phrase_append hs f.modifiers.phrase) hname hsemi (hp.misses_mark (by decide) (by decide))
  simpa [PlainField.declaration] using h

/-- A field's lines, when the place of its annotation is missed. -/
theorem member_misses_field (hp : LeadsOnly gapped ends p) (hends : ProperEnds ends)
    (hangle : '>' ∉ ends) (hsemi : Breaks ends ';') (f : PlainField)
    (hat : ∀ before rest,
      p ⟨before, '@' :: ("Autowired\n    ".toList ++ (f.declaration ++ '\n' :: rest))⟩ = []) :
    Misses p f.lines := by
  unfold PlainField.lines
  split
  · have hline : Misses p ('@' :: ("Autowired\n    ".toList ++ (f.declaration ++ ['\n']))) := by
      refine Misses.cons_of_forall (fun before rest => ?_) ?_
      · have h := hat before rest
        simpa only [List.append_assoc, List.cons_append, List.nil_append] using h
      · exact member_misses_declaration hp hends hangle hsemi (by decide) f
    have hindent : Misses p "    ".toList :=
      misses_of_forall_mem fun ch hch before rest => by
        have hall : ∀ ch ∈ "    ".toList, Text.isWord ch = false ∧ ch ≠ '@' := by decide
        exact hp.eq_nil_of_stops (hall ch hch).1 (hall ch hch).2
    have h := hindent.append hline
    simpa using h
  · exact member_misses_declaration hp hends hangle hsemi (by decide) f

end Members

/-! ### Methods, constructors and fields -/

theorem Modifiers.visibilityText_starts (m : Modifiers) {s : List Char}
    (h : ∃ ch ∈ s.head?, Text.isWord ch = true) :
    ∃ ch ∈ (m.visibilityText ++ s).head?, Text.isWord ch = true := by
  unfold Modifiers.visibilityText
  split
  · next v _ =>
    have hall : ∀ v ∈ visibilities, Worded v.toList := by decide
    rw [List.append_assoc]
    exact (hall v.val v.property).head _
  · exact h

theorem Modifiers.starts (m : Modifiers) {w : List Char} (hw : Worded w) (more : List Char) :
    ∃ ch ∈ (m.chars ++ (w ++ more)).head?, Text.isWord ch = true := by
  rw [Modifiers.chars, List.append_assoc]
  refine m.visibilityText_starts ?_
  unfold Modifiers.staticText
  split
  · have hstatic : Worded "static".toList := by decide
    exact hstatic.head (' ' :: (w ++ more))
  · exact hw.head more

theorem ne_at_of_head {s : List Char} (h : ∃ ch ∈ s.head?, Text.isWord ch = true) :
    ∀ more, s ≠ '@' :: more := by
  rintro more rfl
  obtain ⟨ch, hch, hword⟩ := h
  obtain rfl : '@' = ch := by simpa using hch
  exact absurd hword (by decide)

theorem stops_blank_of_head {s : List Char} (h : ∃ ch ∈ s.head?, Text.isWord ch = true) :
    Stops Text.isBlank s := by
  obtain ⟨x, hx, hword⟩ := h
  intro ch hch
  obtain rfl : x = ch := Option.some.inj (hx.symm.trans hch)
  exact Text.isBlank_of_isWord hword

theorem PlainField.declaration_starts (f : PlainField) (rest : List Char) :
    ∃ ch ∈ (f.declaration ++ rest).head?, Text.isWord ch = true := by
  have h := f.modifiers.starts f.type.base.worded
    (f.type.suffix.chars ++ ' ' :: (f.name.chars ++ ';' :: rest))
  simpa [PlainField.declaration, PlainType.chars] using h

/-- The marker of an injected field is read as an annotation. -/
theorem prefers_autowired {s : List Char} (h : ∃ ch ∈ s.head?, Text.isWord ch = true)
    (before : List Char) :
    annotationItem.Prefers ⟨before, '@' :: ("Autowired\n    ".toList ++ s)⟩ ()
      ⟨"@Autowired\n    ".toList.reverse ++ before, s⟩ := by
  have hitem : annotationItem.Prefers ⟨before,
      '@' :: ("Autowired".toList ++ ("\n    ".toList ++ s))⟩ () _ :=
    prefers_annotationItem (by decide) (by decide) (by decide) (stops_cons (by decide)) (by simp)
      (stops_blank_of_head h)
  simpa using hitem

theorem parenthesis_proper : ProperEnds ['('] := by decide

theorem semicolon_proper : ProperEnds [';', '='] := by decide

theorem method_misses_field (f : PlainField) : Misses methodPattern f.lines := by
  refine member_misses_field methodPattern_leadsOnly parenthesis_proper (by decide) (by decide) f ?_
  intro before rest
  have hstart := f.declaration_starts ('\n' :: rest)
  have hmiss := member_misses_declaration methodPattern_leadsOnly parenthesis_proper (by decide)
    (by decide) (show ∀ ch ∈ ([] : List Char), isPhrase ch = true by simp) f
  rw [methodPattern_of_item (prefers_autowired hstart before)]
  have h := hmiss.eq_nil_at_start (by simp) ("@Autowired\n    ".toList.reverse ++ before) rest
  simpa only [List.append_assoc, List.cons_append, List.nil_append] using h

theorem constructor_misses_field (f : PlainField) : Misses constructorPattern f.lines :=
  member_misses_field constructorPattern_leadsOnly parenthesis_proper (by decide) (by decide) f
    fun before _ => constructorPattern_at before _

/-- Before its methods a plain file has no method and no constructor. -/
theorem member_misses_header {gapped : Bool} (hp : LeadsOnly gapped ['('] p) (u : PlainUnit) :
    Misses p (u.header ++ u.classLine) := by
  refine Misses.append (Misses.append ?_ (Misses.flatMap fun i _ => ?_)) ?_
  · unfold PlainUnit.packageLine
    split
    · exact member_misses_package hp parenthesis_proper (by decide) (by decide) _
    · exact misses_nil
  · refine member_misses_import hp parenthesis_proper (by decide) (fun n more hmore => ?_) i
    exact hp.misses_phrase parenthesis_proper n.asType.phrase (by decide) hmore
  · exact member_misses_classLine hp parenthesis_proper (by decide) (by decide) u

/-- A method's body declares no method: its calls have no type. -/
theorem method_misses_body (m : PlainMethod) : Misses methodPattern (m.body ++ ['}', '\n']) := by
  have hmark : ∀ {x rest}, Text.isWord x = false → x ≠ '@' → Misses methodPattern rest →
      Misses methodPattern (x :: rest) :=
    fun hx hat hrest => (methodPattern_leadsOnly.misses_mark hx hat).cons hrest
  have hend : Misses methodPattern ['}', '\n'] :=
    hmark (by decide) (by decide) (hmark (by decide) (by decide) misses_nil)
  have hcall : ∀ n : Name, Misses methodPattern (PlainMethod.callLine n) := by
    intro n
    refine methodPattern_leadsOnly.misses_spaces (by decide) ?_
    refine methodPattern_leadsOnly.misses_word parenthesis_proper n.asType.phrase
      (fun ch hch => Text.isBlank_of_isWord (n.asType.worded.2 ch hch)) (by decide) ?_
    exact hmark (by decide) (by decide) (hmark (by decide) (by decide)
      (hmark (by decide) (by decide) misses_nil))
  rw [PlainMethod.body, List.cons_append, List.append_assoc]
  refine hmark (by decide) (by decide) (Misses.append (Misses.flatMap fun n _ => hcall n) ?_)
  exact methodPattern_leadsOnly.misses_spaces (by decide) hend

/-- A single word before a semicolon declares no field. -/
theorem field_misses_name (n : Name) {more : List Char} (hmore : Misses fieldPattern more) :
    Misses fieldPattern (n.chars ++ ';' :: more) :=
  fieldPattern_leadsOnly.misses_word semicolon_proper n.asType.phrase
    (fun ch hch => Text.isBlank_of_isWord (n.worded.2 ch hch)) (by decide) hmore

theorem field_misses_import (i : Import) : Misses fieldPattern i.line :=
  member_misses_import fieldPattern_leadsOnly semicolon_proper (by decide)
    (fun n _ hmore => field_misses_name n hmore) i

/-- A method declares no field. -/
theorem field_misses_method (m : PlainMethod) : Misses fieldPattern m.lines := by
  have hmark : ∀ {x rest}, Text.isWord x = false → x ≠ '@' → Misses fieldPattern rest →
      Misses fieldPattern (x :: rest) :=
    fun hx hat hrest => (fieldPattern_leadsOnly.misses_mark hx hat).cons hrest
  have hcall : ∀ n : Name, Misses fieldPattern (PlainMethod.callLine n) := by
    intro n
    refine fieldPattern_leadsOnly.misses_spaces (by decide) ?_
    refine fieldPattern_leadsOnly.misses_phrase semicolon_proper n.asType.phrase (by decide) ?_
    exact hmark (by decide) (by decide) (hmark (by decide) (by decide)
      (hmark (by decide) (by decide) misses_nil))
  have hend : Misses fieldPattern ("    ".toList ++ ['}', '\n']) :=
    fieldPattern_leadsOnly.misses_spaces (by decide)
      (hmark (by decide) (by decide) (hmark (by decide) (by decide) misses_nil))
  have hbody : Misses fieldPattern (' ' :: '{' :: (m.body ++ ['}', '\n'])) := by
    rw [PlainMethod.body, List.cons_append, List.append_assoc]
    refine hmark (by decide) (by decide) (hmark (by decide) (by decide) ?_)
    exact hmark (by decide) (by decide) ((Misses.flatMap fun n _ => hcall n).append hend)
  have hparams := crossed_parameters fieldPattern_leadsOnly semicolon_proper (by decide) (by decide)
    m.parameters [] [] ')' _ (by simp) (by simp) (by decide) hbody
  have hname : ∀ ch ∈ ' ' :: m.name.chars, isPhrase ch = true :=
    phrase_append (s := [' ']) (by decide) m.name.asType.phrase
  have h := crossed_type fieldPattern_leadsOnly semicolon_proper (by decide) m.returnType _ _ '(' _
    (phrase_append (show ∀ ch ∈ "    ".toList, isPhrase ch = true by decide) m.modifiers.phrase)
    hname (by decide) hparams
  unfold PlainMethod.lines PlainMethod.signature
  simpa only [List.append_assoc, List.cons_append, List.nil_append] using h

end ClassAtlas.Plain
