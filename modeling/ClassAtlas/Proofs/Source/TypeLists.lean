import ClassAtlas.Proofs.Plain.Unit
import ClassAtlas.Proofs.Source.TypeErasure
import Mathlib.Logic.Function.Iterate

/-! Type lists whose angle brackets need not be balanced. Every round of the erasure that changes
the text makes it shorter, so the rounds come to an end, and in the text that is left no opening
bracket stands before a closing one. The names of a list keep its brackets in their order, hence a
list that is made of them again is settled and has the same names. -/

namespace ClassAtlas

namespace Pattern

variable {α : Type} {p : Pattern α}

/-! ### Removing matches -/

theorem replaceFrom_nil_sublist (p : Pattern α) (skip : Nat) (before text : List Char) :
    (replaceFrom p [] skip before text).Sublist text := by
  induction text generalizing skip before with
  | nil => exact List.nil_sublist _
  | cons ch rest ih =>
    unfold replaceFrom
    split
    · exact (ih _ _).cons ch
    · split
      · exact (ih _ _).cons ch
      · exact (ih _ _).cons_cons ch

/-- As soon as the pattern reads something in the text, less is left of it. -/
theorem length_replaceFrom_lt {before pre rest : List Char} (hne : rest ≠ [])
    (h : p ⟨pre.reverse ++ before, rest⟩ ≠ []) :
    (replaceFrom p [] 0 before (pre ++ rest)).length < (pre ++ rest).length := by
  induction pre generalizing before with
  | nil =>
    cases rest with
    | nil => exact absurd rfl hne
    | cons ch rest =>
      cases hm : p.matchAt? ⟨before, ch :: rest⟩ with
      | none => exact absurd (matchAt?_eq_none.1 hm) h
      | some m =>
        have hle := (replaceFrom_nil_sublist p (m.length - 1) (ch :: before) rest).length_le
        rw [List.nil_append, replaceFrom, hm]
        simp only [List.nil_append, List.length_cons]
        omega
  | cons ch pre ih =>
    rw [List.cons_append, replaceFrom]
    cases hm : p.matchAt? ⟨before, ch :: (pre ++ rest)⟩ with
    | none =>
      have hlt := @ih (ch :: before) (by simpa using h)
      simp only [List.length_cons]
      omega
    | some m =>
      have hle := (replaceFrom_nil_sublist p (m.length - 1) (ch :: before) (pre ++ rest)).length_le
      simp only [List.nil_append, List.length_cons]
      omega

/-- Nothing is removed from a text in which the pattern reads nothing. -/
theorem replaceFrom_nil_eq_self {before text : List Char}
    (h : ∀ pre rest, text = pre ++ rest → rest ≠ [] → p ⟨pre.reverse ++ before, rest⟩ = []) :
    replaceFrom p [] 0 before text = text := by
  induction text generalizing before with
  | nil => rfl
  | cons ch text ih =>
    have hm := matchAt?_eq_none.2 (h [] (ch :: text) rfl (by simp))
    rw [List.reverse_nil, List.nil_append] at hm
    rw [replaceFrom, hm]
    simp only
    rw [ih]
    intro pre rest htext hne
    have hnil := h (ch :: pre) rest (by rw [htext, List.cons_append]) hne
    simpa using hnil

theorem replace_nil_eq_self_iff {text : List Char} :
    p.replace [] text = text ↔
      ∀ pre rest, text = pre ++ rest → rest ≠ [] → p ⟨pre.reverse, rest⟩ = [] := by
  constructor
  · intro h pre rest htext hne
    by_contra hread
    rw [← List.append_nil pre.reverse] at hread
    have hlt := length_replaceFrom_lt hne hread
    rw [← htext, ← replace, h] at hlt
    exact absurd hlt (lt_irrefl _)
  · intro h
    refine replaceFrom_nil_eq_self ?_
    intro pre rest htext hne
    rw [List.append_nil]
    exact h pre rest htext hne

theorem length_replace_lt {text : List Char} (h : p.replace [] text ≠ text) :
    (p.replace [] text).length < text.length := by
  have hsub := replaceFrom_nil_sublist p 0 [] text
  refine lt_of_le_of_ne hsub.length_le ?_
  intro heq
  exact h (hsub.eq_of_length heq)

end Pattern

namespace Source

open Pattern

/-! ### Rounds -/

/-- One round of the erasure: the text without its innermost type arguments. -/
def eraseRound (text : List Char) : List Char := innermostArguments.replace [] text

/-- So many rounds change the text, and one more round does not. -/
structure RoundsOf (text : List Char) (rounds : Nat) : Prop where
  changes : ∀ k, k < rounds → eraseRound^[k + 1] text ≠ eraseRound^[k] text
  stable : eraseRound^[rounds + 1] text = eraseRound^[rounds] text

theorem RoundsOf.succ {text : List Char} {rounds : Nat} (h : RoundsOf (eraseRound text) rounds)
    (hne : eraseRound text ≠ text) : RoundsOf text (rounds + 1) where
  changes := by
    intro k hk
    cases k with
    | zero => exact hne
    | succ k => exact h.changes k (by omega)
  stable := h.stable

/-- With fuel for every character the erasure goes on until a round changes nothing. -/
theorem eraseTypeArguments_rounds {fuel : Nat} {text : List Char} (hfuel : text.length ≤ fuel) :
    ∃ rounds, rounds ≤ text.length ∧ RoundsOf text rounds ∧
      eraseTypeArguments fuel text = eraseRound^[rounds] text := by
  induction fuel generalizing text with
  | zero =>
    obtain rfl : text = [] := List.eq_nil_of_length_eq_zero (Nat.le_zero.1 hfuel)
    exact ⟨0, Nat.le_refl _, ⟨by omega, rfl⟩, rfl⟩
  | succ fuel ih =>
    unfold eraseTypeArguments
    by_cases hsame : eraseRound text = text
    · refine ⟨0, Nat.zero_le _, ⟨by omega, hsame⟩, ?_⟩
      exact if_pos (beq_iff_eq.2 hsame)
    · have hshorter := length_replace_lt hsame
      obtain ⟨rounds, hle, hrounds, heq⟩ := @ih (eraseRound text) (by unfold eraseRound; omega)
      refine ⟨rounds + 1, ?_, hrounds.succ hsame, ?_⟩
      · unfold eraseRound at hle
        omega
      · rw [Function.iterate_succ_apply, ← heq]
        refine if_neg ?_
        rw [beq_iff_eq]
        exact hsame

/-! ### Settled texts -/

/-- No opening bracket stands before a closing one. -/
def Settled (text : List Char) : Prop := ¬['<', '>'].Sublist text

theorem Settled.getElem? {text : List Char} (h : Settled text) {i j : Nat} (hij : i < j)
    (hopen : text[i]? = some '<') : text[j]? ≠ some '>' := by
  intro hclose
  have hfirst : '<' ∈ text.take j := by
    apply List.mem_of_getElem?
    rw [List.getElem?_take_of_lt hij, hopen]
  have hsecond : '>' ∈ text.drop j := by
    have hget : (text.drop j)[0]? = some '>' := by rw [List.getElem?_drop, Nat.add_zero, hclose]
    exact List.mem_of_getElem? hget
  have hboth := (List.singleton_sublist.2 hfirst).append (List.singleton_sublist.2 hsecond)
  rw [List.take_append_drop] at hboth
  exact h hboth

/-- Where an opening bracket stands before a closing one, two of them have no bracket between. -/
theorem exists_innermost {text : List Char} (h : ['<', '>'].Sublist text) :
    ∃ pre inner rest, text = pre ++ '<' :: (inner ++ '>' :: rest) ∧ '<' ∉ inner ∧ '>' ∉ inner := by
  induction text with
  | nil => simp at h
  | cons ch text ih =>
    by_cases hlater : ['<', '>'].Sublist text
    · obtain ⟨pre, inner, rest, rfl, hopen, hclose⟩ := ih hlater
      exact ⟨ch :: pre, inner, rest, rfl, hopen, hclose⟩
    · -- the first character opens, and the first bracket behind it closes
      cases h with
      | cons _ hsub => exact absurd hsub hlater
      | cons_cons _ hsub =>
        obtain ⟨inner, rest, rfl, hclose⟩ :=
          List.eq_append_cons_of_mem (List.singleton_sublist.1 hsub)
        refine ⟨[], inner, rest, rfl, ?_, hclose⟩
        intro hopen
        exact hlater ((List.singleton_sublist.2 hopen).append (by simp))

theorem sublist_of_mem_innermost {c : Cursor} {r : Unit × Cursor} (h : r ∈ innermostArguments c) :
    ['<', '>'].Sublist c.after := by
  obtain ⟨r₁, h₁, h⟩ := mem_bind.1 h
  obtain ⟨r₂, h₂, h₃⟩ := mem_bind.1 h
  obtain ⟨inner, hrun, _⟩ := mem_run h₂
  have hread := (mem_lit h₁).trans (hrun.trans (mem_lit h₃))
  rw [hread.after_eq]
  change ['<', '>'].Sublist ('<' :: ((inner ++ ['>']) ++ r.2.after))
  exact (List.singleton_sublist.2 (by simp)).cons_cons '<'

theorem eraseRound_eq_self_iff {text : List Char} : eraseRound text = text ↔ Settled text := by
  rw [eraseRound, replace_nil_eq_self_iff]
  constructor
  · intro h hsub
    obtain ⟨pre, inner, rest, htext, hopen, hclose⟩ := exists_innermost hsub
    have hread := (Nested.prefers_innermost hopen hclose pre.reverse rest).mem
    rw [h pre _ htext (by simp)] at hread
    exact absurd hread List.not_mem_nil
  · intro h pre rest htext _
    rw [List.eq_nil_iff_forall_not_mem]
    intro r hr
    apply h
    rw [htext]
    exact (sublist_of_mem_innermost hr).trans (List.sublist_append_right _ _)

/-- The erasure leaves a settled text. -/
theorem settled_eraseTypeArguments (text : List Char) :
    Settled (eraseTypeArguments text.length text) := by
  obtain ⟨rounds, _, hrounds, heq⟩ := eraseTypeArguments_rounds (Nat.le_refl text.length)
  rw [heq, ← eraseRound_eq_self_iff]
  exact (Function.iterate_succ_apply' eraseRound rounds text).symm.trans hrounds.stable

/-- A settled text stays as it is. -/
theorem Settled.eraseTypeArguments_eq {text : List Char} (h : Settled text) (fuel : Nat) :
    eraseTypeArguments fuel text = text := by
  cases fuel with
  | zero => rfl
  | succ fuel =>
    unfold eraseTypeArguments
    exact if_pos (beq_iff_eq.2 (eraseRound_eq_self_iff.2 h))

/-! ### Brackets of the names -/

def isBracket (c : Char) : Bool := c == '<' || c == '>'

/-- Only the order of its brackets decides whether a text is settled. -/
theorem settled_filter_iff {text : List Char} : Settled (text.filter isBracket) ↔ Settled text := by
  constructor
  · intro h hsub
    exact h (hsub.filter isBracket)
  · intro h hsub
    exact h (hsub.trans List.filter_sublist)

theorem filter_intercalate {keep : Char → Bool} {sep : List Char} (hsep : sep.filter keep = [])
    (items : List (List Char)) :
    (sep.intercalate items).filter keep = items.flatMap (·.filter keep) := by
  cases items with
  | nil => rfl
  | cons item items =>
    induction items generalizing item with
    | nil => simp
    | cons next items ih =>
      rw [List.intercalate_cons_cons, List.filter_append, List.filter_append, hsep, List.append_nil,
        ih next, List.flatMap_cons, List.flatMap_cons, List.flatMap_cons]

theorem typeListNames_eq (text : List Char) :
    typeListNames text =
      ((eraseTypeArguments text.length text).splitOn ',').filterMap Text.part? := by
  rw [typeListNames, List.filterMap_map]
  congr 1
  funext piece
  rw [Function.comp_apply, Text.part?]
  cases Text.trimChars piece with
  | nil => rfl
  | cons ch name => rfl

theorem filter_trimChars (text : List Char) :
    (Text.trimChars text).filter isBracket = text.filter isBracket := by
  obtain ⟨ind, gap, hind, hgap, hsplit⟩ := Text.exists_trimChars_eq text
  have hblank : ∀ s : List Char, (∀ ch ∈ s, Text.isBlank ch = true) → s.filter isBracket = [] := by
    intro s hs
    rw [List.filter_eq_nil_iff]
    intro ch hch hbracket
    have hch := hs ch hch
    simp only [isBracket, Bool.or_eq_true, beq_iff_eq] at hbracket
    rcases hbracket with rfl | rfl
    · exact absurd hch (by decide)
    · exact absurd hch (by decide)
  conv_rhs => rw [hsplit, List.filter_append, List.filter_append, hblank ind hind, hblank gap hgap]
  simp

theorem filter_parts (pieces : List (List Char)) :
    ((pieces.filterMap Text.part?).map String.toList).flatMap (·.filter isBracket) =
      pieces.flatMap (·.filter isBracket) := by
  induction pieces with
  | nil => rfl
  | cons piece pieces ih =>
    rw [List.flatMap_cons, ← ih, ← filter_trimChars piece]
    cases hname : Text.trimChars piece with
    | nil => simp [Text.part?, hname]
    | cons ch name => simp [Text.part?, hname]

/-- A list that is made of the names again has the brackets of the erased text. -/
theorem settled_joined_names (text : List Char) :
    Settled (", ".intercalate (typeListNames text)).toList := by
  have hpieces : [','].intercalate ((eraseTypeArguments text.length text).splitOn ',') =
      eraseTypeArguments text.length text := List.intercalate_splitOn ','
  have herased := settled_eraseTypeArguments text
  rw [← hpieces, ← settled_filter_iff, filter_intercalate (by decide), ← filter_parts,
    ← typeListNames_eq] at herased
  rw [String.toList_intercalate, ← settled_filter_iff, filter_intercalate (by decide)]
  exact herased

/-- Erasing type arguments ends after at most as many rounds as there are characters, in a text
where no opening bracket stands before a closing one. The names of the list are proper names, and a
list of just these names has the same ones. -/
theorem typeListNames_normal_form (text : List Char) :
    (∃ rounds, rounds ≤ text.length ∧
      (∀ k, k < rounds → eraseRound^[k + 1] text ≠ eraseRound^[k] text) ∧
      eraseRound^[rounds + 1] text = eraseRound^[rounds] text ∧
      eraseTypeArguments text.length text = eraseRound^[rounds] text) ∧
    (∀ i j : Nat, i < j → (eraseTypeArguments text.length text)[i]? = some '<' →
      (eraseTypeArguments text.length text)[j]? ≠ some '>') ∧
    (∀ name ∈ typeListNames text, name ≠ "" ∧ Text.trim name = name ∧ ',' ∉ name.toList) ∧
    typeListNames (", ".intercalate (typeListNames text)).toList = typeListNames text := by
  refine ⟨?_, ?_, ?_, ?_⟩
  · obtain ⟨rounds, hle, hrounds, heq⟩ := eraseTypeArguments_rounds (Nat.le_refl text.length)
    exact ⟨rounds, hle, hrounds.changes, hrounds.stable, heq⟩
  · intro i j hij hopen
    exact (settled_eraseTypeArguments text).getElem? hij hopen
  · intro name hname
    rw [typeListNames_eq] at hname
    have h := Text.part_of_mem hname
    refine ⟨?_, ?_, h.single⟩
    · rintro rfl
      exact h.nonempty rfl
    · rw [Text.trim, h.trimmed.trimChars_eq, String.ofList_toList]
  · rw [typeListNames_eq, (settled_joined_names text).eraseTypeArguments_eq]
    refine Plain.filterMap_part?_intercalate ?_
    intro name hname
    rw [typeListNames_eq] at hname
    exact Text.part_of_mem hname

theorem typeListNames_normal_form_unbalanced :
    typeListNames "A<B>> , C<D<E, F>, <G".toList = ["A>", "C<D", "<G"] ∧
      typeListNames (", ".intercalate ["A>", "C<D", "<G"]).toList = ["A>", "C<D", "<G"] := by
  have hnames : typeListNames "A<B>> , C<D<E, F>, <G".toList = ["A>", "C<D", "<G"] := by
    decide +kernel
  have hagain := (typeListNames_normal_form "A<B>> , C<D<E, F>, <G".toList).2.2.2
  rw [hnames] at hagain
  exact ⟨hnames, hagain⟩

end Source

end ClassAtlas
