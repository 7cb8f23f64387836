import ClassAtlas.Proofs.Source.Spans

/-! The end of a block as the one position that balances its braces. The depth of a count is the
surplus of opening braces in the text counted so far, so the count ends at the first position where
the surplus is gone, and two positions that balance the same block cannot differ. -/

namespace ClassAtlas.Source

/-! ### Surplus of braces -/

/-- How many more braces a text opens than it closes. -/
def surplus (text : List Char) : Int := text.count '{' - text.count '}'

theorem surplus_cons (c : Char) (text : List Char) :
    surplus (c :: text) = surplus [c] + surplus text := by
  simp only [surplus, List.count_cons, List.count_nil]
  omega

theorem surplus_open : surplus ['{'] = 1 := rfl

theorem surplus_close : surplus ['}'] = -1 := rfl

theorem surplus_other {c : Char} (hopen : c ≠ '{') (hclose : c ≠ '}') : surplus [c] = 0 := by
  simp [surplus, hopen, hclose]

theorem surplus_pos {text : List Char} :
    0 < surplus text ↔ text.count '}' < text.count '{' := by
  unfold surplus
  omega

theorem surplus_eq_zero {text : List Char} :
    surplus text = 0 ↔ text.count '{' = text.count '}' := by
  unfold surplus
  omega

/-! ### The count -/

/-- Counted on from a depth, the text never closes the block. -/
def StaysOpen (depth : Int) (text : List Char) : Prop := ∀ k, 0 < depth + surplus (text.take k)

/-- Counted on from a depth, the text closes the block with the brace behind `k` characters. -/
structure ClosesAfter (depth : Int) (text : List Char) (k : Nat) : Prop where
  brace : text[k]? = some '}'
  balanced : depth + surplus (text.take (k + 1)) = 0
  inside : ∀ i, i ≤ k → 0 < depth + surplus (text.take i)

/-- What a count that starts at a position inside a block has found. -/
def Counted (depth : Int) (position : Nat) (text : List Char) : Option Nat → Prop
  | none => StaysOpen depth text
  | some stop => ∃ k, stop = position + k ∧ ClosesAfter depth text k

section Step

variable {depth next : Int} {c : Char} {text : List Char}

theorem surplus_take_cons (hd : 0 < depth) (hnext : next = depth + surplus [c]) {i : Nat}
    (h : ∀ j, i = j + 1 → 0 < next + surplus (text.take j)) :
    0 < depth + surplus ((c :: text).take i) := by
  cases i with
  | zero => simpa [surplus] using hd
  | succ j =>
    rw [List.take_succ_cons, surplus_cons]
    have hj := h j rfl
    omega

/-- One character moves the depth by its own surplus, and the count goes on behind it. -/
theorem Counted.cons (hd : 0 < depth) (hnext : next = depth + surplus [c]) {position : Nat}
    {found : Option Nat} (h : Counted next (position + 1) text found) :
    Counted depth position (c :: text) found := by
  cases found with
  | none => exact fun k => surplus_take_cons hd hnext fun j _ => h j
  | some stop =>
    obtain ⟨k, hstop, hk⟩ := h
    refine ⟨k + 1, by omega, ?_, ?_, ?_⟩
    · rw [List.getElem?_cons_succ, hk.brace]
    · rw [List.take_succ_cons, surplus_cons]
      have hbalanced := hk.balanced
      omega
    · intro i hi
      exact surplus_take_cons hd hnext fun j hj => hk.inside j (by omega)

end Step

theorem blockEndFrom_counted {depth : Int} (hd : 0 < depth) (position : Nat) (text : List Char) :
    Counted depth position text (blockEndFrom depth position text) := by
  induction text generalizing depth position with
  | nil =>
    intro k
    simpa [surplus] using hd
  | cons c rest ih =>
    unfold blockEndFrom
    by_cases hopen : c = '{'
    · subst hopen
      exact .cons hd (by rw [surplus_open]) (ih (by omega) (position + 1))
    · rw [if_neg (by simpa using hopen)]
      by_cases hclose : c = '}'
      · subst hclose
        rw [if_pos (by decide)]
        by_cases hlast : depth - 1 = 0
        · rw [if_pos (by simpa using hlast)]
          refine ⟨0, rfl, rfl, ?_, ?_⟩
          · rw [List.take_succ_cons, List.take_zero, surplus_close]
            omega
          · intro i hi
            obtain rfl : i = 0 := by omega
            simpa [surplus] using hd
        · rw [if_neg (by simpa using hlast)]
          exact .cons hd (by rw [surplus_close]; omega) (ih (by omega) (position + 1))
      · rw [if_neg (by simpa using hclose)]
        exact .cons hd (by rw [surplus_other hopen hclose]; omega) (ih hd (position + 1))

/-! ### Positions of a source -/

/-- The position ends the block that is opened at `opening`: at every position before it the block
has opened more braces than it has closed, and it is a closing brace that makes both equal, or the
end of the source. -/
structure EndsBlock (content : List Char) (opening stop : Nat) : Prop where
  opening_le : opening ≤ stop
  open_before : ∀ j, opening ≤ j → j < stop →
    (content.extract opening (j + 1)).count '}' < (content.extract opening (j + 1)).count '{'
  closed : stop < content.length ∧ content[stop]? = some '}' ∧
      (content.extract opening (stop + 1)).count '{' =
        (content.extract opening (stop + 1)).count '}' ∨
    stop = content.length

theorem EndsBlock.le_length {content : List Char} {opening stop : Nat}
    (h : EndsBlock content opening stop) : stop ≤ content.length := by
  rcases h.closed with ⟨hlt, _⟩ | heq
  · exact hlt.le
  · exact heq.le

/-- An earlier end would leave the block balanced at a position where a later one has it open. -/
theorem EndsBlock.not_lt {content : List Char} {opening stop stop' : Nat}
    (h : EndsBlock content opening stop) (h' : EndsBlock content opening stop') :
    ¬stop < stop' := by
  intro hlt
  have hopen := h'.open_before stop h.opening_le hlt
  have hle := h'.le_length
  rcases h.closed with ⟨_, _, hbalanced⟩ | hend
  · omega
  · omega

theorem EndsBlock.unique {content : List Char} {opening stop stop' : Nat}
    (h : EndsBlock content opening stop) (h' : EndsBlock content opening stop') : stop = stop' := by
  have hlt := h.not_lt h'
  have hgt := h'.not_lt h
  omega

theorem surplus_extract {content rest : List Char} {opening : Nat}
    (h : content.drop opening = '{' :: rest) {j : Nat} (hj : opening ≤ j) :
    surplus (content.extract opening (j + 1)) = 1 + surplus (rest.take (j - opening)) := by
  have hlen : j + 1 - opening = (j - opening) + 1 := by omega
  rw [List.extract_eq_take_drop, h, hlen, List.take_succ_cons, surplus_cons, surplus_open]

theorem endsBlock_blockEnd {content : List Char} {opening : Nat}
    (h : content[opening]? = some '{') :
    EndsBlock content opening (blockEnd (.ofPosition content opening)) := by
  obtain ⟨hlt, hget⟩ := List.getElem?_eq_some_iff.1 h
  have hdrop : content.drop opening = '{' :: content.drop (opening + 1) := by
    rw [List.drop_eq_getElem_cons hlt, hget]
  have hoffset := Cursor.offset_ofPosition hlt.le
  have hend : blockEnd (.ofPosition content opening) =
      (blockEndFrom 1 (opening + 1) (content.drop (opening + 1))).getD content.length := by
    rw [blockEnd_of_opens hdrop, hoffset, Cursor.text_ofPosition]
  have hcount := blockEndFrom_counted Int.one_pos (opening + 1) (content.drop (opening + 1))
  rw [hend]
  cases hfound : blockEndFrom 1 (opening + 1) (content.drop (opening + 1)) with
  | none =>
    rw [hfound] at hcount
    refine ⟨hlt.le, ?_, .inr rfl⟩
    intro j hj _
    rw [← surplus_pos, surplus_extract hdrop hj]
    exact hcount _
  | some stop =>
    rw [hfound] at hcount
    obtain ⟨k, rfl, hk⟩ := hcount
    have hbrace := hk.brace
    rw [List.getElem?_drop] at hbrace
    refine ⟨by rw [Option.getD_some]; omega, ?_, .inl ⟨?_, hbrace, ?_⟩⟩
    · intro j hj hlt'
      rw [Option.getD_some] at hlt'
      rw [← surplus_pos, surplus_extract hdrop hj]
      exact hk.inside _ (by omega)
    · exact (List.getElem?_eq_some_iff.1 hbrace).1
    · rw [Option.getD_some, ← surplus_eq_zero, surplus_extract hdrop (by omega)]
      have hlen : opening + 1 + k - opening = k + 1 := by omega
      rw [hlen]
      exact hk.balanced

/-- The end that is found for a block is the only position that ends it. -/
theorem blockEnd_eq_iff_endsBlock {content : List Char} {opening : Nat}
    (h : content[opening]? = some '{') (stop : Nat) :
    blockEnd (.ofPosition content opening) = stop ↔ EndsBlock content opening stop := by
  constructor
  · rintro rfl
    exact endsBlock_blockEnd h
  · exact (endsBlock_blockEnd h).unique

/-- A block with another one inside, behind a brace that closes nothing, and one that never ends. -/
theorem blockEnd_eq_iff_endsBlock_nested :
    EndsBlock "\x7d\x7b \x7b\x7d \x7d\x7d".toList 1 6 ∧ EndsBlock "\x7b\x7b \x7d".toList 0 4 :=
  ⟨(blockEnd_eq_iff_endsBlock (by decide) 6).1 (by decide),
    (blockEnd_eq_iff_endsBlock (by decide) 4).1 (by decide)⟩

end ClassAtlas.Source
