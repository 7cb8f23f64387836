import ClassAtlas.Proofs.Source.Keywords

/-! Plain names and types: words of letters and digits that no pattern takes for a keyword. -/

namespace ClassAtlas.Plain

open Source Pattern

/-- The keywords of the language. -/
def keywords : List String :=
  ["abstract", "assert", "boolean", "break", "byte", "case", "catch", "char", "class", "const",
   "continue", "default", "do", "double", "else", "enum", "extends", "final", "finally", "float",
   "for", "goto", "if", "implements", "import", "instanceof", "int", "interface", "long", "native",
   "new", "package", "private", "protected", "public", "return", "short", "static", "strictfp",
   "super", "switch", "synchronized", "this", "throw", "throws", "transient", "try", "void",
   "volatile", "while"]

def reserved : List String := keywords ++ statementKeywords

/-- A letter, then letters and digits, and not a reserved word. -/
def isName : List Char → Bool
  | [] => false
  | c :: rest =>
    c.isAlpha && rest.all Char.isAlphanum && !reserved.contains (String.ofList (c :: rest))

structure Name where
  chars : List Char
  proper : isName chars = true
deriving DecidableEq

def Name.of (s : String) (proper : isName s.toList = true := by decide +kernel) : Name :=
  ⟨s.toList, proper⟩

/-- The class name of the small samples. -/
def Name.sample : Name := .of "N"

def Name.text (n : Name) : String := String.ofList n.chars

/-- A name or a primitive type. -/
structure TypeName where
  chars : List Char
  proper : (isName chars || primitiveTypes.contains (String.ofList chars)) = true
deriving DecidableEq

def TypeName.of (s : String)
    (proper : (isName s.toList || primitiveTypes.contains (String.ofList s.toList)) = true := by
      decide +kernel) : TypeName :=
  ⟨s.toList, proper⟩

def TypeName.text (t : TypeName) : String := String.ofList t.chars

def Name.asType (n : Name) : TypeName := ⟨n.chars, by rw [n.proper, Bool.true_or]⟩

/-- What may follow the name in a type. -/
inductive Suffix where
  | none
  | argument (type : TypeName)
  | brackets
deriving DecidableEq

def Suffix.chars : Suffix → List Char
  | none => []
  | argument type => '<' :: (type.chars ++ ['>'])
  | brackets => ['[', ']']

structure PlainType where
  base : TypeName
  suffix : Suffix
deriving DecidableEq

namespace PlainType

def chars (t : PlainType) : List Char := t.base.chars ++ t.suffix.chars

def text (t : PlainType) : String := String.ofList t.chars

/-- The names that stand in a type. -/
def names (t : PlainType) : List TypeName :=
  match t.suffix with
  | .argument type => [t.base, type]
  | _ => [t.base]

end PlainType

/-! ### The characters of names -/

theorem toNat_lt_of_isAlphanum {c : Char} (h : c.isAlphanum = true) : c.toNat < 128 := by
  unfold Char.isAlphanum Char.isAlpha Char.isUpper Char.isLower Char.isDigit at h
  simp only [Bool.or_eq_true, Bool.and_eq_true, decide_eq_true_eq, ge_iff_le,
    UInt32.le_iff_toNat_le] at h
  simp at h
  omega

theorem isWord_of_isAlphanum {c : Char} (h : c.isAlphanum = true) : Text.isWord c = true := by
  simp [Text.isWord, toNat_lt_of_isAlphanum h, h]

/-- Words that a plain type never is. -/
def declarationWords : List String := reserved.filter fun w => !primitiveTypes.contains w

namespace TypeName

variable (t : TypeName)

theorem starts : ∃ ch rest, t.chars = ch :: rest ∧ ch.isAlpha = true ∧
    ∀ x ∈ rest, x.isAlphanum = true := by
  obtain ⟨chars, proper⟩ := t
  rcases Bool.or_eq_true_iff.1 proper with h | h
  · cases chars with
    | nil => simp [isName] at h
    | cons ch rest =>
      simp only [isName, Bool.and_eq_true, List.all_eq_true] at h
      exact ⟨ch, rest, rfl, h.1.1, h.1.2⟩
  · have hall : ∀ w ∈ primitiveTypes, ∃ ch rest, w.toList = ch :: rest ∧ ch.isAlpha = true ∧
        ∀ x ∈ rest, x.isAlphanum = true := by
      have hdec : ∀ w ∈ primitiveTypes, w.toList ≠ [] ∧ w.toList.head?.all Char.isAlpha = true ∧
        ∀ x ∈ w.toList.tail, x.isAlphanum = true := by decide
      intro w hw
      obtain ⟨hne, hhead, htail⟩ := hdec w hw
      cases hl : w.toList with
      | nil => exact absurd hl hne
      | cons ch rest =>
        rw [hl] at hhead htail
        exact ⟨ch, rest, rfl, by simpa using hhead, htail⟩
    have hw := hall _ (List.contains_iff_mem.1 h)
    simpa using hw

theorem isAlphanum {ch : Char} (h : ch ∈ t.chars) : ch.isAlphanum = true := by
  obtain ⟨x, rest, heq, hx, hrest⟩ := t.starts
  rw [heq] at h
  rcases List.mem_cons.1 h with rfl | h
  · simp [Char.isAlphanum, hx]
  · exact hrest ch h

theorem worded : Worded t.chars := by
  refine ⟨?_, fun ch h => isWord_of_isAlphanum (t.isAlphanum h)⟩
  obtain ⟨ch, rest, heq, _⟩ := t.starts
  simp [heq]

theorem chars_ne {w : String} (hw : w ∈ declarationWords) : w.toList ≠ t.chars := by
  obtain ⟨chars, proper⟩ := t
  rintro rfl
  obtain ⟨hres, hprim⟩ := List.mem_filter.1 hw
  rcases Bool.or_eq_true_iff.1 proper with h | h
  · cases hl : w.toList with
    | nil => simp [hl, isName] at h
    | cons ch rest =>
      rw [hl, isName, ← hl, String.ofList_toList] at h
      simp [hres] at h
  · rw [String.ofList_toList] at h
    rw [h] at hprim
    simp at hprim

theorem text_ne {w : String} (hw : w ∈ declarationWords) : t.text ≠ w := by
  intro h
  refine t.chars_ne hw ?_
  rw [← h, text, String.toList_ofList]

theorem text_not_mem {words : List String} (hw : ∀ w ∈ words, w ∈ declarationWords) :
    t.text ∉ words := fun h => t.text_ne (hw _ h) rfl

end TypeName

theorem Name.worded (n : Name) : Worded n.chars := n.asType.worded

theorem Name.not_mem (n : Name) {ch : Char} (h : Text.isWord ch = false) : ch ∉ n.chars := by
  intro hmem
  rw [n.worded.2 ch hmem] at h
  simp at h

theorem Suffix.stops (s : Suffix) {ch : Char} (hch : Text.isWord ch = false) (rest : List Char) :
    Stops Text.isWord (s.chars ++ ch :: rest) := by
  cases s with
  | none => exact stops_cons hch
  | argument type => exact stops_cons (by decide)
  | brackets => exact stops_cons (by decide)

end ClassAtlas.Plain
