import ClassAtlas.Json.Write
import ClassAtlas.Proofs.Json.Grammar

/-! What is written follows the standard grammar and spells the value that it was written for. With
escapes it is pure ASCII. Both are shown for values without numbers. -/

namespace ClassAtlas.Json

/-! ### Strings -/

theorem digitChar_eq {d : Nat} (h : d < 16) :
    "0123456789abcdef".toList[d]? = some (Nat.digitChar d) := by
  have hall : ∀ d < 16, "0123456789abcdef".toList[d]? = some (Nat.digitChar d) := by decide
  exact hall d h

theorem hexDigits_four (n : Nat) :
    Text.hexDigits 4 n = [Nat.digitChar (n / 16 ^ 3 % 16), Nat.digitChar (n / 16 ^ 2 % 16),
      Nat.digitChar (n / 16 % 16), Nat.digitChar (n % 16)] := by
  simp [Text.hexDigits, List.range_succ]

theorem unitText_hexDigits {n : Nat} (h : n < 0x10000) : UnitText (Text.hexDigits 4 n) n := by
  have hdigit : ∀ k, HexDigit (Nat.digitChar (k % 16)) (k % 16) :=
    fun k => .inl (digitChar_eq (Nat.mod_lt k (by decide)))
  have hn : n / 16 ^ 3 % 16 * 16 ^ 3 + n / 16 ^ 2 % 16 * 16 ^ 2 + n / 16 % 16 * 16 + n % 16 =
      n := by omega
  have htext := UnitText.digits (hdigit (n / 16 ^ 3)) (hdigit (n / 16 ^ 2)) (hdigit (n / 16))
    (hdigit n)
  rwa [hn, ← hexDigits_four] at htext

/-- An escape, or a pair of escapes, spells its character. -/
theorem charText_escapeChar (c : Char) : CharText (escapeChar c) c := by
  have hvalid : c.toNat < 0xd800 ∨ 0xdfff < c.toNat ∧ c.toNat < 0x110000 := c.valid
  unfold escapeChar
  split
  · next hsmall =>
    have htext := CharText.unit (unitText_hexDigits hsmall) (by omega)
    rwa [Char.ofNat_toNat] at htext
  · next hlarge =>
    have hhigh : 0xd800 + (c.toNat - 0x10000) / 0x400 < 0x10000 := by omega
    have hlow : 0xdc00 + (c.toNat - 0x10000) % 0x400 < 0x10000 := by omega
    have htext := CharText.pair (unitText_hexDigits hhigh) (unitText_hexDigits hlow)
      (by omega) (by omega)
    have hcode : 0x10000 + (0xd800 + (c.toNat - 0x10000) / 0x400 - 0xd800) * 0x400 +
        (0xdc00 + (c.toNat - 0x10000) % 0x400 - 0xdc00) = c.toNat := by omega
    rwa [hcode, Char.ofNat_toNat] at htext

/-- A character is written as a short escape, as its code, or as it is. -/
theorem writeChar_cases (ascii : Bool) (c : Char) :
    (∃ letter, (letter, c) ∈ shortEscapes ∧ writeChar ascii c = ['\\', letter]) ∨
      writeChar ascii c = escapeChar c ∨
      writeChar ascii c = [c] ∧ 0x20 ≤ c.toNat ∧ c ≠ '"' ∧ c ≠ '\\' ∧
        (ascii = true → c.toNat < 0x7f) := by
  by_cases hself : (c == '"' || c == '\\') = true
  · refine .inl ⟨c, ?_, by rw [writeChar, if_pos hself]⟩
    rcases Bool.or_eq_true_iff.1 hself with h | h <;> obtain rfl := eq_of_beq h <;> decide
  by_cases hshort : c ∈ ['\n', '\r', '\t', '\x08', '\x0c']
  · have hall : ∀ c ∈ ['\n', '\r', '\t', '\x08', '\x0c'], ∃ e ∈ shortEscapes, e.2 = c ∧
        writeChar ascii c = ['\\', e.1] := by
      cases ascii <;> decide
    obtain ⟨e, he, rfl, hwrite⟩ := hall c hshort
    exact .inl ⟨e.1, he, hwrite⟩
  have hplain : writeChar ascii c =
      if c.toNat < 0x20 || (ascii && 0x7f ≤ c.toNat) then escapeChar c else [c] := by
    simp only [List.mem_cons, List.not_mem_nil, or_false, not_or, ← beq_eq_false_iff_ne] at hshort
    simp [writeChar, hself, hshort]
  by_cases hcode : (c.toNat < 0x20 || (ascii && 0x7f ≤ c.toNat)) = true
  · exact .inr (.inl (by rw [hplain, if_pos hcode]))
  · obtain ⟨hquote, hbackslash⟩ : c ≠ '"' ∧ c ≠ '\\' := by simpa using hself
    obtain ⟨hcontrol, hascii⟩ : 0x20 ≤ c.toNat ∧ (ascii = true → c.toNat < 0x7f) := by
      simpa using hcode
    exact .inr (.inr ⟨by rw [hplain, if_neg hcode], hcontrol, hquote, hbackslash, hascii⟩)

theorem charText_writeChar (ascii : Bool) (c : Char) : CharText (writeChar ascii c) c := by
  obtain ⟨letter, hmem, h⟩ | h | ⟨h, hcontrol, hquote, hbackslash, _⟩ := writeChar_cases ascii c
  · exact h ▸ .short hmem
  · exact h ▸ charText_escapeChar c
  · exact h ▸ .plain hcontrol hquote hbackslash

theorem charsText_flatMap (ascii : Bool) (chars : List Char) :
    CharsText (chars.flatMap (writeChar ascii)) chars := by
  induction chars with
  | nil => exact .nil
  | cons c chars ih =>
    rw [List.flatMap_cons]
    exact .cons (charText_writeChar ascii c) ih

theorem stringText_writeString (ascii : Bool) (s : String) :
    StringText (writeString ascii s) s :=
  .quoted (charsText_flatMap ascii s.toList)

/-! ### Values -/

/-- The values without numbers. -/
inductive NumberFree : Json → Prop where
  | null : NumberFree null
  | bool (b : Bool) : NumberFree (bool b)
  | string (s : String) : NumberFree (string s)
  | array {vs : List Json} (h : ∀ v ∈ vs, NumberFree v) : NumberFree (array vs)
  | object {ms : List (String × Json)} (h : ∀ m ∈ ms, NumberFree m.2) : NumberFree (object ms)

section Layout

variable (style : Style) (depth : Nat)

-- The writer's equations hold by computation, which is faster than to derive them.

theorem writeChars_array (v : Json) (vs : List Json) :
    writeChars style depth (array (v :: vs)) =
      '[' :: style.lineBreak (depth + 1) ++ writeChars style (depth + 1) v ++
        writeItems style (depth + 1) vs ++ style.lineBreak depth ++ [']'] := rfl

theorem writeItems_cons (v : Json) (vs : List Json) :
    writeItems style depth (v :: vs) =
      style.separator depth ++ writeChars style depth v ++ writeItems style depth vs := rfl

theorem writeChars_object (m : String × Json) (ms : List (String × Json)) :
    writeChars style depth (object (m :: ms)) =
      '\x7b' :: style.lineBreak (depth + 1) ++ writeString style.ascii m.1 ++ [':', ' '] ++
        writeChars style (depth + 1) m.2 ++ writeMembers style (depth + 1) ms ++
        style.lineBreak depth ++ ['\x7d'] := rfl

theorem writeMembers_nil : writeMembers style depth [] = [] := rfl

theorem writeMembers_cons (m : String × Json) (ms : List (String × Json)) :
    writeMembers style depth (m :: ms) =
      style.separator depth ++ writeString style.ascii m.1 ++ [':', ' '] ++
        writeChars style depth m.2 ++ writeMembers style depth ms := rfl

theorem space_lineBreak : Space (style.lineBreak depth) := by
  unfold Style.lineBreak
  cases style.indent with
  | none => exact space_nil
  | some width =>
    simp only [Space, List.mem_cons, List.mem_replicate]
    rintro ch (rfl | ⟨_, rfl⟩) <;> simp

/-- Items are separated by a comma and space. -/
theorem exists_separator : ∃ space, Space space ∧ style.separator depth = ',' :: space := by
  unfold Style.separator
  cases style.indent with
  | none => exact ⟨[' '], by simp [Space], rfl⟩
  | some width => exact ⟨style.lineBreak depth, space_lineBreak style depth, rfl⟩

variable {style depth}

theorem spells_items {vs : List Json} {v : Json}
    (h : ∀ w ∈ v :: vs, Spells (writeChars style depth w) (.value w)) {space : List Char}
    (hspace : Space space) :
    Spells (writeChars style depth v ++ (writeItems style depth vs ++ space))
      (.items (v :: vs)) := by
  induction vs generalizing v with
  | nil => exact .lastItem (h v List.mem_cons_self) hspace
  | cons w vs ih =>
    obtain ⟨gap, hgap, hseparator⟩ := exists_separator style depth
    have hrest := ih fun u hu => h u (List.mem_cons_of_mem _ hu)
    have hitem := Spells.item (h v List.mem_cons_self) space_nil hgap hrest
    simpa [writeItems_cons, hseparator] using hitem

theorem spells_members {ms : List (String × Json)} {m : String × Json}
    (h : ∀ n ∈ m :: ms, Spells (writeChars style depth n.2) (.value n.2)) {space : List Char}
    (hspace : Space space) :
    Spells (writeString style.ascii m.1 ++ [':', ' '] ++ writeChars style depth m.2 ++
      (writeMembers style depth ms ++ space)) (.members (m :: ms)) := by
  have hone : Space [' '] := by simp [Space]
  induction ms generalizing m with
  | nil =>
    have hmember := Spells.lastMember (stringText_writeString style.ascii m.1) space_nil hone
      (h m List.mem_cons_self) hspace
    simpa [writeMembers_nil] using hmember
  | cons n ms ih =>
    obtain ⟨gap, hgap, hseparator⟩ := exists_separator style depth
    have hrest := ih fun u hu => h u (List.mem_cons_of_mem _ hu)
    have hmember := Spells.member (stringText_writeString style.ascii m.1) space_nil hone
      (h m List.mem_cons_self) space_nil hgap hrest
    simpa [writeMembers_cons, hseparator] using hmember

end Layout

theorem NumberFree.spells {v : Json} (h : NumberFree v) (style : Style) (depth : Nat) :
    Spells (writeChars style depth v) (.value v) := by
  induction h generalizing depth with
  | null => exact .nullName
  | bool b => cases b with
    | true => exact .trueName
    | false => exact .falseName
  | string s => exact .string (stringText_writeString style.ascii s)
  | @array vs _ ih =>
    cases vs with
    | nil => exact .emptyArray space_nil
    | cons v vs =>
      have hitems := spells_items (fun w hw => ih w hw (depth + 1)) (space_lineBreak style depth)
      simpa [writeChars_array] using Spells.array (space_lineBreak style (depth + 1)) hitems
  | @object ms _ ih =>
    cases ms with
    | nil => exact .emptyObject space_nil
    | cons m ms =>
      have hmembers := spells_members (fun m hm => ih m hm (depth + 1))
        (space_lineBreak style depth)
      simpa [writeChars_object] using Spells.object (space_lineBreak style (depth + 1)) hmembers

theorem NumberFree.denotes {v : Json} (h : NumberFree v) (style : Style) :
    Denotes (write style v) v := by
  refine ⟨[], writeChars style 0 v, [], space_nil, h.spells style 0, space_nil, ?_⟩
  rw [write, String.toList_ofList, List.append_nil, List.nil_append]

/-! ### Escapes for all but ASCII -/

def Ascii (text : List Char) : Prop := ∀ ch ∈ text, ch.toNat < 128

@[simp] theorem ascii_nil : Ascii [] := by simp [Ascii]

@[simp] theorem ascii_cons {ch : Char} {text : List Char} :
    Ascii (ch :: text) ↔ ch.toNat < 128 ∧ Ascii text := by simp [Ascii]

@[simp] theorem ascii_append {text rest : List Char} :
    Ascii (text ++ rest) ↔ Ascii text ∧ Ascii rest := by simp [Ascii, or_imp, forall_and]

theorem ascii_unicodeEscape (n : Nat) : Ascii (unicodeEscape n) := by
  have hall : ∀ d < 16, (Nat.digitChar d).toNat < 128 := by decide
  have hdigit : ∀ k, (Nat.digitChar (k % 16)).toNat < 128 :=
    fun k => hall (k % 16) (Nat.mod_lt k (by decide))
  simp [unicodeEscape, hexDigits_four, hdigit]

theorem ascii_escapeChar (c : Char) : Ascii (escapeChar c) := by
  unfold escapeChar
  split
  · exact ascii_unicodeEscape _
  · exact ascii_append.2 ⟨ascii_unicodeEscape _, ascii_unicodeEscape _⟩

theorem ascii_writeChar (c : Char) : Ascii (writeChar true c) := by
  obtain ⟨letter, hmem, h⟩ | h | ⟨h, _, _, _, hplain⟩ := writeChar_cases true c
  · have hall : ∀ e ∈ shortEscapes, e.1.toNat < 128 := by decide
    have hletter : letter.toNat < 128 := hall _ hmem
    simp [h, hletter]
  · exact h ▸ ascii_escapeChar c
  · have hc : c.toNat < 128 := Nat.lt_succ_of_lt (hplain rfl)
    simp [h, hc]

theorem ascii_writeString (s : String) : Ascii (writeString true s) := by
  have hchars : Ascii (s.toList.flatMap (writeChar true)) := by
    intro ch hch
    obtain ⟨c, _, hc⟩ := List.mem_flatMap.1 hch
    exact ascii_writeChar c ch hc
  simp [writeString, hchars]

section Layout

variable {indent : Option Nat} {depth : Nat}

theorem ascii_space {space : List Char} (h : Space space) : Ascii space := by
  have hall : ∀ ch ∈ [' ', '\t', '\n', '\r'], ch.toNat < 128 := by decide
  exact fun ch hch => hall ch (h ch hch)

theorem ascii_separator (style : Style) (depth : Nat) : Ascii (style.separator depth) := by
  obtain ⟨space, hspace, hseparator⟩ := exists_separator style depth
  simp [hseparator, ascii_space hspace]

theorem ascii_items {vs : List Json} (h : ∀ v ∈ vs, Ascii (writeChars ⟨true, indent⟩ depth v)) :
    Ascii (writeItems ⟨true, indent⟩ depth vs) := by
  induction vs with
  | nil => exact ascii_nil
  | cons v vs ih =>
    have hrest := ih fun w hw => h w (List.mem_cons_of_mem _ hw)
    simp [writeItems_cons, ascii_separator, h v List.mem_cons_self, hrest]

theorem ascii_members {ms : List (String × Json)}
    (h : ∀ m ∈ ms, Ascii (writeChars ⟨true, indent⟩ depth m.2)) :
    Ascii (writeMembers ⟨true, indent⟩ depth ms) := by
  induction ms with
  | nil => exact ascii_nil
  | cons m ms ih =>
    have hrest := ih fun w hw => h w (List.mem_cons_of_mem _ hw)
    simp [writeMembers_cons, ascii_separator, ascii_writeString, h m List.mem_cons_self, hrest]

end Layout

theorem NumberFree.ascii {v : Json} (h : NumberFree v) (indent : Option Nat) (depth : Nat) :
    Ascii (writeChars ⟨true, indent⟩ depth v) := by
  have hbreak : ∀ depth, Ascii (Style.lineBreak ⟨true, indent⟩ depth) :=
    fun depth => ascii_space (space_lineBreak _ depth)
  induction h generalizing depth with
  | null => exact (by simp : Ascii "null".toList)
  | bool b => cases b with
    | true => exact (by simp : Ascii "true".toList)
    | false => exact (by simp : Ascii "false".toList)
  | string s => exact ascii_writeString s
  | @array vs _ ih =>
    cases vs with
    | nil => exact (by simp : Ascii ['[', ']'])
    | cons v vs =>
      have hitems := ascii_items fun w hw => ih w (List.mem_cons_of_mem _ hw) (depth + 1)
      simp [writeChars_array, hbreak, ih v List.mem_cons_self, hitems]
  | @object ms _ ih =>
    cases ms with
    | nil => exact (by simp : Ascii ['\x7b', '\x7d'])
    | cons m ms =>
      have hmembers := ascii_members fun w hw => ih w (List.mem_cons_of_mem _ hw) (depth + 1)
      simp [writeChars_object, hbreak, ascii_writeString, ih m List.mem_cons_self, hmembers]

end ClassAtlas.Json
