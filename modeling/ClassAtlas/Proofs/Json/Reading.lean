import ClassAtlas.Json.Read
import ClassAtlas.Proofs.Json.Grammar
import ClassAtlas.Proofs.Pattern.Preference

/-! Every text of the standard grammar is read as the value that it spells, so no text spells two
values. -/

namespace ClassAtlas.Json

open Pattern

variable {text rest : List Char}

theorem skipSpace_append {space : List Char} (h : Space space) (hrest : Stops isSpace rest) :
    skipSpace (space ++ rest) = rest := by
  have hspace : ∀ ch ∈ space, isSpace ch = true := by
    intro ch hch
    have hall : ∀ x ∈ [' ', '\t', '\n', '\r'], isSpace x = true := by decide
    exact hall ch (h ch hch)
  rw [skipSpace, List.dropWhile_append_of_pos hspace, dropWhile_of_stops hrest]

theorem skipSpace_token {space : List Char} (h : Space space) {ch : Char}
    (hch : isSpace ch = false) (rest : List Char) : skipSpace (space ++ ch :: rest) = ch :: rest :=
  skipSpace_append h (stops_cons hch)

/-! ### Strings -/

theorem hexValue?_of_hexDigit {ch : Char} {d : Nat} (h : HexDigit ch d) :
    Text.hexValue? ch = some d := by
  have hlower : ∀ d < 16, ("0123456789abcdef".toList[d]?).bind Text.hexValue? = some d := by
    decide
  have hupper : ∀ d < 16, ("0123456789ABCDEF".toList[d]?).bind Text.hexValue? = some d := by
    decide
  rcases h with h | h
  · have hd := hlower d (List.getElem?_eq_some_iff.1 h).1
    rwa [h, Option.bind_some] at hd
  · have hd := hupper d (List.getElem?_eq_some_iff.1 h).1
    rwa [h, Option.bind_some] at hd

theorem hexUnit?_of_unitText {n : Nat} (h : UnitText text n) (rest : List Char) :
    hexUnit? (text ++ rest) = some (n, rest) := by
  cases h with
  | @digits a b c d i j k l ha hb hc hd =>
    have hn : ((i * 16 + j) * 16 + k) * 16 + l = i * 16 ^ 3 + j * 16 ^ 2 + k * 16 + l := by ring
    simp only [List.cons_append, List.nil_append, hexUnit?, hexValue?_of_hexDigit ha,
      hexValue?_of_hexDigit hb, hexValue?_of_hexDigit hc, hexValue?_of_hexDigit hd, ← hn]
    rfl

theorem shortEscape?_of_mem {letter ch : Char} (h : (letter, ch) ∈ shortEscapes) :
    letter ≠ 'u' ∧ shortEscape? letter = some ch := by
  have hall : ∀ e ∈ shortEscapes, e.1 ≠ 'u' ∧ shortEscape? e.1 = some e.2 := by decide
  exact hall _ h

theorem readEscape?_short {letter ch : Char} (h : (letter, ch) ∈ shortEscapes)
    (rest : List Char) : readEscape? (letter :: rest) = some (ch, rest) := by
  obtain ⟨hunit, hshort⟩ := shortEscape?_of_mem h
  unfold readEscape?
  split
  · simp_all
  · next heq => exact absurd (List.cons.inj heq).1 hunit
  · next heq =>
    obtain ⟨rfl, rfl⟩ := List.cons.inj heq
    rw [hshort]
    rfl

theorem readEscape?_unit {n : Nat} (h : UnitText text n) (hscalar : n < 0xd800 ∨ 0xe000 ≤ n)
    (rest : List Char) : readEscape? ('u' :: (text ++ rest)) = some (Char.ofNat n, rest) := by
  have hhigh : ¬(0xd800 ≤ n ∧ n < 0xdc00) := by omega
  have hlow : ¬(0xdc00 ≤ n ∧ n < 0xe000) := by omega
  simp [readEscape?, hexUnit?_of_unitText h, hhigh, hlow]

theorem readEscape?_pair {first second : List Char} {high low : Nat} (hfirst : UnitText first high)
    (hsecond : UnitText second low) (hhigh : 0xd800 ≤ high ∧ high < 0xdc00)
    (hlow : 0xdc00 ≤ low ∧ low < 0xe000) (rest : List Char) :
    readEscape? ('u' :: (first ++ '\\' :: 'u' :: (second ++ rest))) =
      some (Char.ofNat (0x10000 + (high - 0xd800) * 0x400 + (low - 0xdc00)), rest) := by
  have hescaped : escapedUnit? ('\\' :: 'u' :: (second ++ rest)) = some (low, rest) :=
    hexUnit?_of_unitText hsecond rest
  simp [readEscape?, hexUnit?_of_unitText hfirst, hhigh, hescaped, hlow]

theorem readChars?_escape {ch : Char} (h : readEscape? text = some (ch, rest)) (fuel : Nat) :
    readChars? (fuel + 1) ('\\' :: text) =
      (readChars? fuel rest).map fun (chars, rest) => (ch :: chars, rest) := by
  rw [readChars?, if_neg (by decide), if_pos (by decide), h]
  cases hchars : readChars? fuel rest <;> simp [hchars]

/-- The text of a character is read in one step. -/
theorem readChars?_of_charText {ch : Char} (h : CharText text ch) (fuel : Nat) (rest : List Char) :
    readChars? (fuel + 1) (text ++ rest) =
      (readChars? fuel rest).map fun (chars, rest) => (ch :: chars, rest) := by
  cases h with
  | plain hcontrol hquote hbackslash =>
    have hprintable : ¬ch.toNat < 0x20 := by omega
    simp only [List.singleton_append, readChars?, beq_eq_false_iff_ne.2 hquote,
      beq_eq_false_iff_ne.2 hbackslash, hprintable, if_false]
    cases readChars? fuel rest <;> rfl
  | short h => exact readChars?_escape (readEscape?_short h rest) fuel
  | unit h hscalar => exact readChars?_escape (readEscape?_unit h hscalar rest) fuel
  | pair hfirst hsecond hhigh hlow =>
    rw [List.append_assoc]
    exact readChars?_escape (readEscape?_pair hfirst hsecond hhigh hlow rest) fuel

theorem CharText.ne_nil {ch : Char} (h : CharText text ch) : text ≠ [] := by
  cases h <;> simp

theorem readChars?_of_charsText {chars : List Char} (h : CharsText text chars) {fuel : Nat}
    (hfuel : text.length < fuel) :
    readChars? fuel (text ++ '"' :: rest) = some (chars, rest) := by
  induction h generalizing fuel with
  | nil =>
    obtain ⟨fuel, rfl⟩ := Nat.exists_eq_succ_of_ne_zero (by omega : fuel ≠ 0)
    rfl
  | @cons t text ch chars hfirst _ ih =>
    have hpos := List.length_pos_iff.2 hfirst.ne_nil
    rw [List.length_append] at hfuel
    obtain ⟨fuel, rfl⟩ := Nat.exists_eq_succ_of_ne_zero (by omega : fuel ≠ 0)
    rw [List.append_assoc, readChars?_of_charText hfirst, ih (by omega)]
    rfl

theorem readString?_of_charsText {s : String} (h : CharsText text s.toList) (rest : List Char) :
    readString? (text ++ '"' :: rest) = some (s, rest) := by
  have hfuel : text.length < (text ++ '"' :: rest).length := by simp
  rw [readString?, readChars?_of_charsText h hfuel]
  simp

/-! ### Numbers -/

/-- What may follow a value: space, a comma, or the end of an array, an object or the text. -/
def Follows (rest : List Char) : Prop :=
  ∀ ch ∈ rest.head?, ch ∈ [' ', '\t', '\n', '\r', ',', ']', '\x7d']

theorem Follows.stops (h : Follows rest) {cls : Char → Bool}
    (hcls : ∀ ch ∈ [' ', '\t', '\n', '\r', ',', ']', '\x7d'], cls ch = false) : Stops cls rest :=
  fun ch hch => hcls ch (h ch hch)

theorem natOfDigits_eq (n : Numeral) : natOfDigits n.whole = n.magnitude := by
  rw [natOfDigits, Numeral.magnitude, Nat.ofDigits_eq_foldr, List.foldr_map, List.foldr_reverse]
  congr 1
  funext m ch
  simp only [Nat.cast_id]
  omega

section Digits

variable {ds : List Char} (hds : ∀ ch ∈ ds, isDigit ch = true) (hrest : Stops isDigit rest)

include hds hrest

theorem takeWhile_isDigit : (ds ++ rest).takeWhile isDigit = ds := by
  rw [List.takeWhile_append_of_pos hds, takeWhile_of_stops hrest, List.append_nil]

theorem dropWhile_isDigit : (ds ++ rest).dropWhile isDigit = rest := by
  rw [List.dropWhile_append_of_pos hds, dropWhile_of_stops hrest]

end Digits

theorem Digits.exists_cons {ds : List Char} (h : Digits ds) :
    ∃ d more, ds = d :: more ∧ isDigit d = true ∧ ∀ ch ∈ more, isDigit ch = true := by
  obtain ⟨d, more, rfl⟩ := List.exists_cons_of_ne_nil h.1
  exact ⟨d, more, rfl, h.2 d List.mem_cons_self, fun ch hch => h.2 ch (List.mem_cons_of_mem _ hch)⟩

theorem ne_of_isDigit {d ch : Char} (hd : isDigit d = true) (h : isDigit ch = false) : d ≠ ch := by
  rintro rfl
  exact absurd (hd.symm.trans h) (by decide)

theorem wholeDigits?_append (n : Numeral) (hrest : Stops isDigit rest) :
    wholeDigits? (n.whole ++ rest) = some (n.whole, rest) := by
  obtain ⟨d, more, hwhole, hd, hmore⟩ := n.whole_digits.exists_cons
  by_cases hzero : d = '0'
  · rw [n.whole_zero (by rw [hwhole, hzero]; rfl)]
    rfl
  · rw [hwhole, List.cons_append]
    unfold wholeDigits?
    split
    · next heq => exact absurd (List.cons.inj heq).1 hzero
    · next heq =>
      obtain ⟨rfl, rfl⟩ := List.cons.inj heq
      simp [hd, takeWhile_isDigit hmore hrest, dropWhile_isDigit hmore hrest]
    · next heq => exact absurd heq (List.cons_ne_nil _ _)

theorem fraction_of_stops (h : Stops (· == '.') text) : fraction text = ([], text) := by
  unfold fraction
  split
  · exact absurd (h '.' rfl) (by decide)
  · rfl

theorem fraction_append (n : Numeral) (hrest : Stops isDigit rest)
    (hpoint : Stops (· == '.') rest) : fraction (n.fraction ++ rest) = (n.fraction, rest) := by
  rcases n.fraction_digits with hnone | ⟨ds, hfraction, hds⟩
  · rw [hnone]
    exact fraction_of_stops hpoint
  · obtain ⟨d, more, rfl, hd, hmore⟩ := hds.exists_cons
    simp [hfraction, fraction, hd, takeWhile_isDigit hmore hrest, dropWhile_isDigit hmore hrest]

theorem exponent_of_stops (h : Stops (fun ch => ch == 'e' || ch == 'E') text) :
    exponent text = ([], text) := by
  cases text with
  | nil => rfl
  | cons e rest =>
    have he : (e == 'e' || e == 'E') = false := h e rfl
    simp only [exponent, he]
    rfl

theorem exponent_append (n : Numeral) (hrest : Follows rest) :
    exponent (n.exponent ++ rest) = (n.exponent, rest) := by
  rcases n.exponent_digits with hnone | ⟨e, sign, ds, hexponent, he, hsign, hds⟩
  · rw [hnone]
    exact exponent_of_stops (hrest.stops (by decide))
  · have hletter : e = 'e' ∨ e = 'E' := by simpa using he
    have hstops : Stops isDigit rest := hrest.stops (by decide)
    obtain ⟨d, more, rfl, hd, hmore⟩ := hds.exists_cons
    have htake := takeWhile_isDigit hmore hstops
    have hdrop := dropWhile_isDigit hmore hstops
    have hplus : d ≠ '+' := ne_of_isDigit hd (by decide)
    have hminus : d ≠ '-' := ne_of_isDigit hd (by decide)
    simp only [List.mem_cons, List.not_mem_nil, or_false] at hsign
    rcases hsign with rfl | rfl | rfl <;>
      simp [hexponent, exponent, hletter, hplus, hminus, hd, htake, hdrop]

theorem stops_append {s : List Char} {cls : Char → Bool} (hs : ∀ ch ∈ s.head?, cls ch = false)
    (hrest : Stops cls rest) : Stops cls (s ++ rest) := by
  cases s with
  | nil => exact hrest
  | cons ch s => exact stops_cons (hs ch rfl)

theorem Numeral.exponent_head (n : Numeral) : ∀ ch ∈ n.exponent.head?, ch ∈ ['e', 'E'] := by
  rcases n.exponent_digits with h | ⟨e, sign, ds, h, he, _⟩
  · simp [h]
  · simpa [h] using he

theorem Numeral.fraction_head (n : Numeral) : ∀ ch ∈ n.fraction.head?, ch = '.' := by
  rcases n.fraction_digits with h | ⟨ds, h, _⟩ <;> simp [h]

/-- Behind the whole part of a number comes no digit. -/
theorem Numeral.stops_isDigit (n : Numeral) (hrest : Follows rest) :
    Stops isDigit (n.exponent ++ rest) ∧ Stops isDigit (n.fraction ++ (n.exponent ++ rest)) := by
  have hletters : ∀ ch ∈ ['e', 'E'], isDigit ch = false := by decide
  have hexponent : Stops isDigit (n.exponent ++ rest) :=
    stops_append (fun ch hch => hletters ch (n.exponent_head ch hch)) (hrest.stops (by decide))
  refine ⟨hexponent, stops_append ?_ hexponent⟩
  intro ch hch
  rw [n.fraction_head ch hch]
  decide

theorem Numeral.stops_point (n : Numeral) (hrest : Follows rest) :
    Stops (· == '.') (n.exponent ++ rest) := by
  have hletters : ∀ ch ∈ ['e', 'E'], (ch == '.') = false := by decide
  exact stops_append (fun ch hch => hletters ch (n.exponent_head ch hch)) (hrest.stops (by decide))

theorem readNumber?_text (n : Numeral) (hrest : Follows rest) :
    readNumber? (n.text ++ rest) = some (n.value, rest) := by
  have hexponent := exponent_append n hrest
  have hfraction := fraction_append n (n.stops_isDigit hrest).1 (n.stops_point hrest)
  have hwhole := wholeDigits?_append n (n.stops_isDigit hrest).2
  cases hsign : n.negative with
  | true =>
    simp [Numeral.text, Numeral.sign, Numeral.value, hsign, readNumber?, hwhole, hfraction,
      hexponent, natOfDigits_eq]
    split <;> rfl
  | false =>
    obtain ⟨d, more, hcons, hd, _⟩ := n.whole_digits.exists_cons
    have hminus : d ≠ '-' := ne_of_isDigit hd (by decide)
    have htext : n.text ++ rest = d :: (more ++ (n.fraction ++ (n.exponent ++ rest))) := by
      simp [Numeral.text, Numeral.sign, hsign, hcons]
    have hdigits : natOfDigits (d :: more) = n.magnitude := hcons ▸ natOfDigits_eq n
    rw [hcons, List.cons_append] at hwhole
    rw [htext]
    simp [readNumber?, hminus, hwhole, hfraction, hexponent, hdigits, Numeral.value, Numeral.text,
      Numeral.sign, hsign, hcons, String.append_assoc]
    split <;> rfl

/-- The first two characters of a constant are no digits. -/
theorem readConstant?_eq_none {k : Nat} (hk : k < 2) {d : Char} (hd : isDigit d = true)
    (h : text[k]? = some d) : readConstant? text = none := by
  have hall : ∀ e ∈ constants, ∀ k < 2, (e.1.toList[k]?).any isDigit = false := by decide
  have hlong : ∀ e ∈ constants, 2 ≤ e.1.toList.length := by decide
  rw [readConstant?, List.findSome?_eq_none_iff]
  rintro e he
  refine if_neg fun hstart => ?_
  obtain ⟨more, rfl⟩ := List.isPrefixOf_iff_prefix.1 hstart
  rw [List.getElem?_append_left (by have := hlong e he; omega)] at h
  have hk := hall e he k hk
  simp [h, hd] at hk

theorem readConstant?_numeral (n : Numeral) (rest : List Char) :
    readConstant? (n.text ++ rest) = none := by
  obtain ⟨d, more, hcons, hd, _⟩ := n.whole_digits.exists_cons
  cases hsign : n.negative with
  | true =>
    have hsecond : (n.text ++ rest)[1]? = some d := by
      simp [Numeral.text, Numeral.sign, hsign, hcons]
    exact readConstant?_eq_none (by omega) hd hsecond
  | false =>
    have hfirst : (n.text ++ rest)[0]? = some d := by
      simp [Numeral.text, Numeral.sign, hsign, hcons]
    exact readConstant?_eq_none (by omega) hd hfirst

/-! ### Values -/

theorem follows_nil : Follows [] := by simp [Follows]

theorem follows_token {ch : Char} (h : ch ∈ [',', ']', '\x7d']) (rest : List Char) :
    Follows (ch :: rest) := by
  rintro x ⟨⟩
  exact List.mem_append_right [' ', '\t', '\n', '\r'] h

theorem Follows.space_append (h : Follows rest) {space : List Char} (hspace : Space space) :
    Follows (space ++ rest) := by
  cases space with
  | nil => exact h
  | cons x space =>
    intro ch hch
    obtain rfl : x = ch := Option.some.inj hch
    exact List.mem_append_left [',', ']', '\x7d'] (hspace x List.mem_cons_self)

/-- Space, or the end of an array or an object. -/
def isBreak (ch : Char) : Bool := isSpace ch || ch == ']' || ch == '\x7d'

theorem StringText.starts {s : String} (h : StringText text s) : text.head? = some '"' := by
  cases h
  rfl

theorem Numeral.starts (n : Numeral) :
    ∃ ch, n.text.head? = some ch ∧ (ch = '-' ∨ isDigit ch = true) := by
  obtain ⟨d, more, hcons, hd, _⟩ := n.whole_digits.exists_cons
  cases hsign : n.negative with
  | true => exact ⟨'-', by simp [Numeral.text, Numeral.sign, hsign], .inl rfl⟩
  | false => exact ⟨d, by simp [Numeral.text, Numeral.sign, hsign, hcons], .inr hd⟩

theorem Spells.starts {part : Part} (h : Spells text part) :
    ∃ ch, text.head? = some ch ∧ isBreak ch = false := by
  induction h with
  | nullName => exact ⟨'n', rfl, by decide⟩
  | trueName => exact ⟨'t', rfl, by decide⟩
  | falseName => exact ⟨'f', rfl, by decide⟩
  | number n =>
    obtain ⟨ch, hch, rfl | hdigit⟩ := n.starts
    · exact ⟨'-', hch, by decide⟩
    · refine ⟨ch, hch, ?_⟩
      have hbreaks : ∀ x ∈ [' ', '\t', '\n', '\r', ']', '\x7d'], isDigit x = false := by decide
      have hne : ∀ x ∈ [' ', '\t', '\n', '\r', ']', '\x7d'], ch ≠ x :=
        fun x hx => ne_of_isDigit hdigit (hbreaks x hx)
      simpa [isBreak, isSpace, and_assoc] using hne
  | string h => exact ⟨'"', h.starts, by decide⟩
  | emptyArray _ | array _ _ => exact ⟨'[', rfl, by decide⟩
  | emptyObject _ | object _ _ => exact ⟨'\x7b', rfl, by decide⟩
  | lastItem _ _ ih | item _ _ _ _ ih =>
    obtain ⟨ch, hch, hbreak⟩ := ih
    exact ⟨ch, by simp [hch], hbreak⟩
  | lastMember hkey | member hkey => exact ⟨'"', by simp [hkey.starts], by decide⟩

/-- The space before a part is skipped. -/
theorem Spells.skipSpace {part : Part} (h : Spells text part) {space : List Char}
    (hspace : Space space) (rest : List Char) :
    skipSpace (space ++ (text ++ rest)) = text ++ rest := by
  obtain ⟨ch, hch, hbreak⟩ := h.starts
  obtain ⟨more, rfl⟩ := List.head?_eq_some_iff.1 hch
  have hvisible : isSpace ch = false := by
    cases hs : isSpace ch <;> simp_all [isBreak]
  exact skipSpace_token hspace hvisible _

theorem Spells.head_append_ne {part : Part} (h : Spells text part) {ch : Char}
    (hch : isBreak ch = true) (rest : List Char) : (text ++ rest).head? ≠ some ch := by
  obtain ⟨x, hx, hbreak⟩ := h.starts
  obtain ⟨more, rfl⟩ := List.head?_eq_some_iff.1 hx
  rintro ⟨⟩
  exact absurd (hbreak.symm.trans hch) (by decide)

theorem Spells.length_pos {part : Part} (h : Spells text part) : 0 < text.length := by
  obtain ⟨ch, hch, _⟩ := h.starts
  obtain ⟨more, rfl⟩ := List.head?_eq_some_iff.1 hch
  simp

section Steps

variable {fuel : Nat} {v : Json} {vs : List Json} {ms : List (String × Json)} {name : String}
  {next : List Char}

theorem readValue?_other {ch : Char} (hquote : ch ≠ '"') (hbracket : ch ≠ '[')
    (hbrace : ch ≠ '\x7b') :
    readValue? (fuel + 1) (ch :: text) =
      (readConstant? (ch :: text) <|> readNumber? (ch :: text)) := by
  simp [readValue?, hquote, hbracket, hbrace]

theorem readValue?_array (hskip : skipSpace text = next) (hopen : next.head? ≠ some ']')
    (hitems : readItems? fuel next = some (vs, rest)) :
    readValue? (fuel + 1) ('[' :: text) = some (array vs, rest) := by
  simp only [readValue?, hskip]
  split
  · exact absurd rfl hopen
  · rw [hitems]
    rfl

theorem readValue?_object (hskip : skipSpace text = next) (hopen : next.head? ≠ some '\x7d')
    (hmembers : readMembers? fuel next = some (ms, rest)) :
    readValue? (fuel + 1) ('\x7b' :: text) = some (object ms, rest) := by
  simp only [readValue?, hskip]
  split
  · exact absurd rfl hopen
  · rw [hmembers]
    rfl

theorem readItems?_last (hvalue : readValue? fuel text = some (v, next))
    (hskip : skipSpace next = ']' :: rest) : readItems? (fuel + 1) text = some ([v], rest) := by
  simp [readItems?, hvalue, hskip]

theorem readItems?_item {after : List Char} (hvalue : readValue? fuel text = some (v, next))
    (hskip : skipSpace next = ',' :: after)
    (hrest : readItems? fuel (skipSpace after) = some (vs, rest)) :
    readItems? (fuel + 1) text = some (v :: vs, rest) := by
  simp [readItems?, hvalue, hskip, hrest]

theorem readMembers?_last {before after : List Char}
    (hname : readString? text = some (name, before)) (hcolon : skipSpace before = ':' :: after)
    (hvalue : readValue? fuel (skipSpace after) = some (v, next))
    (hskip : skipSpace next = '\x7d' :: rest) :
    readMembers? (fuel + 1) ('"' :: text) = some ([(name, v)], rest) := by
  simp [readMembers?, hname, hcolon, hvalue, hskip]

theorem readMembers?_member {before after behind : List Char}
    (hname : readString? text = some (name, before)) (hcolon : skipSpace before = ':' :: after)
    (hvalue : readValue? fuel (skipSpace after) = some (v, next))
    (hskip : skipSpace next = ',' :: behind)
    (hrest : readMembers? fuel (skipSpace behind) = some (ms, rest)) :
    readMembers? (fuel + 1) ('"' :: text) = some ((name, v) :: ms, rest) := by
  simp [readMembers?, hname, hcolon, hvalue, hskip, hrest]

end Steps

/-- What it means that a part is read from its text. -/
def Part.ReadFrom (text : List Char) : Part → Prop
  | .value v => ∀ fuel rest, text.length ≤ fuel → Follows rest →
      readValue? fuel (text ++ rest) = some (v, rest)
  | .items vs => ∀ fuel rest, text.length < fuel →
      readItems? fuel (text ++ ']' :: rest) = some (vs, rest)
  | .members ms => ∀ fuel rest, text.length < fuel →
      readMembers? fuel (text ++ '\x7d' :: rest) = some (ms, rest)

theorem readFrom_number (n : Numeral) : (Part.value n.value).ReadFrom n.text := by
  intro fuel rest hfuel hrest
  obtain ⟨ch, hch, hsign⟩ := n.starts
  obtain ⟨more, hmore⟩ := List.head?_eq_some_iff.1 hch
  have hother : ∀ x ∈ ['"', '[', '\x7b'], ch ≠ x := by
    intro x hx
    rcases hsign with rfl | hdigit
    · have hall : ∀ x ∈ ['"', '[', '\x7b'], '-' ≠ x := by decide
      exact hall x hx
    · have hall : ∀ x ∈ ['"', '[', '\x7b'], isDigit x = false := by decide
      exact ne_of_isDigit hdigit (hall x hx)
  have hconstant := readConstant?_numeral n rest
  have hnumber := readNumber?_text n hrest
  rw [hmore, List.length_cons] at hfuel
  obtain ⟨fuel, rfl⟩ := Nat.exists_eq_succ_of_ne_zero (by omega : fuel ≠ 0)
  rw [hmore, List.cons_append] at hconstant hnumber ⊢
  rw [readValue?_other (hother '"' (by decide)) (hother '[' (by decide))
    (hother '\x7b' (by decide)), hconstant, hnumber]
  rfl

theorem readFrom_string {s : String} (h : StringText text s) :
    (Part.value (.string s)).ReadFrom text := by
  intro fuel rest hfuel _
  cases h with
  | @quoted text _ h =>
    obtain ⟨fuel, rfl⟩ := Nat.exists_eq_succ_of_ne_zero (by simp at hfuel; omega : fuel ≠ 0)
    simp [readValue?, readString?_of_charsText h rest]

/-- Every part of a text is read, if there is as much fuel as there are characters. -/
theorem Spells.readFrom {part : Part} (h : Spells text part) : part.ReadFrom text := by
  induction h with
  | nullName | trueName | falseName =>
    intro fuel rest hfuel _
    obtain ⟨fuel, rfl⟩ := Nat.exists_eq_succ_of_ne_zero (by simp at hfuel; omega : fuel ≠ 0)
    rfl
  | number n => exact readFrom_number n
  | string h => exact readFrom_string h
  | emptyArray hspace =>
    intro fuel rest hfuel _
    obtain ⟨fuel, rfl⟩ := Nat.exists_eq_succ_of_ne_zero (by simp at hfuel; omega : fuel ≠ 0)
    have hskip := skipSpace_token hspace (by decide : isSpace ']' = false) rest
    simp [readValue?, hskip]
  | emptyObject hspace =>
    intro fuel rest hfuel _
    obtain ⟨fuel, rfl⟩ := Nat.exists_eq_succ_of_ne_zero (by simp at hfuel; omega : fuel ≠ 0)
    have hskip := skipSpace_token hspace (by decide : isSpace '\x7d' = false) rest
    simp [readValue?, hskip]
  | @array space text vs hspace hitems ih =>
    intro fuel rest hfuel _
    simp only [List.length_cons, List.length_append] at hfuel
    obtain ⟨fuel, rfl⟩ := Nat.exists_eq_succ_of_ne_zero (by omega : fuel ≠ 0)
    have hskip := hitems.skipSpace hspace (']' :: rest)
    have hread := readValue?_array hskip (hitems.head_append_ne (by decide) _)
      (ih fuel rest (by omega))
    simpa using hread
  | @object space text ms hspace hmembers ih =>
    intro fuel rest hfuel _
    simp only [List.length_cons, List.length_append] at hfuel
    obtain ⟨fuel, rfl⟩ := Nat.exists_eq_succ_of_ne_zero (by omega : fuel ≠ 0)
    have hskip := hmembers.skipSpace hspace ('\x7d' :: rest)
    have hread := readValue?_object hskip (hmembers.head_append_ne (by decide) _)
      (ih fuel rest (by omega))
    simpa using hread
  | @lastItem text space v hvalue hspace ih =>
    intro fuel rest hfuel
    rw [List.length_append] at hfuel
    obtain ⟨fuel, rfl⟩ := Nat.exists_eq_succ_of_ne_zero (by omega : fuel ≠ 0)
    rw [List.append_assoc]
    exact readItems?_last (ih fuel _ (by omega) ((follows_token (by decide) _).space_append hspace))
      (skipSpace_token hspace (by decide) rest)
  | @item text space space' more v vs hvalue hspace hspace' hrest ihvalue ihrest =>
    intro fuel rest hfuel
    have hpos := hvalue.length_pos
    simp only [List.length_append, List.length_cons] at hfuel
    obtain ⟨fuel, rfl⟩ := Nat.exists_eq_succ_of_ne_zero (by omega : fuel ≠ 0)
    simp only [List.append_assoc, List.cons_append]
    refine readItems?_item
      (ihvalue fuel _ (by omega) ((follows_token (by decide) _).space_append hspace))
      (skipSpace_token hspace (by decide) _) ?_
    rw [hrest.skipSpace hspace']
    exact ihrest fuel rest (by omega)
  | @lastMember key before after text space name v hkey hbefore hafter hvalue hspace ih =>
    intro fuel rest hfuel
    simp only [List.length_append, List.length_cons] at hfuel
    obtain ⟨fuel, rfl⟩ := Nat.exists_eq_succ_of_ne_zero (by omega : fuel ≠ 0)
    cases hkey with
    | quoted hname =>
      simp only [List.append_assoc, List.cons_append, List.nil_append]
      refine readMembers?_last (readString?_of_charsText hname _)
        (skipSpace_token hbefore (by decide) _) ?_ (skipSpace_token hspace (by decide) rest)
      rw [hvalue.skipSpace hafter]
      exact ih fuel _ (by omega) ((follows_token (by decide) _).space_append hspace)
  | @member key before after text space space' more name v ms hkey hbefore hafter hvalue hspace
      hspace' hrest ihvalue ihrest =>
    intro fuel rest hfuel
    simp only [List.length_append, List.length_cons] at hfuel
    obtain ⟨fuel, rfl⟩ := Nat.exists_eq_succ_of_ne_zero (by omega : fuel ≠ 0)
    cases hkey with
    | quoted hname =>
      simp only [List.append_assoc, List.cons_append, List.nil_append]
      refine readMembers?_member (readString?_of_charsText hname _)
        (skipSpace_token hbefore (by decide) _) ?_
        (skipSpace_token hspace (by decide) (space' ++ (more ++ '\x7d' :: rest))) ?_
      · rw [hvalue.skipSpace hafter]
        exact ihvalue fuel _ (by omega) ((follows_token (by decide) _).space_append hspace)
      · rw [hrest.skipSpace hspace']
        exact ihrest fuel rest (by omega)

/-- A text of the grammar is read as the value that it spells. -/
theorem Denotes.read?_eq {s : String} {v : Json} (h : Denotes s v) : read? s = some v := by
  obtain ⟨before, core, after, hbefore, hcore, hafter, htext⟩ := h
  have hstart : skipSpace s.toList = core ++ after := by rw [htext, hcore.skipSpace hbefore]
  have hfuel : core.length ≤ s.toList.length + 1 := by
    simp only [htext, List.length_append]
    omega
  have hfollows := follows_nil.space_append hafter
  have hend := skipSpace_append hafter stops_nil
  rw [List.append_nil] at hfollows hend
  simp only [read?, hstart, hcore.readFrom _ after hfuel hfollows, hend]
  rfl

/-- No text spells two values. -/
theorem Denotes.unique {s : String} {v w : Json} (hv : Denotes s v) (hw : Denotes s w) : v = w :=
  Option.some.inj (hv.read?_eq.symm.trans hw.read?_eq)

end ClassAtlas.Json
