import ClassAtlas.Proofs.Source.LinesAbove

/-! Where a line's comment starts. A lexer goes through the line once, from left to right, with an
eye on the literals. As long as no literal is left open, it agrees with emptying all literals first
and looking for the marks of a comment in what is left. -/

namespace ClassAtlas.Text

open Pattern

/-- What has no blanks is not cut short by trimming the end. -/
theorem prefix_trimChars_iff {w : List Char} (hw : ∀ ch ∈ w, isBlank ch = false)
    (text : List Char) : w <+: trimChars text ↔ w <+: trimStart text := by
  obtain ⟨gap, hgap, hsplit⟩ := exists_trimStart_eq text
  rw [hsplit]
  constructor
  · exact fun h => h.trans (List.prefix_append _ _)
  · rintro ⟨rest, hrest⟩
    rcases List.append_eq_append_iff.1 hrest with ⟨more, hmore, _⟩ | ⟨more, rfl, hmore⟩
    · exact ⟨more, hmore.symm⟩
    · cases more with
      | nil => simp
      | cons ch more =>
        have hblank := hgap ch (by simp [hmore])
        simp [hw ch (by simp)] at hblank

end ClassAtlas.Text

namespace ClassAtlas.Source

open Pattern

/-! ### The lexer -/

/-- What a lexer knows about a line behind the characters that it has read. -/
inductive LexState where
  /-- In code, and whether the last character is a slash that may begin a comment. -/
  | code (slash : Bool)
  /-- In a literal between two quotes of a kind, and whether its next character is escaped. -/
  | literal (quote : Char) (escaped : Bool)
  | lineComment
deriving DecidableEq

def isDelimiter (ch : Char) : Bool := ch == '"' || ch == '\''

namespace LexState

def next : LexState → Char → LexState
  | code slash, ch =>
    if isDelimiter ch then literal ch false
    else if ch = '/' then if slash then lineComment else code true
    else code false
  | literal quote true, _ => literal quote false
  | literal quote false, ch =>
    if ch = '\\' then literal quote true
    else if ch = quote then code false else literal quote false
  | lineComment, _ => lineComment

/-- The state behind a text. -/
def after (state : LexState) (text : List Char) : LexState := text.foldl next state

/-- Whether the lexer stands in a literal. -/
def isOpen : LexState → Bool
  | literal _ _ => true
  | _ => false

theorem after_cons (state : LexState) (ch : Char) (text : List Char) :
    state.after (ch :: text) = (state.next ch).after text := rfl

theorem after_lineComment (text : List Char) : lineComment.after text = lineComment := by
  induction text with
  | nil => rfl
  | cons ch text ih => exact ih

end LexState

/-- The state behind the text of a line. -/
def lexed (text : List Char) : LexState := (LexState.code false).after text

/-! ### Literals -/

/-- What may stand between two quotes of a kind on one line. -/
inductive LiteralBody (quote : Char) : List Char → Prop where
  | nil : LiteralBody quote []
  | plain {ch : Char} {s : List Char} (hquote : ch ≠ quote) (hescape : ch ≠ '\\')
      (hrest : LiteralBody quote s) : LiteralBody quote (ch :: s)
  | escaped {ch : Char} {s : List Char} (hline : ch ≠ '\n') (hrest : LiteralBody quote s) :
      LiteralBody quote ('\\' :: ch :: s)

/-- A literal that the lexer has entered stays open, or the lexer is back in code behind its end. -/
theorem LexState.after_literal (quote : Char) {text : List Char} (hline : '\n' ∉ text) :
    ((literal quote false).after text).isOpen = true ∨
      ∃ body rest, text = body ++ quote :: rest ∧ LiteralBody quote body ∧
        (literal quote false).after text = (code false).after rest := by
  induction hlen : text.length using Nat.strong_induction_on generalizing text with
  | _ count ih =>
    cases text with
    | nil => exact .inl rfl
    | cons ch text =>
      rw [List.mem_cons, not_or] at hline
      rw [List.length_cons] at hlen
      by_cases hescape : ch = '\\'
      · -- an escape takes the next character with it
        subst hescape
        cases text with
        | nil => exact .inl rfl
        | cons x text =>
          rw [List.mem_cons, not_or] at hline
          rw [List.length_cons] at hlen
          rcases ih text.length (by omega) hline.2.2 rfl with
            hopen | ⟨body, rest, rfl, hbody, hafter⟩
          · exact .inl hopen
          · exact .inr ⟨'\\' :: x :: body, rest, rfl, .escaped (Ne.symm hline.2.1) hbody, hafter⟩
      · by_cases hquote : ch = quote
        · subst hquote
          have hnext : (literal ch false).next ch = code false := by simp [next, hescape]
          exact .inr ⟨[], text, rfl, .nil, by rw [after_cons, hnext]⟩
        · have hnext : (literal quote false).next ch = literal quote false := by
            simp [next, hescape, hquote]
          rw [after_cons, hnext]
          rcases ih text.length (by omega) hline.2 rfl with hopen | ⟨body, rest, rfl, hbody, hafter⟩
          · exact .inl hopen
          · exact .inr ⟨ch :: body, rest, rfl, .plain hquote hescape hbody, hafter⟩

variable {quote : Char} {body : List Char}

/-- One character of a literal, or two where the first one escapes the second. -/
def literalItem (quote : Char) : Pattern Unit :=
  (do one (· == '\\'); one (· != '\n')) <|> one fun c => c != quote && c != '\\'

theorem LiteralBody.steps (h : LiteralBody quote body) (hquote : quote ≠ '\\')
    (before rest : List Char) :
    Steps (literalItem quote) ⟨before, body ++ quote :: rest⟩
      ⟨body.reverse ++ before, quote :: rest⟩ := by
  induction h generalizing before with
  | nil =>
    refine .done (orElse_eq_nil (bind_eq_nil (one_eq_nil (stops_cons ?_)))
      (one_eq_nil (stops_cons ?_)))
    · simpa using hquote
    · simp
  | @plain ch s hne hescape _ ih =>
    have hfirst : (do one (· == '\\'); one (· != '\n') : Pattern Unit)
        ⟨before, ch :: (s ++ quote :: rest)⟩ = [] :=
      bind_eq_nil (one_eq_nil (stops_cons (by simpa using hescape)))
    have hitem : (literalItem quote).Prefers ⟨before, ch :: (s ++ quote :: rest)⟩ ()
        ⟨ch :: before, s ++ quote :: rest⟩ :=
      Prefers.orElse_right hfirst (.of_eq (one_cons (by simp [hne, hescape])))
    refine .step hitem (by simp) ?_
    simpa using ih (ch :: before)
  | @escaped ch s hline _ ih =>
    have hitem : (literalItem quote).Prefers ⟨before, '\\' :: ch :: (s ++ quote :: rest)⟩ ()
        ⟨ch :: '\\' :: before, s ++ quote :: rest⟩ :=
      Prefers.orElse (Prefers.bind (.of_eq (one_cons (by decide)))
        (.of_eq (one_cons (by simpa using hline))))
    have hless : (s ++ quote :: rest).length < ('\\' :: ch :: (s ++ quote :: rest)).length := by
      simp only [List.length_cons]
      omega
    refine .step hitem hless ?_
    simpa using ih (ch :: '\\' :: before)

theorem LiteralBody.prefers_quoted (h : LiteralBody quote body) (hquote : quote ≠ '\\')
    (before rest : List Char) :
    (quotedLiteral quote).Prefers ⟨before, quote :: (body ++ quote :: rest)⟩ ()
      ⟨quote :: (body.reverse ++ quote :: before), rest⟩ := by
  refine Prefers.bind (.of_eq (one_cons (by simp))) ?_
  refine Prefers.bind (.of_eq (h.steps hquote _ rest).runOf) ?_
  exact .of_eq (one_cons (by simp))

theorem stringLiteral_eq_nil {before rest : List Char} (h : Stops isDelimiter rest) :
    stringLiteral ⟨before, rest⟩ = [] := by
  have hnone : ∀ quote, isDelimiter quote = true → quotedLiteral quote ⟨before, rest⟩ = [] := by
    intro quote hquote
    refine bind_eq_nil (one_eq_nil fun ch hch => ?_)
    rw [beq_eq_false_iff_ne]
    rintro rfl
    simp [h ch hch] at hquote
  exact orElse_eq_nil (hnone '"' (by decide)) (hnone '\'' (by decide))

theorem LiteralBody.prefers (h : LiteralBody quote body) (hquote : isDelimiter quote = true)
    (before rest : List Char) :
    stringLiteral.Prefers ⟨before, quote :: (body ++ quote :: rest)⟩ ()
      ⟨quote :: (body.reverse ++ quote :: before), rest⟩ := by
  simp only [isDelimiter, Bool.or_eq_true, beq_iff_eq] at hquote
  rcases hquote with rfl | rfl
  · exact Prefers.orElse (h.prefers_quoted (by decide) before rest)
  · exact Prefers.orElse_right (bind_eq_nil (one_eq_nil (stops_cons (by decide))))
      (h.prefers_quoted (by decide) before rest)

/-! ### The text without its literals -/

/-- The text with nothing left between the quotes of its literals. -/
def emptied (before text : List Char) : List Char :=
  replaceFrom stringLiteral ['"', '"'] 0 before text

theorem inCommentLine_eq (c : Cursor) : inCommentLine c =
    (Text.occursInChars "//".toList (emptied [] c.lineHead) ||
      "/*".toList.isPrefixOf (Text.trimChars (emptied [] c.lineHead)) ||
      "*".toList.isPrefixOf (Text.trimChars (emptied [] c.lineHead))) := rfl

variable {before text : List Char}

theorem emptied_append (h : ∀ ch ∈ text, isDelimiter ch = false) (before rest : List Char) :
    emptied before (text ++ rest) = text ++ emptied (text.reverse ++ before) rest := by
  have hmiss : Misses stringLiteral text :=
    misses_of_forall_mem fun ch hch _ _ => stringLiteral_eq_nil (stops_cons (h ch hch))
  exact hmiss.replaceFrom _ _ _

theorem emptied_cons {ch : Char} (h : isDelimiter ch = false) (before text : List Char) :
    emptied before (ch :: text) = ch :: emptied (ch :: before) text := by
  have hall : ∀ x ∈ [ch], isDelimiter x = false := by simpa using h
  exact emptied_append hall before text

theorem LiteralBody.emptied_eq (h : LiteralBody quote body) (hquote : isDelimiter quote = true)
    (before rest : List Char) :
    ∃ before', emptied before (quote :: (body ++ quote :: rest)) =
      '"' :: '"' :: emptied before' rest :=
  ⟨_, (h.prefers hquote before rest).replaceFrom (quote :: (body ++ [quote])) (by simp) (by simp)
    ['"', '"']⟩

/-- A literal that is emptied starts with a quote still. -/
theorem exists_emptied_quote {ch : Char} (h : isDelimiter ch = true) (before text : List Char) :
    ∃ q more, emptied before (ch :: text) = q :: more ∧ isDelimiter q = true := by
  unfold emptied replaceFrom
  cases stringLiteral.matchAt? ⟨before, ch :: text⟩ with
  | none => exact ⟨ch, _, rfl, h⟩
  | some m => exact ⟨'"', _, rfl, by decide⟩

/-- What starts without a quote starts in the same way when the literals are emptied. -/
theorem prefix_emptied_iff {w : List Char} (hw : ∀ ch ∈ w, isDelimiter ch = false)
    (before text : List Char) : w <+: emptied before text ↔ w <+: text := by
  induction w generalizing before text with
  | nil => simp
  | cons c w ih =>
    obtain ⟨hc, hw⟩ := List.forall_mem_cons.1 hw
    cases text with
    | nil => rfl
    | cons ch text =>
      by_cases hch : isDelimiter ch = true
      · obtain ⟨q, more, hq, hquote⟩ := exists_emptied_quote hch before text
        have hne : ∀ x, isDelimiter x = true → c ≠ x := by
          rintro x hx rfl
          simp [hx] at hc
        rw [hq, List.cons_prefix_cons, List.cons_prefix_cons]
        exact iff_of_false (fun h => hne q hquote h.1) fun h => hne ch hch h.1
      · rw [emptied_cons (by simpa using hch), List.cons_prefix_cons, List.cons_prefix_cons, ih hw]

theorem isDelimiter_of_isBlank {ch : Char} (h : Text.isBlank ch = true) :
    isDelimiter ch = false := by
  by_contra hquote
  simp only [isDelimiter, Bool.not_eq_false, Bool.or_eq_true, beq_iff_eq] at hquote
  rcases hquote with rfl | rfl
  · exact absurd h (by decide)
  · exact absurd h (by decide)

theorem stops_emptied (h : Stops Text.isBlank text) (before : List Char) :
    Stops Text.isBlank (emptied before text) := by
  intro ch hch
  by_contra hblank
  have hquote := isDelimiter_of_isBlank (by simpa using hblank)
  obtain ⟨more, hmore⟩ := List.head?_eq_some_iff.1 hch
  have hstarts : [ch] <+: emptied before text := ⟨more, hmore.symm⟩
  obtain ⟨more, rfl⟩ := (prefix_emptied_iff (by simpa using hquote) before text).1 hstarts
  exact hblank (h ch rfl)

/-- Blanks at the start of a line stand before its literals. -/
theorem exists_trimStart_emptied (text : List Char) :
    ∃ before, Text.trimStart (emptied [] text) = emptied before (Text.trimStart text) := by
  obtain ⟨ind, hind, hsplit⟩ : ∃ ind, (∀ ch ∈ ind, Text.isBlank ch = true) ∧
      text = ind ++ Text.trimStart text :=
    ⟨_, fun ch hch => List.mem_takeWhile_imp hch, List.takeWhile_append_dropWhile.symm⟩
  have hemptied := emptied_append (fun ch hch => isDelimiter_of_isBlank (hind ch hch)) []
    (Text.trimStart text)
  rw [← hsplit] at hemptied
  rw [hemptied]
  exact ⟨_, Text.trimStart_append hind (stops_emptied (Text.stops_trimStart text) _)⟩

/-- A mark at the start of a line is seen whether the literals are emptied or not. -/
theorem prefix_trimChars_emptied_iff {w : List Char} (hquote : ∀ ch ∈ w, isDelimiter ch = false)
    (hblank : ∀ ch ∈ w, Text.isBlank ch = false) (text : List Char) :
    w <+: Text.trimChars (emptied [] text) ↔ w <+: Text.trimStart text := by
  obtain ⟨before, hbefore⟩ := exists_trimStart_emptied text
  rw [Text.prefix_trimChars_iff hblank, hbefore, prefix_emptied_iff hquote]

/-! ### Agreement -/

/-- The slash that the lexer has seen last and that may begin a comment. -/
def pending (slash : Bool) : List Char := if slash then ['/'] else []

theorem occurs_marker_cons {ch : Char} (h : ch ≠ '/') (slash : Bool) (text : List Char) :
    Text.occursInChars "//".toList (pending slash ++ ch :: text) =
      Text.occursInChars "//".toList text := by
  have hne : ('/' == ch) = false := by simpa using h.symm
  cases slash <;> simp [pending, Text.occursInChars, List.isPrefixOf, hne]

/-- The lexer comes to a comment exactly when the marker is seen once the literals are emptied. -/
theorem occurs_marker_iff {slash : Bool} {text : List Char} (hline : '\n' ∉ text)
    (before : List Char) (hclosed : ((LexState.code slash).after text).isOpen = false) :
    Text.occursInChars "//".toList (pending slash ++ emptied before text) = true ↔
      (LexState.code slash).after text = .lineComment := by
  -- a literal is passed over as a whole, so the induction is on the length
  induction hlen : text.length using Nat.strong_induction_on generalizing text slash before with
  | _ count ih =>
    cases text with
    | nil => cases slash <;> simp [pending, emptied, replaceFrom, Text.occursInChars,
      LexState.after]
    | cons ch text =>
      rw [List.mem_cons, not_or] at hline
      rw [List.length_cons] at hlen
      rw [LexState.after_cons] at hclosed ⊢
      by_cases hquote : isDelimiter ch = true
      · have hnext : (LexState.code slash).next ch = .literal ch false := by
          simp [LexState.next, hquote]
        rw [hnext] at hclosed ⊢
        rcases LexState.after_literal ch hline.2 with hopen | ⟨body, rest, rfl, hbody, hafter⟩
        · simp [hopen] at hclosed
        · rw [hafter] at hclosed ⊢
          obtain ⟨before', hemptied⟩ := hbody.emptied_eq hquote before rest
          have hrest : '\n' ∉ rest := fun hmem => hline.2 (by simp [hmem])
          have hlt : rest.length < count := by
            simp only [List.length_append, List.length_cons] at hlen
            omega
          rw [hemptied, occurs_marker_cons (by decide)]
          have hquotes := occurs_marker_cons (by decide : '"' ≠ '/') false (emptied before' rest)
          exact (Bool.eq_iff_iff.1 hquotes).trans (ih _ hlt hrest before' hclosed rfl)
      · rw [emptied_cons (by simpa using hquote)]
        by_cases hslash : ch = '/'
        · subst hslash
          cases slash with
          | true =>
            -- the second slash of a marker
            have hnext : (LexState.code true).next '/' = .lineComment := rfl
            rw [hnext, LexState.after_lineComment]
            simp [pending, Text.occursInChars]
          | false =>
            have hnext : (LexState.code false).next '/' = .code true := rfl
            rw [hnext] at hclosed ⊢
            exact ih text.length (by omega) hline.2 ('/' :: before) hclosed rfl
        · have hnext : (LexState.code slash).next ch = .code false := by
            simp [LexState.next, hquote, hslash]
          rw [hnext] at hclosed ⊢
          rw [occurs_marker_cons hslash]
          exact ih text.length (by omega) hline.2 (ch :: before) hclosed rfl

/-- Unless it leaves a literal open, the lexer tells whether a place is in a comment: it has come to
a line comment there, or the line starts like a block comment. -/
theorem inCommentLine_iff_lexed (content : List Char) (position : Nat)
    (hclosed : (lexed (Cursor.ofPosition content position).lineHead).isOpen = false) :
    inCommentLine (Cursor.ofPosition content position) = true ↔
      lexed (Cursor.ofPosition content position).lineHead = .lineComment ∨
        "/*".toList <+: Text.trimStart (Cursor.ofPosition content position).lineHead ∨
        "*".toList <+: Text.trimStart (Cursor.ofPosition content position).lineHead := by
  generalize Cursor.ofPosition content position = c at hclosed ⊢
  have hline : '\n' ∉ c.lineHead := by
    intro hmem
    have hnot := List.mem_takeWhile_imp (List.mem_reverse.1 hmem)
    simp at hnot
  have hmarker := occurs_marker_iff hline [] hclosed
  rw [inCommentLine_eq, Bool.or_eq_true, Bool.or_eq_true, List.isPrefixOf_iff_prefix,
    List.isPrefixOf_iff_prefix, prefix_trimChars_emptied_iff (by decide) (by decide),
    prefix_trimChars_emptied_iff (by decide) (by decide), or_assoc]
  exact or_congr_left hmarker

/-- Slashes in a literal with an escaped quote, and quotes in a comment, are told apart. -/
theorem inCommentLine_iff_lexed_escaped :
    let content := "int a;\nurl(\"a\\\"//b\", '\"'); // it's \"x".toList
    (lexed (Cursor.ofPosition content 26).lineHead).isOpen = false ∧
      inCommentLine (Cursor.ofPosition content 26) = false ∧
      (lexed (Cursor.ofPosition content 37).lineHead).isOpen = false ∧
      inCommentLine (Cursor.ofPosition content 37) = true := by
  intro content
  have hcode : (lexed (Cursor.ofPosition content 26).lineHead).isOpen = false := by decide
  have hcomment : (lexed (Cursor.ofPosition content 37).lineHead).isOpen = false := by decide
  refine ⟨hcode, ?_, hcomment, ?_⟩
  · rw [Bool.eq_false_iff, Ne, inCommentLine_iff_lexed content 26 hcode]
    decide
  · exact (inCommentLine_iff_lexed content 37 hcomment).2 (.inl (by decide))

end ClassAtlas.Source
