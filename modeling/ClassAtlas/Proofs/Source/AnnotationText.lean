import ClassAtlas.Proofs.Source.AnnotationGrammar

/-! Annotations as they are written, with and without arguments: how they are cut out of a line,
what they are called, and what one on the last line adds to those of the lines above. -/

namespace ClassAtlas.Source

open Pattern

variable {name args rest before : List Char}

/-! ### Arguments -/

/-- Plain characters and literals, as they stand between parentheses. -/
inductive ArgumentText : List Char → Prop where
  | nil : ArgumentText []
  | plain {ch : Char} {s : List Char} (h : ch ∉ ['(', ')', '"', '\'']) (hs : ArgumentText s) :
      ArgumentText (ch :: s)
  | literal {text s : List Char} (h : '"' ∉ text) (hs : ArgumentText s) :
      ArgumentText ('"' :: (text ++ '"' :: s))

theorem argumentText_append {s t : List Char} (hs : ∀ ch ∈ s, ch ∉ ['(', ')', '"', '\''])
    (ht : ArgumentText t) : ArgumentText (s ++ t) := by
  induction s with
  | nil => exact ht
  | cons ch s ih =>
    exact .plain (hs ch List.mem_cons_self) (ih fun x hx => hs x (List.mem_cons_of_mem _ hx))

theorem ArgumentText.arguments (h : ArgumentText args) : Arguments args := by
  induction h with
  | nil => exact .nil
  | plain h _ ih => exact .plain h ih
  | literal h _ ih => exact .enclosed (by decide) ⟨h, h⟩ ih

/-! ### Single annotations -/

/-- An annotation without arguments. -/
theorem annotationToken_marker (hname : name ≠ []) (hdotted : ∀ ch ∈ name, isDotted ch = true)
    (hend : Stops isDotted rest) (hparen : '(' ∉ rest) (before : List Char) :
    annotationToken ⟨before, '@' :: (name ++ rest)⟩ =
      [((), ⟨name.reverse ++ '@' :: before, rest⟩)] := by
  have hnone : ∀ b, maybe (do blanks; lit "("; runOf argumentPiece; lit ")") ⟨b, rest⟩ =
      [((), ⟨b, rest⟩)] := by
    intro b
    refine maybe_eq_single (bind_eq_nil_of_forall fun r hr => bind_eq_nil (lit_eq_nil ?_))
    obtain ⟨gap, hgap, _⟩ := mem_run hr
    rintro ⟨more, hmore⟩
    refine hparen ?_
    have hafter : rest = gap ++ r.2.after := hgap.after_eq
    rw [hafter, ← hmore]
    simp
  have hat : lit "@" ⟨before, '@' :: (name ++ rest)⟩ = [((), ⟨'@' :: before, name ++ rest⟩)] :=
    lit_append "@" before _
  refine (bind_eq_of_single hat).trans ?_
  exact (bind_eq_of_single (run1_append hname hdotted hend)).trans (hnone _)

/-- An annotation with arguments is read up to its last parenthesis. -/
theorem prefers_annotationToken (hname : name ≠ []) (hdotted : ∀ ch ∈ name, isDotted ch = true)
    (hargs : ArgumentText args) (before rest : List Char) :
    annotationToken.Prefers ⟨before, '@' :: (name ++ '(' :: (args ++ ')' :: rest))⟩ ()
      ⟨')' :: (args.reverse ++ '(' :: (name.reverse ++ '@' :: before)), rest⟩ := by
  have hcall := prefers_call hname hdotted (fun ch hch => absurd hch List.not_mem_nil)
    hargs.arguments before rest
  simpa using hcall

theorem annotationToken_misses {line : List Char} (h : '@' ∉ line) :
    Misses annotationToken line := by
  refine misses_of_forall_mem fun ch hch before rest => bind_eq_nil (lit_at_of_ne ?_)
  rintro rfl
  exact h hch

/-- A line with an annotation at its start and no other one. -/
theorem splitAnnotations_eq {token : List Char} (hne : token ≠ [])
    (h : annotationToken.Prefers ⟨[], token ++ rest⟩ () ⟨token.reverse, rest⟩)
    (hrest : '@' ∉ rest) :
    splitAnnotations (token ++ rest) = [String.ofList token] := by
  have hfirst := h.finds (g := fun m => some m.text) token hne rfl (by simp)
  rw [← List.append_nil rest] at hfirst
  have hall := (Finds.append hfirst (annotationToken_misses hrest).finds).matchesIn rfl
  have htext : (annotationToken.matchesIn (token ++ rest)).map (·.text) =
      [String.ofList token] := by
    rw [← List.filterMap_eq_map]
    simpa [Function.comp_def] using hall
  unfold splitAnnotations
  split
  · next hnil => simp [hnil] at htext
  · exact htext

theorem Worded.dotted {w : List Char} (hw : Worded w) : ∀ ch ∈ w, isDotted ch = true := by
  intro ch hch
  simp [isDotted, hw.2 ch hch]

theorem splitAnnotations_marker (hname : Worded name) :
    splitAnnotations ('@' :: name) = [String.ofList ('@' :: name)] := by
  have htoken := annotationToken_marker hname.1 hname.dotted stops_nil List.not_mem_nil []
  have hsingle : splitAnnotations (('@' :: name) ++ []) = _ :=
    splitAnnotations_eq (by simp) (.of_eq (by simpa using htoken)) List.not_mem_nil
  simpa using hsingle

/-- A line with a single annotation that has no arguments. -/
theorem marking_marker (hname : Worded name) : Marking ('@' :: name) := by
  refine ⟨⟨_, rfl⟩, ?_, ?_⟩
  · intro ch hch
    rcases List.mem_cons.1 (List.mem_reverse.1 (List.mem_of_head? hch)) with rfl | hmem
    · decide
    · exact Text.isBlank_of_isWord (hname.2 ch hmem)
  · have hword : '\n' ∉ name := not_mem_of_worded hname (by decide)
    simp [hword]

/-- The simple name of an annotation that is not qualified. -/
theorem annotationName_eq (hname : Worded name) (hend : Stops isDotted rest) :
    annotationName (String.ofList ('@' :: (name ++ rest))) = String.ofList name := by
  have hfirst : Stops Text.isBlank (name ++ rest) := by
    obtain ⟨x, hx, hword⟩ := hname.head rest
    intro ch hch
    obtain rfl : x = ch := Option.some.inj (hx.symm.trans hch)
    exact Text.isBlank_of_isWord hword
  have hread : annotationNamePattern.Prefers ⟨[], '@' :: (name ++ rest)⟩
      ⟨⟨['@'], name ++ rest⟩, ⟨name.reverse ++ ['@'], rest⟩⟩ ⟨name.reverse ++ ['@'], rest⟩ := by
    refine Prefers.bind (.of_eq (lit_append "@" [] _)) ?_
    refine Prefers.bind (.of_eq (run_none hfirst)) ?_
    exact (Prefers.of_eq (run1_append hname.1 hname.dotted hend)).captured
  have hsearch := hread.search misses_nil (by simp)
  have hdot : ∀ ch ∈ name.reverse, (ch != '.') = true := by
    intro ch hch
    rw [bne_iff_ne]
    rintro rfl
    exact not_mem_of_worded hname (by decide) (List.mem_reverse.1 hch)
  rw [List.nil_append] at hsearch
  rw [annotationName, String.toList_ofList, hsearch]
  simp [Text.afterLast, List.takeWhile_eq_self_iff.2 hdot]

/-! ### The last line -/

theorem trailingAnnotations_search {ind gap : List Char} (hind : ∀ ch ∈ ind, ch = ' ')
    (hname : Worded name) (hgap : ∀ ch ∈ gap, ch = ' ') :
    trailingAnnotations.search (ind ++ '@' :: (name ++ gap)) =
      some ⟨⟨⟨ind.reverse, '@' :: (name ++ gap)⟩,
        ⟨gap.reverse ++ (name.reverse ++ '@' :: ind.reverse), []⟩⟩, ()⟩ := by
  have hend : Stops isDotted gap := by
    intro ch hch
    rw [hgap ch (List.mem_of_head? hch)]
    decide
  have hblanks : ∀ b, blanks ⟨b, gap ++ []⟩ = _ :=
    fun b => run_append (isBlank_of_spaces hgap) stops_nil
  have htoken := annotationToken_marker hname.1 hname.dotted hend
    (not_mem_of_spaces hgap (by decide)) ind.reverse
  rw [List.append_nil] at hblanks
  have hnone : ∀ b, (runOf (do annotationToken; blanks)) ⟨b, []⟩ = [((), ⟨b, []⟩)] :=
    fun b => runOf_eq_single rfl
  refine Prefers.search (trailingAnnotations_misses (not_mem_of_spaces hind (by decide)))
    (by simp) ?_
  refine Prefers.bind (.of_eq htoken) (Prefers.bind (.of_eq (hblanks _)) ?_)
  exact Prefers.bind (.of_eq (hnone _)) (prefers_require rfl)

/-- What stands behind nothing but spaces on the last line goes behind the annotations above. -/
theorem annotationsIn_lastLine {text last : List Char} {m : Match Unit} (h : WholeLines text)
    (hno : '\n' ∉ last) (hsearch : trailingAnnotations.search last = some m)
    (hind : ∀ ch ∈ m.start.before, ch = ' ') :
    annotationsIn (text ++ last) =
      annotationsIn text ++ splitAnnotations (Text.trimChars m.chars) := by
  have hblank : Text.trimChars m.start.before.reverse = [] :=
    Text.trimChars_eq_nil (isBlank_of_spaces fun ch hch => hind ch (List.mem_reverse.1 hch))
  rcases h.suffix (List.suffix_refl text) with rfl | ⟨s, rfl, _⟩
  · have hnone : annotationsIn [] = [] := annotationsIn_spaces (by simp)
    rw [hnone, List.nil_append, annotationsIn, List.splitOn_eq_singleton hno]
    simp [hsearch, hblank, annotationsAbove]
  · rw [annotationsIn_append_spaces (by simp)]
    unfold annotationsIn
    rw [List.append_assoc, List.singleton_append, List.splitOn_append_cons_self,
      List.splitOn_eq_singleton hno, List.reverse_append]
    simp [hsearch, hblank]

/-- An annotation before the declaration and on its line stands behind those of the lines above. -/
theorem annotationsIn_trailing {text ind gap : List Char} (h : WholeLines text)
    (hind : ∀ ch ∈ ind, ch = ' ') (hname : Worded name) (hgap : ∀ ch ∈ gap, ch = ' ') :
    annotationsIn (text ++ (ind ++ '@' :: (name ++ gap))) =
      annotationsIn text ++ [String.ofList ('@' :: name)] := by
  have hlast : Stops Text.isBlank ('@' :: name).reverse := (marking_marker hname).ends
  have htrim : Text.trimChars ([] ++ (('@' :: name) ++ gap)) = '@' :: name :=
    Text.trimChars_append (by simp) (isBlank_of_spaces hgap) (by simp)
      (stops_cons (by decide)) hlast
  have hno : '\n' ∉ ind ++ '@' :: (name ++ gap) := by
    have hword : '\n' ∉ name := not_mem_of_worded hname (by decide)
    simp [not_mem_of_spaces hind, not_mem_of_spaces hgap, hword]
  have hchars : Excerpt.chars ⟨⟨ind.reverse, '@' :: (name ++ gap)⟩,
      ⟨gap.reverse ++ (name.reverse ++ '@' :: ind.reverse), []⟩⟩ = '@' :: (name ++ gap) :=
    List.take_of_length_le (by simp [Excerpt.length])
  have hall := annotationsIn_lastLine h hno (trailingAnnotations_search hind hname hgap)
    fun ch hch => hind ch (List.mem_reverse.1 hch)
  rw [List.nil_append, List.cons_append] at htrim
  rw [hchars, htrim, splitAnnotations_marker hname] at hall
  exact hall

end ClassAtlas.Source
