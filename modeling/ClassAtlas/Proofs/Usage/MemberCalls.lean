import ClassAtlas.Proofs.Usage.Arity

/-! Under the permissive rule no member call is lost. The calls in a line are described without the
pattern: from left to right, each one read where the last one ends. A line with a member access has
as many usages as it has calls, since a name without a sigma that stands in a line also stands in
the lowered line when it is lowered. -/

namespace ClassAtlas.Usage

open Pattern Source

/-! ### Calls from left to right -/

/-- The text is a call that starts at a word boundary: a qualifier and a dot, or none, then the
name, blanks and the arguments in parentheses. What stands before it is given with the nearest
character first. -/
structure CallHere (methodName before call rest : List Char) : Prop where
  bounded : startsWord before ≠ startsWord (call ++ rest)
  written : ∃ lead gap args, (lead = [] ∨ ∃ w, Worded w ∧ lead = w ++ ['.']) ∧
    (∀ ch ∈ gap, Text.isBlank ch = true) ∧ ')' ∉ args ∧
    call = lead ++ (methodName ++ (gap ++ '(' :: (args ++ [')'])))

/-- The calls in a text. A character is passed over only if no call starts there, and a call is read
as a whole. -/
inductive CallsIn (methodName : List Char) : List Char → List Char → List (List Char) → Prop where
  | done (before : List Char) : CallsIn methodName before [] []
  | pass {before rest : List Char} {ch : Char} {calls : List (List Char)}
      (hnone : ∀ call rest', ch :: rest = call ++ rest' → ¬CallHere methodName before call rest')
      (hrest : CallsIn methodName (ch :: before) rest calls) :
      CallsIn methodName before (ch :: rest) calls
  | read {before call rest : List Char} {calls : List (List Char)}
      (hcall : CallHere methodName before call rest)
      (hrest : CallsIn methodName (call.reverse ++ before) rest calls) :
      CallsIn methodName before (call ++ rest) (call :: calls)

/-- A word that stands both at the start and behind a lead goes on, at the start, like the lead. -/
theorem class_of_repeated {cls : Char → Bool} {lead : List Char} (hne : lead ≠ [])
    (hlead : ∀ ch ∈ lead, cls ch = true) {word rest rest' : List Char} {x : Char}
    (h : word ++ x :: rest = lead ++ (word ++ rest')) : cls x = true := by
  induction hlength : word.length using Nat.strongRecOn generalizing word with
  | ind n ih =>
    have hword : word <+: lead ++ (word ++ rest') := h ▸ List.prefix_append _ _
    have hstart : lead <+: lead ++ (word ++ rest') := List.prefix_append _ _
    rcases Nat.lt_or_ge word.length lead.length with hlt | hge
    · -- the lead is longer, so the next character is one of its own
      obtain ⟨t, rfl⟩ := List.prefix_of_prefix_length_le hword hstart hlt.le
      rw [List.append_assoc] at h
      cases t with
      | nil => simp at hlt
      | cons y t =>
        obtain ⟨rfl, _⟩ := List.cons.inj (List.append_cancel_left h)
        exact hlead x (by simp)
    · -- the word starts with the lead, and what is left of it is shorter
      obtain ⟨t, rfl⟩ := List.prefix_of_prefix_length_le hstart hword hge
      rw [List.append_assoc, List.append_assoc] at h
      refine ih t.length ?_ (List.append_cancel_left h) rfl
      have hpos := List.length_pos_iff.2 hne
      rw [List.length_append] at hlength
      omega

/-- The parenthesis that opens the arguments is the first one behind the name and blanks. -/
theorem arguments_unique {gap gap' args args' rest rest' : List Char}
    (hgap : ∀ ch ∈ gap, Text.isBlank ch = true) (hgap' : ∀ ch ∈ gap', Text.isBlank ch = true)
    (hargs : ')' ∉ args) (hargs' : ')' ∉ args')
    (h : gap ++ '(' :: (args ++ ')' :: rest) = gap' ++ '(' :: (args' ++ ')' :: rest')) :
    gap = gap' ∧ args = args' := by
  obtain ⟨hgaps, _, hrest⟩ := split_unique hgap hgap' (by decide) (by decide) h
  obtain ⟨hall, _, _⟩ :=
    split_unique (bne_of_not_mem hargs) (bne_of_not_mem hargs') (by decide) (by decide) hrest
  exact ⟨hgaps, hall⟩

/-- A qualified call does not read as an unqualified one: the name would stand before a word or a
dot, where blanks or the parenthesis have to stand. -/
theorem unqualified_ne_qualified {methodName w gap rest rest' : List Char} (hw : Worded w)
    (hgap : ∀ ch ∈ gap, Text.isBlank ch = true) :
    methodName ++ (gap ++ '(' :: rest) ≠ (w ++ ['.']) ++ (methodName ++ rest') := by
  intro h
  have hdotted : ∀ ch ∈ w ++ ['.'], isDotted ch = true := by
    rw [List.forall_mem_append]
    refine ⟨fun ch hch => ?_, by decide⟩
    simp [isDotted, hw.2 ch hch]
  cases gap with
  | nil => exact absurd (class_of_repeated (by simp) hdotted h) (by decide)
  | cons x gap =>
    have hx := isBlank_of_isDotted (class_of_repeated (by simp) hdotted h)
    rw [hgap x List.mem_cons_self] at hx
    exact absurd hx (by decide)

theorem CallHere.unique {methodName before call rest call' rest' : List Char}
    (h : CallHere methodName before call rest) (h' : CallHere methodName before call' rest')
    (htext : call ++ rest = call' ++ rest') : call = call' := by
  obtain ⟨lead, gap, args, hlead, hgap, hargs, rfl⟩ := h.written
  obtain ⟨lead', gap', args', hlead', hgap', hargs', rfl⟩ := h'.written
  simp only [List.append_assoc, List.cons_append, List.nil_append] at htext
  have hsame : lead = lead' := by
    rcases hlead with rfl | ⟨w, hw, rfl⟩
    · rcases hlead' with rfl | ⟨w', hw', rfl⟩
      · rfl
      · exact absurd htext (unqualified_ne_qualified hw' hgap)
    · rcases hlead' with rfl | ⟨w', hw', rfl⟩
      · exact absurd htext.symm (unqualified_ne_qualified hw hgap')
      · rw [List.append_assoc, List.append_assoc] at htext
        obtain ⟨rfl, _, _⟩ := split_unique hw.2 hw'.2 (by decide) (by decide) htext
        rfl
  subst hsame
  have hrest := List.append_cancel_left (List.append_cancel_left htext)
  obtain ⟨rfl, rfl⟩ := arguments_unique hgap hgap' hargs hargs' hrest
  rfl

/-! ### What the pattern finds -/

section

variable {methodName : String} {before call rest : List Char}

theorem callHere_of_mem {c : Cursor} {r : Excerpt × Cursor} (h : r ∈ callPattern methodName c) :
    ∃ call, c.Reads call r.2 ∧ CallHere methodName.toList c.before call r.2.after := by
  obtain ⟨q, hq, _⟩ := mem_bind.1 h
  obtain ⟨hbound, _⟩ := mem_require.1 hq
  obtain ⟨lead, gap, hlead, hgap, hargs, hread⟩ := mem_callPattern h
  refine ⟨_, hread, ?_, lead, gap, r.1.chars, ?_, hgap, hargs, rfl⟩
  · rw [← hread.after_eq]
    exact bne_iff_ne.1 hbound
  · rcases hlead with ⟨hnil, _⟩ | hworded
    · exact .inl hnil
    · exact .inr hworded

theorem CallHere.exists_mem (h : CallHere methodName.toList before call rest) :
    ∃ args, (args, (⟨call.reverse ++ before, rest⟩ : Cursor)) ∈
      callPattern methodName ⟨before, call ++ rest⟩ := by
  have hbound := bne_iff_ne.2 h.bounded
  obtain ⟨lead, gap, args, hlead, hgap, hargs, rfl⟩ := h.written
  have hopen : ∀ ch ∈ args, (ch != ')') = true := bne_of_not_mem hargs
  have hqualifier : ∀ more, ((), (⟨lead.reverse ++ before, more⟩ : Cursor)) ∈
      maybe (do word; lit ".") ⟨before, lead ++ more⟩ := by
    intro more
    rcases hlead with rfl | ⟨w, hw, rfl⟩
    · exact mem_maybe.2 (.inr rfl)
    · rw [List.append_assoc, List.reverse_append, List.append_assoc]
      refine mem_maybe.2 (.inl (mem_bind_of_mem (Prefers.of_eq
        (run1_append hw.1 hw.2 (stops_cons (by decide)))).mem ?_))
      exact (Prefers.of_eq (lit_append "." _ _)).mem
  simp only [List.append_assoc, List.cons_append, List.nil_append, List.reverse_append,
    List.reverse_cons, List.reverse_nil] at hbound ⊢
  apply Exists.intro
  refine mem_bind_of_mem (mem_require.2 ⟨hbound, rfl⟩) ?_
  refine mem_bind_of_mem (hqualifier _) ?_
  refine mem_bind_of_mem (Prefers.of_eq (lit_append methodName _ _)).mem ?_
  refine mem_bind_of_mem (Prefers.of_eq (run_append hgap (stops_cons (by decide)))).mem ?_
  refine mem_bind_of_mem (Prefers.of_eq (lit_append "(" _ _)).mem ?_
  refine mem_bind_of_mem (Prefers.of_eq (run_append hopen (stops_cons (by decide)))).captured.mem ?_
  exact mem_bind_of_mem (Prefers.of_eq (lit_append ")" _ rest)).mem (mem_pure.2 rfl)

/-- The texts of the matches from a place on. -/
def foundCalls (methodName : String) (before text : List Char) : List (List Char) :=
  (matchesFrom (callPattern methodName) 0 before text).map (·.chars)

theorem foundCalls_nil : foundCalls methodName before [] = [] := by
  have hend := (callPattern_requires methodName).progress.eq_nil_at_end before
  rw [foundCalls, matchesFrom, matchAt?_eq_none.2 hend]
  rfl

theorem foundCalls_pass {ch : Char}
    (h : ∀ call rest', ch :: rest = call ++ rest' → ¬CallHere methodName.toList before call rest') :
    foundCalls methodName before (ch :: rest) = foundCalls methodName (ch :: before) rest := by
  have hnone : callPattern methodName ⟨before, ch :: rest⟩ = [] := by
    rw [List.eq_nil_iff_forall_not_mem]
    intro r hr
    obtain ⟨call, hread, hcall⟩ := callHere_of_mem hr
    exact h call r.2.after hread.after_eq hcall
  rw [foundCalls, matchesFrom, matchAt?_eq_none.2 hnone, foundCalls]

theorem CallHere.ne_nil {name : List Char} (h : CallHere name before call rest) : call ≠ [] := by
  obtain ⟨lead, gap, args, _, _, _, rfl⟩ := h.written
  simp

/-- Where a call stands the match is that call, since there is no other one to prefer. -/
theorem CallHere.foundCalls_eq (h : CallHere methodName.toList before call rest) :
    foundCalls methodName before (call ++ rest) =
      call :: foundCalls methodName (call.reverse ++ before) rest := by
  obtain ⟨_, hmem⟩ := h.exists_mem
  obtain ⟨args, ⟨before', rest'⟩, hprefers⟩ := exists_prefers (List.ne_nil_of_mem hmem)
  obtain ⟨call', hread, hcall'⟩ := callHere_of_mem hprefers.mem
  obtain rfl : call = call' := h.unique hcall' hread.after_eq
  obtain rfl : rest = rest' := List.append_cancel_left hread.after_eq
  have hfinds := hprefers.finds (g := fun m => some m.chars) call h.ne_nil rfl hread.before_eq
  rw [Finds, Excerpt.chars_append, List.filterMap_eq_map'] at hfinds
  exact hfinds

theorem callsIn_foundCalls (text : List Char) :
    CallsIn methodName.toList before text (foundCalls methodName before text) := by
  induction hlength : text.length using Nat.strongRecOn generalizing before text with
  | ind n ih =>
    cases text with
    | nil =>
      rw [foundCalls_nil]
      exact .done before
    | cons ch rest =>
      by_cases hcall : ∃ call rest', ch :: rest = call ++ rest' ∧
          CallHere methodName.toList before call rest'
      · obtain ⟨call, rest', htext, hcall⟩ := hcall
        have hshort : rest'.length < n := by
          have hpos := List.length_pos_iff.2 hcall.ne_nil
          rw [← hlength, htext, List.length_append]
          omega
        rw [htext, hcall.foundCalls_eq]
        exact .read hcall (ih _ hshort rest' rfl)
      · have hnone : ∀ call rest', ch :: rest = call ++ rest' →
            ¬CallHere methodName.toList before call rest' :=
          fun call rest' htext hhere => hcall ⟨call, rest', htext, hhere⟩
        rw [foundCalls_pass hnone]
        refine .pass hnone (ih rest.length ?_ rest rfl)
        rw [← hlength, List.length_cons]
        omega

/-- The calls of a line are the texts of the matches. -/
theorem callsIn_iff {text : List Char} {calls : List (List Char)} :
    CallsIn methodName.toList before text calls ↔ calls = foundCalls methodName before text := by
  constructor
  · intro h
    induction h with
    | done => exact foundCalls_nil.symm
    | pass hnone _ ih => rw [ih, foundCalls_pass hnone]
    | read hcall _ ih => rw [ih, hcall.foundCalls_eq]
  · rintro rfl
    exact callsIn_foundCalls text

end

/-! ### Lines with a member access -/

/-- The name of a call stands in the lowered line, and the dot is there as well. -/
theorem isLikelyCall_of_match {className methodName line : String}
    (hsigma : 'Σ' ∉ methodName.toList)
    (hdot : '.' ∈ line.toList) (hcall : (callPattern methodName).matchesIn line.toList ≠ []) :
    isLikelyCall .permissive className methodName line = true := by
  obtain ⟨m, hm⟩ := List.exists_mem_of_ne_nil _ hcall
  obtain ⟨htext, hmem⟩ := mem_matchesIn (callPattern_requires methodName).progress hm
  obtain ⟨lead, gap, _, _, _, hread⟩ := mem_callPattern hmem
  have hin : methodName.toList <:+: line.toList := by
    rw [← htext, Cursor.text, hread.after_eq]
    exact ⟨m.start.before.reverse ++ lead,
      gap ++ '(' :: (m.value.chars ++ ')' :: m.stop.after), by simp⟩
  have hname : Text.occursIn (Text.lower methodName) (Text.lower line) = true := by
    rw [Text.occursIn_iff, Text.toList_lower, Text.toList_lower]
    exact Text.infix_lowerChars hsigma hin
  simp only [isLikelyCall, hname, Text.occursIn_dot hdot, Bool.or_true, Bool.and_true]

/-- The usage is reported for this line of this class. -/
def ofLine (c : JavaClass) (index : Nat) (u : Usage) : Bool :=
  decide (u.sourceFile = c.filePath ∧ u.sourceClass = c.name ∧ u.lineNumber = index + 1)

/-- The classes have the same name and the same file. -/
def sameSource (c d : JavaClass) : Bool := decide (d.name = c.name ∧ d.filePath = c.filePath)

theorem countP_sameSource {classes : List JavaClass} {c : JavaClass}
    (h : (classes.map fun d => (d.name, d.filePath)).Nodup) (hc : c ∈ classes) :
    classes.countP (sameSource c) = 1 := by
  have hcount := h.count (a := (c.name, c.filePath))
  rw [if_pos (List.mem_map_of_mem hc), List.count, List.countP_map] at hcount
  rw [← hcount]
  apply List.countP_congr
  intro d _
  simp only [sameSource, decide_eq_true_eq, Function.comp_apply, beq_iff_eq, Prod.mk.injEq]

section

variable {α β : Type} {f : α → List β} {holds : β → Bool}

/-- Only the item at one place counts. -/
theorem countP_flatMap_zipIdx {items : List α} {index : Nat} {item : α} {g : α × Nat → List β}
    (hitem : items[index]? = some item) (h : ∀ p, p.2 ≠ index → ∀ b ∈ g p, holds b = false) :
    (items.zipIdx.flatMap g).countP holds = (g (item, index)).countP holds := by
  have hzero : ∀ part : List (α × Nat), (∀ p ∈ part, p.2 ≠ index) →
      (part.flatMap g).countP holds = 0 := by
    intro part hpart
    rw [List.countP_eq_zero]
    intro b hb
    obtain ⟨p, hp, hb⟩ := List.mem_flatMap.1 hb
    simp [h p (hpart p hp) b hb]
  obtain ⟨above, below, hsplit⟩ := List.append_of_mem (List.mk_mem_zipIdx_iff_getElem?.2 hitem)
  have horder := pairwise_zipIdx items
  rw [hsplit, List.pairwise_append, List.pairwise_cons] at horder
  obtain ⟨_, ⟨hbelow, _⟩, habove⟩ := horder
  rw [hsplit, List.flatMap_append, List.flatMap_cons, List.countP_append, List.countP_append,
    hzero above fun p hp => (habove p hp _ List.mem_cons_self).ne,
    hzero below fun p hp => (hbelow p hp).ne']
  omega

/-- Items of one kind count the same, and the other ones do not count. -/
theorem countP_flatMap_of_kind {items : List α} {kind : α → Bool} {k : Nat}
    (hkind : ∀ a, kind a = true → (f a).countP holds = k)
    (hother : ∀ a, kind a = false → (f a).countP holds = 0) :
    (items.flatMap f).countP holds = items.countP kind * k := by
  induction items with
  | nil => simp
  | cons a items ih =>
    rw [List.flatMap_cons, List.countP_append, ih]
    cases ha : kind a with
    | true =>
      rw [hkind a ha, List.countP_cons_of_pos ha, Nat.add_mul]
      omega
    | false => rw [hother a ha, List.countP_cons_of_neg (by simp [ha]), Nat.zero_add]

end

section

variable {settings : Settings} {load : Loader} {className methodName : String}

theorem source_of_mem_usagesFrom {c : JavaClass} {u : Usage}
    (h : u ∈ usagesFrom settings load className methodName c) :
    u.sourceFile = c.filePath ∧ u.sourceClass = c.name := by
  obtain ⟨source, hsource, hu⟩ := List.mem_flatMap.1 h
  obtain ⟨_, content, _, rfl⟩ := searched?_eq_some.1 (Option.mem_toList.1 hsource)
  rw [← map_sitesInSource 0] at hu
  obtain ⟨⟨s, u⟩, hs, rfl⟩ := List.mem_map.1 hu
  obtain ⟨_, line, _, _, _, hu⟩ := mem_sitesInSource.1 hs
  dsimp only
  rw [hu]
  exact ⟨rfl, rfl⟩

theorem usagesFrom_eq {c : JavaClass} (hname : c.name ≠ className) {content : String}
    (hload : (load c.filePath).value = .text content) :
    usagesFrom settings load className methodName c =
      methodUsagesIn settings className methodName ⟨c.filePath, c.name, Text.lines content⟩ := by
  rw [usagesFrom, searched?_eq_some.2 ⟨hname, content, hload, rfl⟩, Option.toList_some,
    List.flatMap_singleton]

/-- A line of a class with a member access has as many usages as it has calls. -/
theorem countP_usagesFrom (hrule : settings.usageAcceptance = .permissive)
    (hsigma : 'Σ' ∉ methodName.toList) {c : JavaClass} (hname : c.name ≠ className)
    {content : String}
    (hload : (load c.filePath).value = .text content) {line : String} {index : Nat}
    (hline : (Text.lines content)[index]? = some line) (hdot : '.' ∈ line.toList) :
    (usagesFrom settings load className methodName c).countP (ofLine c index) =
      (foundCalls methodName [] line.toList).length := by
  rw [usagesFrom_eq hname hload, methodUsagesIn_eq, countP_flatMap_zipIdx hline]
  · dsimp only
    rw [foundCalls, List.length_map, hrule]
    split
    · rw [List.countP_map, List.countP_eq_length.2]
      · rfl
      · intro m _
        simp [ofLine, SourceLines.usage]
    · next hrefused =>
      by_contra hne
      refine hrefused (isLikelyCall_of_match hsigma hdot fun hnil => hne ?_)
      rw [matchesIn] at hnil
      rw [hnil]
      rfl
  · rintro ⟨other, place⟩ hplace u hu
    dsimp only at hu hplace
    split at hu
    · obtain ⟨m, _, rfl⟩ := List.mem_map.1 hu
      simp [ofLine, SourceLines.usage, hplace]
    · exact absurd hu List.not_mem_nil

end

/-- Under the permissive rule, each line with a member access is reported as often as there are
calls in it, once for every entry of its class. The calls are those from left to right, and the line
is never refused when there is one. -/
theorem permissive_usages_of_member_calls (settings : Settings) (load : Loader) (atlas : Atlas)
    (className methodName : String) (hsigma : 'Σ' ∉ methodName.toList) (c : JavaClass)
    (hc : c ∈ atlas.classes) (hname : c.name ≠ className) (content : String)
    (hload : (load c.filePath).value = .text content) (line : String) (index : Nat)
    (hline : (Text.lines content)[index]? = some line) (hdot : '.' ∈ line.toList) :
    let usages :=
      (methodUsages { settings with usageAcceptance := .permissive } load atlas className
        methodName).value
    ∃ calls, CallsIn methodName.toList [] line.toList calls ∧
      (∀ calls', CallsIn methodName.toList [] line.toList calls' → calls' = calls) ∧
      usages.countP (ofLine c index) = atlas.classes.countP (sameSource c) * calls.length ∧
      ((atlas.classes.map fun d => (d.name, d.filePath)).Nodup →
        usages.countP (ofLine c index) = calls.length) ∧
      (calls ≠ [] → isLikelyCall .permissive className methodName line = true) := by
  intro usages
  have hcount : usages.countP (ofLine c index) =
      atlas.classes.countP (sameSource c) * (foundCalls methodName [] line.toList).length := by
    obtain ⟨classes, edges⟩ := atlas
    have hperm : usages.Perm _ :=
      (methodUsages_eq classes edges) ▸ List.perm_insertionSort ByArguments _
    rw [hperm.countP_eq]
    refine countP_flatMap_of_kind (fun d hd => ?_) fun d hd => ?_
    · obtain ⟨hdname, hdpath⟩ := of_decide_eq_true hd
      have hsame : ofLine c index = ofLine d index := by
        funext u
        rw [ofLine, ofLine, hdname, hdpath]
      rw [hsame]
      exact countP_usagesFrom rfl hsigma (hdname ▸ hname) (hdpath ▸ hload) hline hdot
    · rw [List.countP_eq_zero]
      intro u hu hof
      obtain ⟨hpath, hclass⟩ := source_of_mem_usagesFrom hu
      obtain ⟨hpath', hclass', _⟩ := of_decide_eq_true hof
      refine of_decide_eq_false hd ⟨?_, ?_⟩
      · rw [← hclass, hclass']
      · rw [← hpath, hpath']
  refine ⟨foundCalls methodName [] line.toList, callsIn_foundCalls _,
    fun _ => callsIn_iff.1, hcount, fun hnodup => ?_, fun hne => ?_⟩
  · rw [hcount, countP_sameSource hnodup hc, Nat.one_mul]
  · refine isLikelyCall_of_match hsigma hdot fun hnil => hne ?_
    rw [foundCalls, ← matchesIn, hnil]
    rfl

/-- The name grows when it is lowered, and a sigma that depends on its neighbours stands right
before it. -/
theorem permissive_usages_of_member_calls_sigma :
    let load := everywhere "x\nΑΣ.İd(a); b.İd (c, d);"
    let atlas : Atlas := ⟨[bareClass "Batch" "Batch.java"], []⟩
    let usages :=
      (methodUsages { Settings.default with usageAcceptance := .permissive } load atlas "Orders"
        "İd").value
    ∃ calls, CallsIn "İd".toList [] "ΑΣ.İd(a); b.İd (c, d);".toList calls ∧ calls.length = 2 ∧
      usages.countP (ofLine (bareClass "Batch" "Batch.java") 1) = calls.length := by
  intro load atlas usages
  have htwo : usages.countP (ofLine (bareClass "Batch" "Batch.java") 1) = 2 := by decide +kernel
  obtain ⟨calls, hcalls, _, _, hcount, _⟩ :=
    permissive_usages_of_member_calls Settings.default load atlas
    "Orders" "İd" (by decide) (bareClass "Batch" "Batch.java") (by simp [atlas]) (by decide)
    "x\nΑΣ.İd(a); b.İd (c, d);" rfl "ΑΣ.İd(a); b.İd (c, d);" 1 (by decide +kernel) (by decide)
  have hreported := hcount (by decide)
  exact ⟨calls, hcalls, hreported.symm.trans htwo, hreported⟩

end ClassAtlas.Usage
