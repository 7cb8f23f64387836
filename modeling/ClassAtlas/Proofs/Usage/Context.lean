import ClassAtlas.Proofs.Text.Pieces
import ClassAtlas.Proofs.Usage.ClassMentions

/-! A usage agrees with the source that it was drawn from. Its number and its snippet name one line,
its context shows the lines around that one, as far as there are any, and its parameters are proper
arguments. -/

namespace ClassAtlas.Usage

/-! ### The lines around a line -/

/-- The context shows the lines within the radius, as far as the file goes. The line itself has an
arrow and the other ones have two spaces before them. -/
structure ShowsAround (radius : Nat) (lines : List String) (index : Nat)
    (snippet context : String) : Prop where
  length : (Text.lines context).length =
    min (lines.length - 1) (index + radius) - (index - radius) + 1
  marked : (Text.lines context)[min index radius]? = some ("→ " ++ snippet)
  unmarked : ∀ k < (Text.lines context).length, k ≠ min index radius →
    ∃ line, lines[index - radius + k]? = some line ∧
      (Text.lines context)[k]? = some ("  " ++ Text.trim line)

/-- A line of the context of another line. -/
def shownLine (index : Nat) (numbered : String × Nat) : String :=
  (if numbered.2 = index then "→ " else "  ") ++ Text.trim numbered.1

section

variable {radius index : Nat} {lines : List String}

theorem newline_not_mem_shownLine {numbered : String × Nat} (h : '\n' ∉ numbered.1.toList) :
    '\n' ∉ (shownLine index numbered).toList := by
  have htrim : '\n' ∉ (Text.trim numbered.1).toList := by
    rw [Text.trim, String.toList_ofList]
    exact fun hmem => h (Text.mem_of_mem_trimChars hmem)
  unfold shownLine
  rw [String.toList_append, List.mem_append, not_or]
  refine ⟨?_, htrim⟩
  split
  · decide
  · decide

theorem lines_contextOf (hindex : index < lines.length) (hlines : ∀ l ∈ lines, '\n' ∉ l.toList) :
    Text.lines (contextOf radius lines index) =
      ((lines.zipIdx.take (index + radius + 1)).drop (index - radius)).map (shownLine index) := by
  apply Text.lines_intercalate
  · apply List.ne_nil_of_length_pos
    simp only [List.length_map, List.length_drop, List.length_take, List.length_zipIdx]
    omega
  · intro s hs
    obtain ⟨numbered, hnumbered, rfl⟩ := List.mem_map.1 hs
    apply newline_not_mem_shownLine
    have hmem := List.mem_of_mem_take (List.mem_of_mem_drop hnumbered)
    exact hlines _ (List.fst_mem_of_mem_zipIdx hmem)

/-- The lines of the context are counted from the first one that is shown. -/
theorem getElem?_lines_contextOf (hindex : index < lines.length)
    (hlines : ∀ l ∈ lines, '\n' ∉ l.toList) {k : Nat} (hk : index - radius + k ≤ index + radius) :
    (Text.lines (contextOf radius lines index))[k]? =
      lines[index - radius + k]?.map fun line => shownLine index (line, index - radius + k) := by
  rw [lines_contextOf hindex hlines, List.getElem?_map, List.getElem?_drop,
    List.getElem?_take_of_lt (by omega), List.getElem?_zipIdx, Option.map_map, Nat.zero_add]
  rfl

theorem showsAround_contextOf {line : String} (hline : lines[index]? = some line)
    (hlines : ∀ l ∈ lines, '\n' ∉ l.toList) :
    ShowsAround radius lines index (Text.trim line) (contextOf radius lines index) := by
  obtain ⟨hindex, _⟩ := List.getElem?_eq_some_iff.1 hline
  have hlength : (Text.lines (contextOf radius lines index)).length =
      min (lines.length - 1) (index + radius) - (index - radius) + 1 := by
    rw [lines_contextOf hindex hlines]
    simp only [List.length_map, List.length_drop, List.length_take, List.length_zipIdx]
    omega
  refine ⟨hlength, ?_, ?_⟩
  · have hplace : index - radius + min index radius = index := by omega
    rw [getElem?_lines_contextOf hindex hlines (by omega), hplace, hline]
    simp [shownLine]
  · intro k hk hother
    rw [hlength] at hk
    have hinside : index - radius + k < lines.length := by omega
    refine ⟨lines[index - radius + k], List.getElem?_eq_getElem hinside, ?_⟩
    rw [getElem?_lines_contextOf hindex hlines (by omega), List.getElem?_eq_getElem hinside]
    have hne : index - radius + k ≠ index := by omega
    simp [shownLine, hne]

end

/-! ### Arguments -/

/-- An argument is not empty, and it has no blank at its ends and no comma. -/
structure ProperArgument (argument : String) : Prop where
  nonempty : argument ≠ ""
  trimmed : Text.Trimmed argument.toList
  single : ',' ∉ argument.toList

theorem properArgument_of_mem {text argument : String} (h : argument ∈ arguments text) :
    ProperArgument argument := by
  obtain ⟨hmem, hne⟩ := List.mem_filter.1 h
  obtain ⟨piece, hpiece, rfl⟩ := List.mem_map.1 hmem
  obtain ⟨chars, hchars, rfl⟩ := List.mem_map.1 hpiece
  refine ⟨by simpa using hne, ?_, ?_⟩
  · rw [Text.trim, String.toList_ofList]
    exact Text.trimmed_trimChars _
  · rw [Text.trim, String.toList_ofList, String.toList_ofList]
    exact fun hcomma => Text.not_mem_of_mem_splitOn hchars (Text.mem_of_mem_trimChars hcomma)

/-! ### Usages and their lines -/

/-- The usage describes a line of the source of a class of another name, with the lines around
it. -/
def DrawnFrom (load : Loader) (atlas : Atlas) (className : String) (radius : Nat) (u : Usage) :
    Prop :=
  ∃ c ∈ atlas.classes, c.name = u.sourceClass ∧ c.name ≠ className ∧ c.filePath = u.sourceFile ∧
    ∃ content, (load c.filePath).value = .text content ∧
      1 ≤ u.lineNumber ∧ u.lineNumber ≤ (Text.lines content).length ∧
      (Text.lines content)[u.lineNumber - 1]?.map Text.trim = some u.snippet ∧
      ShowsAround radius (Text.lines content) (u.lineNumber - 1) u.snippet u.context

section

variable {settings : Settings} {load : Loader} {atlas : Atlas} {className : String}

theorem drawnFrom_usage {source : SourceLines}
    (hsource : source ∈ (otherSources load className atlas).value) {line : String} {index : Nat}
    (hline : source.lines[index]? = some line) (radius : Nat) (methodName : String)
    (parameters : List String) :
    DrawnFrom load atlas className radius
      (source.usage radius methodName line index parameters) := by
  obtain ⟨c, hc, hname, content, hload, rfl⟩ := mem_otherSources.1 hsource
  obtain ⟨hindex, _⟩ := List.getElem?_eq_some_iff.1 hline
  have hshows : ShowsAround radius (Text.lines content) index (Text.trim line)
      (contextOf radius (Text.lines content) index) :=
    showsAround_contextOf hline fun _ => Text.not_mem_of_mem_lines
  refine ⟨c, hc, rfl, hname, rfl, content, hload, Nat.le_add_left 1 index, hindex, ?_, hshows⟩
  exact congrArg (Option.map Text.trim) hline

theorem exists_source_of_mem_classUsages {u : Usage}
    (h : u ∈ (classUsages settings load atlas className).value) :
    ∃ source ∈ (otherSources load className atlas).value, ∃ line index,
      source.lines[index]? = some line ∧
      u = source.usage settings.contextRadius classUsageTag line index [] := by
  rw [value_classUsages] at h
  obtain ⟨source, hsource, hu⟩ := List.mem_flatMap.1 ((takeUpTo_sublist _ _).subset h)
  obtain ⟨line, index, hline, _, rfl⟩ := mem_classUsagesIn.1 hu
  exact ⟨source, hsource, line, index, hline, rfl⟩

end

/-- Every usage that is found, of a method or of a class, is drawn from its line, and its parameters
are proper arguments. -/
theorem usages_drawnFrom (settings : Settings) (load : Loader) (atlas : Atlas)
    (className methodName : String) (u : Usage)
    (h : u ∈ (methodUsages settings load atlas className methodName).value ∨
      u ∈ (classUsages settings load atlas className).value) :
    DrawnFrom load atlas className settings.contextRadius u ∧
      ∀ p ∈ u.parameters, ProperArgument p := by
  rcases h with h | h
  · obtain ⟨source, hsource, line, index, hline, _, m, _, rfl⟩ := mem_methodUsages.1 h
    exact ⟨drawnFrom_usage hsource hline _ _ _, fun p hp => properArgument_of_mem hp⟩
  · obtain ⟨source, hsource, line, index, hline, rfl⟩ := exists_source_of_mem_classUsages h
    exact ⟨drawnFrom_usage hsource hline _ _ _, fun p hp => absurd hp List.not_mem_nil⟩

/-- The call stands in the first line, where the context is cut off above. -/
theorem usages_drawnFrom_first :
    let load := everywhere "  orders.save( a , b );\n\tint n;\n\x7d"
    let atlas : Atlas := ⟨[bareClass "Batch" "Batch.java"], []⟩
    let settings := { Settings.default with contextRadius := 1 }
    let u : Usage := ⟨"Batch.java", "Batch", "save", 1, "orders.save( a , b );",
      "→ orders.save( a , b );\n  int n;", ["a", "b"]⟩
    u ∈ (methodUsages settings load atlas "Orders" "save").value ∧
      DrawnFrom load atlas "Orders" 1 u ∧ ∀ p ∈ ["a", "b"], ProperArgument p := by
  intro load atlas settings u
  have hu : u ∈ (methodUsages settings load atlas "Orders" "save").value := by decide +kernel
  exact ⟨hu, usages_drawnFrom settings load atlas "Orders" "save" u (.inl hu)⟩

end ClassAtlas.Usage
