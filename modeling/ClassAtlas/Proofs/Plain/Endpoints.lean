import ClassAtlas.Proofs.Plain.Mappings
import ClassAtlas.Proofs.Plain.Methods

/-! Reading a plain controller gives back the endpoints that it serves. Each method is found behind
its mapping and gets this mapping alone, whatever the methods around it are mapped to. -/

namespace ClassAtlas.Plain

open Source Role Pattern

variable {α : Type} {p : Pattern α} {text before rest : List Char}

/-! ### Lines with annotations are missed -/

/-- A mapping declares no member, as long as its at sign starts none. -/
theorem misses_mapping {gapped : Bool} (hp : LeadsOnly gapped ['('] p) (hfree : FreeOnly p)
    (m : Mapping) (path : Path)
    (hat : ∀ before more, p ⟨before, m.chars path ++ (rest ++ more)⟩ = [])
    (hrest : Misses p rest) : Misses p (m.chars path ++ rest) := by
  have hmarks : ∀ ch ∈ [' ', '=', ',', '"', '/', '.', '-', '{', '}'],
      isPhrase ch = true ∨ Breaks ['('] ch := by decide
  have hmarked : ∀ ch ∈ m.arguments path, isPhrase ch = true ∨ Breaks ['('] ch := by
    intro ch hch
    rcases m.mem_arguments path hch with h | h
    · exact .inl (isPhrase_of_isWord h)
    · exact hmarks ch h
  have hargs := (hp.misses_mark (show Text.isWord '(' = false by decide) (by decide)).cons
    (hp.misses_marked parenthesis_proper hmarked (show Breaks ['('] ')' by decide) hrest)
  have hall := hfree.misses_name m.kind.worded.2 (fun before more => ?_) hargs
  · simpa [Mapping.chars] using hall
  · simpa [Mapping.chars] using hat before more

/-- A mapping and the blanks behind it are read as one annotation. -/
theorem prefers_mapping (m : Mapping) (path : Path) {gap : List Char}
    (hgap : ∀ ch ∈ gap, Text.isBlank ch = true) (hrest : Stops Text.isBlank rest)
    (before : List Char) :
    annotationItem.Prefers ⟨before, m.chars path ++ (gap ++ rest)⟩ ()
      ⟨gap.reverse ++ ((m.chars path).reverse ++ before), rest⟩ := by
  have hclose := m.not_mem_arguments path (show Text.isWord ')' = false by decide) (by decide)
  have hitem : annotationItem.Prefers ⟨before, _⟩ () _ := prefers_annotationItem_arguments
    m.kind.worded.1 m.kind.worded.dotted hclose hgap hrest
  simpa [Mapping.chars] using hitem

namespace Controller

variable (c : Controller)

/-! ### The annotations of the class -/

/-- The name of the marker. -/
def markerName : String := if c.isRest then "RestController" else "Controller"

theorem marker_eq : c.marker = String.ofList ('@' :: c.markerName.toList) := by
  unfold marker markerName
  split <;> rfl

theorem marker_toList : c.marker.toList = '@' :: c.markerName.toList := by
  rw [c.marker_eq, String.toList_ofList]

theorem markerName_worded : Worded c.markerName.toList := by
  unfold markerName
  split <;> decide

theorem markerName_mem : c.markerName ∈ controllerMarkers := by
  unfold markerName
  split <;> decide

theorem annotationName_marker : annotationName c.marker = c.markerName := by
  have hname := annotationName_eq c.markerName_worded stops_nil
  rwa [List.append_nil, String.ofList_toList, ← c.marker_eq] at hname

theorem markers_none (h : c.base = none) : c.markers = c.marker.toList ++ ['\n'] := by
  simp [markers, h]

theorem markers_some {b : Path} (h : c.base = some b) :
    c.markers = (c.marker.toList ++ ['\n']) ++ (baseMapping b ++ ['\n']) := by
  simp [markers, h]

theorem wholeLines_markers : WholeLines c.markers := by
  cases h : c.base with
  | none =>
    rw [c.markers_none h]
    exact wholeLines_append_newline _
  | some b =>
    rw [c.markers_some h]
    exact (wholeLines_append_newline _).append (wholeLines_append_newline _)

/-- The annotations above the class line are those of the controller. -/
theorem annotationsIn_markers : annotationsIn c.markers = c.annotations := by
  have hfirst : annotationsIn (c.marker.toList ++ ['\n']) = [c.marker] := by
    have hline : annotationsIn ([] ++ ([] ++ ('@' :: c.markerName.toList ++ ['\n']))) = _ :=
      annotationsIn_marking (by simp [WholeLines]) (by simp) (marking_marker c.markerName_worded)
    rw [splitAnnotations_marker c.markerName_worded, ← c.marker_eq, ← c.marker_toList] at hline
    exact hline
  cases h : c.base with
  | none => simp [c.markers_none h, hfirst, annotations, h]
  | some b =>
    have hline : annotationsIn ((c.marker.toList ++ ['\n']) ++ ([] ++ (baseMapping b ++ ['\n']))) =
        _ :=
      annotationsIn_marking (wholeLines_append_newline _) (by simp) (marking_mapping _ b)
    have hsplit : splitAnnotations (baseMapping b) = [String.ofList (baseMapping b)] :=
      splitAnnotations_mapping _ b
    rw [hfirst, hsplit, List.nil_append] at hline
    rw [c.markers_some h, hline]
    simp [annotations, h]

theorem isController_annotations : isController c.annotations = true := by
  have hmarker : controllerMarkers.contains (annotationName c.marker) = true := by
    rw [c.annotationName_marker, List.contains_iff_mem]
    exact c.markerName_mem
  rw [isController, annotations, List.any_cons, hmarker, Bool.true_or]

/-- The base path of a controller is empty if it has none. -/
theorem basePath?_annotations : (basePath? c.annotations).getD "" = c.base.elim "" Path.text := by
  have hmarker : (annotationName c.marker == "RequestMapping") = false := by
    rw [c.annotationName_marker]
    exact (by decide : ∀ name ∈ controllerMarkers, (name == "RequestMapping") = false) _
      c.markerName_mem
  cases h : c.base with
  | none => simp [basePath?, annotations, h, hmarker]
  | some b =>
    have hname : annotationName (String.ofList (baseMapping b)) = "RequestMapping" :=
      annotationName_mapping (.positional .request) b
    simp only [basePath?, annotations, h, Option.elim_some, List.find?_cons, hmarker, hname,
      beq_self_eq_true, Option.bind_some]
    by_cases hb : b.chars = []
    · have hnone : mappingPath? "@RequestMapping(\"\")" "RequestMapping" = none := by decide +kernel
      have htext : String.ofList (baseMapping b) = "@RequestMapping(\"\")" := by
        simp [baseMapping, Mapping.chars, Mapping.arguments, quoted, hb]
        decide
      rw [htext, hnone, Path.text, hb]
      rfl
    · have hpath : mappingPath? (String.ofList (baseMapping b)) "RequestMapping" = some b.text :=
        mappingPath?_chars (.positional .request) hb
      rw [hpath, Option.getD_some]

/-! ### The class line -/

theorem classPattern_misses_markers : Misses classPattern c.markers := by
  have hwords : ∀ k ∈ classWords, Worded k.toList := by decide
  have hmarker : ∀ {rest}, Misses classPattern rest →
      Misses classPattern ((c.marker.toList ++ ['\n']) ++ rest) := by
    intro rest hrest
    refine misses_clear classPattern_wordsOnly hwords ?_ hrest
    unfold marker
    split <;> decide
  cases h : c.base with
  | none =>
    have hall := hmarker misses_nil
    rwa [List.append_nil, ← c.markers_none h] at hall
  | some b =>
    have hpath : ∀ ch ∈ b.chars, Text.isBlank ch = false := by
      have hmarks : ∀ ch ∈ ['/', '.', '-', '{', '}'], Text.isBlank ch = false := by decide
      intro ch hch
      rcases b.mem_chars hch with hword | hmark
      · exact Text.isBlank_of_isWord hword
      · exact hmarks ch hmark
    have hend : Misses classPattern (['"', ')', '\n'] ++ []) :=
      misses_clear classPattern_wordsOnly hwords (by decide) misses_nil
    have hquoted : Misses classPattern (b.chars ++ ['"', ')', '\n']) :=
      classPattern_wordsOnly.misses_unbroken hwords hpath (by decide) (by decide) hend
    have hline : Misses classPattern
        ("@RequestMapping(\"".toList ++ (b.chars ++ ['"', ')', '\n'])) :=
      misses_clear classPattern_wordsOnly hwords (by decide) hquoted
    have htext : baseMapping b ++ ['\n'] =
        "@RequestMapping(\"".toList ++ (b.chars ++ ['"', ')', '\n']) := by
      simp [baseMapping, Mapping.chars, Mapping.arguments, Mapping.kind, MappingKind.name, quoted]
    rw [c.markers_some h, htext]
    exact hmarker hline

theorem classHeader?_text :
    ∃ header, classHeader? c.text = some header ∧ header.name = c.name.text ∧
      annotationsBefore header.start none = c.annotations := by
  obtain ⟨header, hheader, hstart, hname, _⟩ := classHeader_classLine c.shell
    c.classPattern_misses_markers c.wholeLines_markers
      (c.methods.flatMap MappedMethod.lines ++ ['}', '\n'])
  refine ⟨header, hheader, hname, ?_⟩
  rw [hstart, ← c.annotationsIn_markers]
  simp [annotationsBefore, Cursor.lookBack]

/-- What stands before the methods. -/
def preamble : List Char := c.markers ++ c.shell.classLine

theorem fenced_preamble : Fenced c.preamble := c.shell.fenced_classLine c.wholeLines_markers

theorem classLine_eq : ∃ line, c.shell.classLine = 'p' :: line := ⟨_, rfl⟩

/-- Before its methods a controller has no method and no constructor. -/
theorem misses_preamble {gapped : Bool} (hp : LeadsOnly gapped ['('] p) (hfree : FreeOnly p)
    (hskip : ∀ {c d}, annotationItem.Prefers c () d → p d = [] → p c = []) :
    Misses p c.preamble := by
  have hclass : Misses p c.shell.classLine :=
    member_misses_classLine hp parenthesis_proper (by decide) (by decide) c.shell
  have hnewline : Misses p ['\n'] := hp.misses_mark (by decide) (by decide)
  have hmarker : ∀ {x : Char} {rest : List Char}, Text.isBlank x = false → Misses p (x :: rest) →
      Misses p ((c.marker.toList ++ ['\n']) ++ x :: rest) := by
    intro x rest hx hrest
    have hname := c.markerName_worded
    have hline := hfree.misses_name hname.2 (fun before more => ?_) (hnewline.append hrest)
    · simpa [c.marker_toList] using hline
    · have hstop : Stops isDotted (['\n'] ++ x :: (rest ++ more)) := stops_cons (by decide)
      have hitem : annotationItem.Prefers ⟨before, _⟩ () _ :=
        prefers_annotationItem hname.1 hname.dotted (by decide) hstop (by simp) (stops_cons hx)
      exact hskip hitem (hrest.eq_nil_at_start (by simp) _ more)
  unfold preamble
  obtain ⟨line, hline⟩ := c.classLine_eq
  rw [hline] at hclass ⊢
  cases h : c.base with
  | none =>
    rw [c.markers_none h]
    exact hmarker (by decide) hclass
  | some b =>
    have hbase : Misses p (baseMapping b ++ (['\n'] ++ 'p' :: line)) := by
      refine misses_mapping hp hfree _ b (fun before more => ?_) (hnewline.append hclass)
      have hitem := prefers_mapping (.positional .request) b
        (show ∀ ch ∈ ['\n'], Text.isBlank ch = true by decide)
        (show Stops Text.isBlank ('p' :: (line ++ more)) from stops_cons (by decide)) before
      exact hskip hitem (hclass.eq_nil_at_start (by simp) _ more)
    obtain ⟨mapping, hmapping⟩ : ∃ mapping, baseMapping b = '@' :: mapping := ⟨_, rfl⟩
    rw [hmapping, List.cons_append] at hbase
    have hall := hmarker (by decide) hbase
    rw [c.markers_some h, hmapping]
    simpa only [List.append_assoc, List.cons_append] using hall

end Controller

/-! ### Mapped methods in place -/

namespace MappedMethod

variable (m : MappedMethod)

/-- The line of the mapping. -/
def line : List Char := "    ".toList ++ (m.markerText ++ ['\n'])

theorem lines_eq : m.lines = m.line ++ m.plain.lines := by
  unfold lines line
  simp only [List.append_assoc, List.cons_append, List.nil_append]

/-- A mapped method whose lines start at the position. -/
def located (position : Nat) : LocatedMethod :=
  { m.plain.located (position + m.line.length) with
    method := { m.plain.method with annotations := [String.ofList m.markerText] } }

theorem fenced (text : List Char) : Fenced (text ++ m.lines) := by
  rw [m.lines_eq, ← List.append_assoc]
  exact m.plain.fenced (text ++ m.line)

/-- The mapping is the only annotation of its method. -/
theorem annotationsBefore_line {window : Option Int} (h : Fenced text)
    (hshow : Shows window (m.markerText ++ '\n' :: "    ".toList).length) (after : List Char) :
    annotationsBefore ⟨(text ++ m.line ++ "    ".toList).reverse, after⟩ window =
      [String.ofList m.markerText] := by
  have hall := annotationsBefore_marking h (show ∀ ch ∈ "    ".toList, ch = ' ' by decide)
    (marking_mapping m.mapping m.path) (show ∀ ch ∈ "    ".toList, ch = ' ' by decide)
    hshow after
  rw [splitAnnotations_mapping] at hall
  unfold line markerText
  simpa only [List.append_assoc, List.cons_append, List.nil_append] using hall

/-- The scan for methods finds a mapped method in its lines, with its mapping. -/
theorem finds_method {window : Option Int} (h : Fenced text)
    (hshow : Shows window (m.markerText ++ '\n' :: "    ".toList).length) (rest : List Char) :
    Finds methodPattern (fun x => methodOfHead? window x.value) text.reverse m.lines rest
      [m.located text.length] := by
  have hspace : StartsFree ⟨"    ".toList.reverse ++ (text ++ m.line).reverse,
      m.plain.signature ++ '{' :: (m.plain.body ++ '}' :: '\n' :: rest)⟩ :=
    startsFree_space ("   ".toList.reverse ++ (text ++ m.line).reverse) _
  obtain ⟨head, hprefers, hstart, hopening, hhead⟩ := prefers_signature m.plain hspace
  have hannotations : annotationsBefore head.start window = [String.ofList m.markerText] := by
    rw [hstart, ← List.reverse_append]
    exact m.annotationsBefore_line h hshow _
  have hwhole : WholeLines (text ++ m.line) := by
    unfold line
    rw [← List.append_assoc, ← List.append_assoc]
    exact wholeLines_append_newline _
  have hmethod : methodOfHead? window head = some (m.located text.length) := by
    rw [m.plain.methodOfHead?_eq hwhole window hhead hstart hopening, hannotations,
      List.length_append]
    rfl
  -- the scan meets the method at its mapping
  have hitem := prefers_mapping m.mapping m.path
    (show ∀ ch ∈ '\n' :: "    ".toList, Text.isBlank ch = true by decide)
    (show Stops Text.isBlank (m.plain.signature ++ '{' :: (m.plain.body ++ '}' :: '\n' :: rest))
      from stops_cons (by decide)) ("    ".toList.reverse ++ text.reverse)
  have hbefore : "    ".toList.reverse ++ (text ++ m.line).reverse =
      ('\n' :: "    ".toList).reverse ++ ((m.mapping.chars m.path).reverse ++
        ("    ".toList.reverse ++ text.reverse)) := by
    unfold line markerText
    simp
  rw [hbefore] at hprefers
  obtain ⟨others, hothers⟩ := hprefers
  have hread : methodPattern.Prefers _ head _ :=
    ⟨others, (methodPattern_of_item hitem).trans hothers⟩
  have hfound := hread.finds (g := fun x => methodOfHead? window x.value)
    (m.markerText ++ ('\n' :: ("    ".toList ++ (m.plain.signature ++ ['{']))))
    (by simp) (by simp [markerText]) (by simp [markerText])
  rw [hmethod] at hfound
  have hall := finds_of_head m.plain hfound
  unfold lines PlainMethod.lines
  simpa only [List.append_assoc, List.cons_append, List.nil_append, Option.toList_some] using hall

theorem occupied (position : Nat) :
    Occupied [(m.located position).extent] position m.lines := by
  have hline : Misses constructorPattern m.line := by
    refine constructorPattern_leadsOnly.misses_spaces (by decide) ?_
    refine misses_mapping constructorPattern_leadsOnly constructorPattern_freeOnly _ _
      (fun before more => constructorPattern_at before _) ?_
    exact constructorPattern_leadsOnly.misses_mark (by decide) (by decide)
  rw [m.lines_eq]
  exact (occupied_of_misses hline _ position).append (occupied_method m.plain _)

/-- The endpoint is that of the mapping, below the base path. -/
theorem endpoint?_located {base : Option String} {b : Option Path}
    (hbase : base.getD "" = b.elim "" Path.text) (position : Nat) :
    endpoint? (m.located position).method base = some (m.endpoint b) := by
  have hmapping := endpointOf?_mapping m.mapping m.path_ne (m.located position).method base
  have htype : (m.located position).method.returnType = m.returnType.text := by
    simp [located, plain, PlainMethod.method, PlainType.text, PlainType.chars, Suffix.chars,
      TypeName.text]
  rw [hbase, htype] at hmapping
  rw [endpoint?, located, List.findSome?_singleton]
  exact hmapping

end MappedMethod

/-! ### Whole controllers -/

theorem Controller.locatedMethods_text (c : Controller) {window : Option Int}
    (hshow : ∀ m ∈ c.methods, Shows window (m.markerText ++ '\n' :: "    ".toList).length)
    (className : String) :
    locatedMethods c.text window className =
      placed MappedMethod.lines MappedMethod.located c.preamble.length c.methods := by
  have hmethod : Misses methodPattern c.preamble :=
    c.misses_preamble methodPattern_leadsOnly methodPattern_freeOnly
      fun hitem hnil => (methodPattern_of_item hitem).trans hnil
  have hconstructor : Misses constructorPattern c.preamble :=
    c.misses_preamble constructorPattern_leadsOnly constructorPattern_freeOnly
      fun hitem _ => constructorPattern_of_item hitem
  have htext : c.text = c.preamble ++ (c.methods.flatMap MappedMethod.lines ++ ['}', '\n']) := by
    rw [Controller.text, Controller.preamble, List.append_assoc]
  rw [htext]
  exact locatedMethods_placed c.fenced_preamble hmethod hconstructor MappedMethod.fenced
    (fun m hm _ rest h => m.finds_method h (hshow m hm) rest) MappedMethod.occupied className

/-- Reading a plain controller finds its endpoints, one for each method in their order, if the
window for methods shows every mapping with the indentation behind it. -/
theorem readClass?_controller (settings : Settings) (path : String) (c : Controller)
    (hshow : ∀ m ∈ c.methods,
      Shows settings.methodWindow (m.markerText ++ '\n' :: "    ".toList).length) :
    ∃ cls, readClass? settings path c.text = some cls ∧ cls.name = c.name.text ∧
      cls.annotations = c.annotations ∧ cls.isController = true ∧
      cls.endpoints = c.methods.map (·.endpoint c.base) ∧
      cls.methods = c.methods.map (·.method c.base) := by
  obtain ⟨header, hheader, hname, hannotations⟩ := c.classHeader?_text
  have hlocated := c.locatedMethods_text hshow header.name
  have hserved : ∀ (m : MappedMethod) position,
      endpoint? (m.located position).method (basePath? c.annotations) = some (m.endpoint c.base) :=
    fun m => m.endpoint?_located c.basePath?_annotations
  have hendpoints : (placed MappedMethod.lines MappedMethod.located c.preamble.length c.methods).map
      (fun l => endpoint? l.method (basePath? c.annotations)) =
        c.methods.map fun m => some (m.endpoint c.base) :=
    map_placed (fun m position => by exact hserved m position) _ _
  have hmethods : (placed MappedMethod.lines MappedMethod.located c.preamble.length c.methods).map
      (fun l => { l.method with endpoint := endpoint? l.method (basePath? c.annotations) }) =
        c.methods.map (·.method c.base) := by
    refine map_placed (fun m position => ?_) _ _
    rw [hserved]
    rfl
  rw [readClass?, hheader, Option.map_some]
  refine ⟨_, rfl, hname, hannotations, ?_, ?_, ?_⟩
  · simp only [hannotations, classify, c.isController_annotations]
  · simp only [hannotations, hlocated, classify, c.isController_annotations, List.map_map, if_true]
    rw [Function.comp_def, hendpoints]
    simp
  · simp only [hannotations, hlocated, classify, List.map_map, map_zip_map]
    exact hmethods

/-- A controller with a mapping that has a variable and one that names its verb. -/
def ordersController : Controller where
  isRest := true
  base := some (.of "/api/")
  name := .of "OrderController"
  methods :=
    [⟨.positional .get, .of "/orders/\x7bid\x7d", by decide, .of "Receipt", .of "find"⟩,
      ⟨.verbed .value ⟨"PATCH".toList, by decide⟩, .of "orders.all", by decide, .of "boolean",
        .of "touch"⟩]

def ordersControllerSource : List Char :=
  "@RestController\n@RequestMapping(\"/api/\")\npublic class OrderController \x7b\n".toList ++
    ("    @GetMapping(\"/orders/\x7bid\x7d\")\n    public Receipt find() \x7b\n    \x7d\n".toList ++
    ("    @RequestMapping(value = \"orders.all\", method = RequestMethod.PATCH)\n".toList ++
    "    public boolean touch() \x7b\n    \x7d\n\x7d\n".toList))

theorem readClass?_controller_orders :
    ordersController.text = ordersControllerSource ∧
      (∀ m ∈ ordersController.methods,
        Shows Settings.default.methodWindow (m.markerText ++ '\n' :: "    ".toList).length) ∧
      ∃ cls, readClass? .default "OrderController.java" ordersControllerSource = some cls ∧
        cls.isController = true ∧
        cls.endpoints =
          [⟨"GET", "/api/orders/\x7bid\x7d", none, none, some "find() - Receipt"⟩,
            ⟨"PATCH", "/api/orders.all", none, none, some "touch() - boolean"⟩] ∧
        cls.methods.map (·.annotations) =
          [["@GetMapping(\"/orders/\x7bid\x7d\")"],
            ["@RequestMapping(value = \"orders.all\", method = RequestMethod.PATCH)"]] := by
  have htext : ordersController.text = ordersControllerSource := by decide +kernel
  have hshow : ∀ m ∈ ordersController.methods,
      Shows Settings.default.methodWindow (m.markerText ++ '\n' :: "    ".toList).length := by
    have hlength : ∀ m ∈ ordersController.methods,
        ((m.markerText ++ '\n' :: "    ".toList).length : Int) ≤ 500 := by decide +kernel
    intro m hm width hwidth
    obtain rfl : 500 = width := by simpa [Settings.default] using hwidth
    exact hlength m hm
  obtain ⟨cls, hread, _, _, hcontroller, hendpoints, hmethods⟩ :=
    readClass?_controller .default "OrderController.java" ordersController hshow
  rw [htext] at hread
  refine ⟨htext, hshow, cls, hread, hcontroller, hendpoints.trans ?_, ?_⟩
  · decide +kernel
  · rw [hmethods]
    decide +kernel

end ClassAtlas.Plain
