import ClassAtlas.Proofs.Plain.Names
import ClassAtlas.Proofs.Text.Pieces
import ClassAtlas.Source.Unit

/-! Plain source files: what they declare, how it is written down, and the class that it means. -/

namespace ClassAtlas.Plain

open Source

/-- The items with a separator between them. -/
def joined (sep : List Char) : List (List Char) → List Char
  | [] => []
  | item :: rest => item ++ rest.flatMap (sep ++ ·)

theorem forall_mem_joined (holds : Char → Prop) {sep : List Char} {items : List (List Char)}
    (hsep : ∀ ch ∈ sep, holds ch) (hitems : ∀ item ∈ items, ∀ ch ∈ item, holds ch) :
    ∀ ch ∈ joined sep items, holds ch := by
  intro ch hch
  cases items with
  | nil => simp [joined] at hch
  | cons item items =>
    rw [joined, List.mem_append, List.mem_flatMap] at hch
    rcases hch with hch | ⟨i, hi, hch⟩
    · exact hitems item List.mem_cons_self ch hch
    · rcases List.mem_append.1 hch with hch | hch
      · exact hsep ch hch
      · exact hitems i (List.mem_cons_of_mem _ hi) ch hch

def commaList (items : List (List Char)) : List Char := joined [',', ' '] items

theorem toList_intercalate (values : List String) :
    (", ".intercalate values).toList = commaList (values.map String.toList) := by
  have hall : ∀ items : List (List Char), [',', ' '].intercalate items = commaList items := by
    intro items
    cases items with
    | nil => rfl
    | cons item rest =>
      induction rest generalizing item with
      | nil => simp [commaList, joined, List.intercalate]
      | cons next rest ih =>
        have hrest := ih next
        rw [commaList, joined] at hrest
        rw [commaList, joined, List.flatMap_cons, List.append_assoc, ← hrest,
          List.intercalate_cons_cons, List.append_assoc]
  rw [String.toList_intercalate]
  exact hall _

/-- Cutting a list at its commas gives the items back, if spaces around them do not matter. -/
theorem filterMap_splitOn_commaList {ι β : Type} {items : List ι} {chars : ι → List Char}
    {g : List Char → Option β} {v : ι → β} {gap : List Char} (hne : items ≠ [])
    (hcomma : ∀ i ∈ items, ',' ∉ chars i) (hgap : ∀ ch ∈ gap, ch = ' ')
    (h : ∀ i ∈ items, ∀ s t : List Char, (∀ ch ∈ s, ch = ' ') → (∀ ch ∈ t, ch = ' ') →
      g (s ++ (chars i ++ t)) = some (v i)) :
    ((commaList (items.map chars) ++ gap).splitOn ',').filterMap g = items.map v := by
  have hspace : ∀ {s : List Char}, (∀ ch ∈ s, ch = ' ') → ',' ∉ s :=
    fun hs hmem => absurd (hs _ hmem) (by decide)
  have htail : ∀ (items : List ι) (i : ι) (s : List Char), (∀ j ∈ i :: items, ',' ∉ chars j) →
      (∀ j ∈ i :: items, ∀ s t : List Char, (∀ ch ∈ s, ch = ' ') → (∀ ch ∈ t, ch = ' ') →
        g (s ++ (chars j ++ t)) = some (v j)) → (∀ ch ∈ s, ch = ' ') →
      ((s ++ (chars i ++ ((items.map chars).flatMap ([',', ' '] ++ ·) ++ gap))).splitOn
        ',').filterMap g = v i :: items.map v := by
    intro items
    induction items with
    | nil =>
      intro i s hcomma h hs
      have hno : ',' ∉ s ++ (chars i ++ gap) := by
        simp [hspace hs, hspace hgap, hcomma i List.mem_cons_self]
      have hpiece := h i List.mem_cons_self s gap hs hgap
      simp only [List.map_nil, List.flatMap_nil, List.nil_append]
      rw [List.splitOn_eq_singleton hno, List.filterMap_cons, hpiece]
      rfl
    | cons j items ih =>
      intro i s hcomma h hs
      have hno : ',' ∉ s ++ chars i := by
        simp [hspace hs, hcomma i List.mem_cons_self]
      have hpiece := h i List.mem_cons_self s [] hs (by simp)
      have hrest := ih j [' '] (fun k hk => hcomma k (List.mem_cons_of_mem _ hk))
        (fun k hk => h k (List.mem_cons_of_mem _ hk)) (by simp)
      rw [List.append_nil] at hpiece
      have hcut : s ++ (chars i ++ (((j :: items).map chars).flatMap ([',', ' '] ++ ·) ++ gap)) =
          (s ++ chars i) ++ ',' :: ([' '] ++ (chars j ++
            ((items.map chars).flatMap ([',', ' '] ++ ·) ++ gap))) := by simp
      rw [hcut, List.splitOn_append_cons_self_of_not_mem hno, List.filterMap_cons, hpiece, hrest]
      rfl
  cases items with
  | nil => exact absurd rfl hne
  | cons i items =>
    have hall := htail items i [] hcomma h (by simp)
    rw [List.nil_append, ← List.append_assoc] at hall
    exact hall

/-- A list of parts has them as its parts. -/
theorem filterMap_part?_intercalate {parts : List String} (h : ∀ p ∈ parts, Text.Part p.toList) :
    ((", ".intercalate parts).toList.splitOn ',').filterMap Text.part? = parts := by
  rw [toList_intercalate]
  cases parts with
  | nil => rfl
  | cons first parts =>
    have hcut : ((commaList ((first :: parts).map String.toList) ++ []).splitOn ',').filterMap
        Text.part? = (first :: parts).map id := by
      refine filterMap_splitOn_commaList (by simp) ?_ (by simp) ?_
      · intro p hp
        exact (h p hp).single
      · intro p hp s t hs ht
        rw [(h p hp).part?_eq hs ht, String.ofList_toList, id]
    rwa [List.append_nil, List.map_id] at hcut

/-! ### Packages and imports -/

/-- Names with dots between them. -/
structure DottedName where
  head : Name
  tail : List Name

def DottedName.chars (d : DottedName) : List Char :=
  joined ['.'] ((d.head :: d.tail).map Name.chars)

/-- A dotted name of at least two parts. -/
structure QualifiedName where
  qualifier : DottedName
  name : Name

def QualifiedName.chars (q : QualifiedName) : List Char :=
  q.qualifier.chars ++ '.' :: q.name.chars

inductive ImportKind where
  | single
  | onDemand
  | static
deriving DecidableEq

structure Import where
  kind : ImportKind
  name : QualifiedName

namespace Import

def specifier (i : Import) : List Char :=
  match i.kind with
  | .single => i.name.chars
  | .onDemand => i.name.chars ++ ['.', '*']
  | .static => "static ".toList ++ i.name.chars

def line (i : Import) : List Char := "import ".toList ++ (i.specifier ++ [';', '\n'])

/-- The names that an import lets the class use. -/
def uses (i : Import) : List String :=
  match i.kind with
  | .single => [String.ofList i.name.chars, i.name.name.text]
  | _ => []

end Import

/-! ### Members -/

theorem public_mem_visibilities : "public" ∈ visibilities := by decide

theorem private_mem_visibilities : "private" ∈ visibilities := by decide

structure Modifiers where
  visibility : Option {v : String // v ∈ visibilities}
  isStatic : Bool

namespace Modifiers

def visibilityText (m : Modifiers) : List Char :=
  match m.visibility with
  | some v => v.val.toList ++ [' ']
  | none => []

def staticText (m : Modifiers) : List Char := if m.isStatic then "static ".toList else []

def chars (m : Modifiers) : List Char := m.visibilityText ++ m.staticText

def visibilityName (m : Modifiers) : String :=
  match m.visibility with
  | some v => v.val
  | none => "package"

end Modifiers

inductive FieldKind where
  | ordinary
  | injected
  | static
deriving DecidableEq

structure PlainField where
  visibility : Option {v : String // v ∈ visibilities}
  kind : FieldKind
  type : PlainType
  name : Name

namespace PlainField

def isInjected (f : PlainField) : Bool := f.kind == .injected

def modifiers (f : PlainField) : Modifiers := ⟨f.visibility, f.kind == .static⟩

def declaration (f : PlainField) : List Char :=
  f.modifiers.chars ++ (f.type.chars ++ ' ' :: (f.name.chars ++ [';']))

def lines (f : PlainField) : List Char :=
  (if f.isInjected then "    @Autowired\n".toList else []) ++
    ("    ".toList ++ (f.declaration ++ ['\n']))

def field (f : PlainField) : Field where
  name := f.name.text
  type := f.type.text
  visibility := f.modifiers.visibilityName
  isStatic := f.modifiers.isStatic
  annotations := if f.isInjected then ["@Autowired"] else []

end PlainField

structure PlainParameter where
  type : PlainType
  name : Name

def PlainParameter.chars (p : PlainParameter) : List Char := p.type.chars ++ ' ' :: p.name.chars

structure PlainMethod where
  modifiers : Modifiers
  returnType : PlainType
  name : Name
  parameters : List PlainParameter
  calls : List Name

namespace PlainMethod

/-- The method's head, up to the brace. -/
def signature (m : PlainMethod) : List Char :=
  m.modifiers.chars ++ (m.returnType.chars ++ ' ' :: (m.name.chars ++
    '(' :: (commaList (m.parameters.map PlainParameter.chars) ++ [')', ' '])))

def callLine (n : Name) : List Char := "        ".toList ++ (n.chars ++ ['(', ')', ';', '\n'])

/-- What stands between the braces. -/
def body (m : PlainMethod) : List Char := '\n' :: (m.calls.flatMap callLine ++ "    ".toList)

def lines (m : PlainMethod) : List Char :=
  "    ".toList ++ (m.signature ++ '{' :: (m.body ++ ['}', '\n']))

def method (m : PlainMethod) : Method where
  name := m.name.text
  returnType := m.returnType.text
  parameters := m.parameters.map fun p => ⟨p.type.text, p.name.text⟩
  annotations := []
  visibility := m.modifiers.visibilityName
  isStatic := m.modifiers.isStatic
  calls := .ofList (m.calls.map Name.text)
  endpoint := none

def types (m : PlainMethod) : List PlainType := m.parameters.map (·.type) ++ [m.returnType]

end PlainMethod

/-! ### Whole files -/

structure PlainUnit where
  package : Option DottedName
  imports : List Import
  name : Name
  base : Option Name
  interfaces : List Name
  fields : List PlainField
  methods : List PlainMethod

namespace PlainUnit

def packageLine (u : PlainUnit) : List Char :=
  match u.package with
  | some d => "package ".toList ++ (d.chars ++ [';', '\n'])
  | none => []

def baseClause (u : PlainUnit) : List Char :=
  match u.base with
  | some b => " extends ".toList ++ b.chars
  | none => []

def interfaceClause (u : PlainUnit) : List Char :=
  match u.interfaces with
  | [] => []
  | names => " implements ".toList ++ commaList (names.map Name.chars)

def classLine (u : PlainUnit) : List Char :=
  "public class ".toList ++
    (u.name.chars ++ (u.baseClause ++ (u.interfaceClause ++ [' ', '{', '\n'])))

def header (u : PlainUnit) : List Char := u.packageLine ++ u.imports.flatMap Import.line

def members (u : PlainUnit) : List Char :=
  u.fields.flatMap PlainField.lines ++ u.methods.flatMap PlainMethod.lines

def text (u : PlainUnit) : List Char :=
  u.header ++ (u.classLine ++ (u.members ++ ['}', '\n']))

/-- The types of all fields, parameters and results. -/
def types (u : PlainUnit) : List PlainType :=
  u.fields.map (·.type) ++ u.methods.flatMap PlainMethod.types

/-- The marker of injected fields, the names in all types but the primitive ones, and the imported
names. -/
def dependencies (u : PlainUnit) : NameSet :=
  .ofList <|
    (if u.fields.any (·.isInjected) then ["Autowired"] else []) ++
    ((u.types.flatMap PlainType.names).map TypeName.text).filter
      (fun name => !primitiveTypes.contains name) ++
    u.imports.flatMap Import.uses

/-- The class that the file declares. -/
def javaClass (u : PlainUnit) (path : String) : JavaClass where
  name := u.name.text
  filePath := path
  package := u.package.elim "" fun d => String.ofList d.chars
  imports := u.imports.map fun i => String.ofList i.specifier
  annotations := []
  base := u.base.map Name.text
  interfaces := u.interfaces.map Name.text
  fields := u.fields.map PlainField.field
  methods := u.methods.map PlainMethod.method
  dependencies := u.dependencies
  isController := false
  endpoints := []
  rolePatterns := []
  injections := (u.fields.filter (·.isInjected)).map fun f =>
    ⟨f.name.text, f.type.text, "field", "@Autowired"⟩

end PlainUnit

end ClassAtlas.Plain
