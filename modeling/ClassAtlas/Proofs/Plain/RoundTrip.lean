import ClassAtlas.Proofs.Plain.Dependencies

/-! Reading a plain file gives the class that it declares. -/

namespace ClassAtlas.Plain

open Source

theorem injectionOf?_field (f : PlainField) :
    Role.injectionOf? f.field =
      if f.isInjected then some ⟨f.name.text, f.type.text, "field", "@Autowired"⟩ else none := by
  have hfind : ["@Autowired"].find? (fun marker =>
      Role.injectionMarkers.contains (annotationName marker)) = some "@Autowired" := by decide
  unfold Role.injectionOf? PlainField.field
  cases f.isInjected with
  | true =>
    simp only [if_true]
    rw [hfind, Option.map_some]
  | false => rfl

theorem injections_fields (fields : List PlainField) :
    (fields.map PlainField.field).filterMap Role.injectionOf? =
      (fields.filter (·.isInjected)).map fun f =>
        ⟨f.name.text, f.type.text, "field", "@Autowired"⟩ := by
  induction fields with
  | nil => rfl
  | cons f fields ih =>
    rw [List.map_cons, List.filterMap_cons, injectionOf?_field, ih]
    cases hinjected : f.isInjected with
    | true => simp [hinjected]
    | false => simp [hinjected]

/-- Without annotations the methods get no endpoint. -/
theorem methods_located (position : Nat) (methods : List PlainMethod) (base : Option String) :
    ((located position methods).zip
      ((methods.map PlainMethod.method).map (Role.endpoint? · base))).map
        (fun (m, endpoint) => { m.method with endpoint }) = methods.map PlainMethod.method := by
  have hplain : ∀ m ∈ (located position methods).map (·.method),
      ({ m with endpoint := Role.endpoint? m base } : Method) = m := by
    intro m hm
    rw [map_method_located] at hm
    obtain ⟨plain, _, rfl⟩ := List.mem_map.1 hm
    rfl
  rw [← map_method_located position methods, List.map_map, map_zip_map]
  exact List.map_congr_left fun m hm => hplain m.method (List.mem_map_of_mem hm)

theorem methodTypes_method (m : PlainMethod) :
    methodTypes m.method = m.types.map PlainType.text := by
  simp [methodTypes, PlainMethod.method, PlainMethod.types]

/-- Reading what a plain file says gives its class back, if the window for fields shows a marker and
the indentation behind it. -/
theorem readClass?_text (settings : Settings) (path : String) (u : PlainUnit)
    (h : Shows settings.fieldWindow "@Autowired\n    ".length) :
    readClass? settings path u.text = some (u.javaClass path) := by
  obtain ⟨header, hheader, hstart, hname, hbase, hinterfaces⟩ := classHeader_text u
  have hfields := fields_text u h
  have hmethods := map_method_located u.preamble.length u.methods
  have htypes : (u.methods.map PlainMethod.method).map methodTypes =
      u.methods.map fun m => m.types.map PlainType.text := by
    rw [List.map_map]
    exact List.map_congr_left fun m _ => methodTypes_method m
  rw [readClass?, hheader, Option.map_some]
  simp only [hstart, annotationsBefore_class, hname, hbase, hinterfaces, importNames_text,
    packageName_text, locatedMethods_text, hfields, Role.classify, hmethods, methods_located,
    dependencies_text u htypes, injections_fields]
  rfl

/-- A file with a field of each kind and a method that calls another. -/
def ordersUnit : PlainUnit where
  package := some ⟨.of "shop", []⟩
  imports := [⟨.single, ⟨⟨.of "shop", []⟩, .of "Order"⟩⟩,
    ⟨.onDemand, ⟨⟨.of "java", []⟩, .of "util"⟩⟩]
  name := .of "Orders"
  base := some (.of "Store")
  interfaces := [.of "Audited", .of "Closeable"]
  fields :=
    [⟨some ⟨"private", private_mem_visibilities⟩, .injected, ⟨.of "Repo", .argument (.of "Order")⟩,
      .of "repo"⟩, ⟨none, .static, ⟨.of "int", .brackets⟩, .of "sizes"⟩]
  methods :=
    [⟨⟨some ⟨"public", public_mem_visibilities⟩, false⟩, ⟨.of "void", .none⟩, .of "close",
      [⟨⟨.of "Order", .none⟩, .of "last"⟩, ⟨⟨.of "int", .none⟩, .of "code"⟩], [.of "flush"]⟩]

def ordersSource : List Char :=
  ("package shop;\nimport shop.Order;\nimport java.util.*;\n" ++
    "public class Orders extends Store implements Audited, Closeable \x7b\n" ++
    "    @Autowired\n    private Repo<Order> repo;\n    static int[] sizes;\n" ++
    "    public void close(Order last, int code) \x7b\n        flush();\n    \x7d\n\x7d\n").toList

theorem readClass?_text_orders :
    ordersUnit.text = ordersSource ∧
      Shows Settings.default.fieldWindow "@Autowired\n    ".length ∧
      ∃ c, readClass? .default "Orders.java" ordersSource = some c ∧ c.package = "shop" ∧
        c.base = some "Store" ∧ c.interfaces = ["Audited", "Closeable"] ∧
        c.fields = [⟨"repo", "Repo<Order>", "private", false, ["@Autowired"]⟩,
          ⟨"sizes", "int[]", "package", true, []⟩] ∧
        c.methods.map (·.parameters) = [[⟨"Order", "last"⟩, ⟨"int", "code"⟩]] ∧
        c.dependencies = .ofList ["Autowired", "Order", "Repo", "shop.Order"] := by
  have htext : ordersUnit.text = ordersSource := by
    unfold ordersSource
    simp only [String.toList_append]
    decide +kernel
  have hshow : Shows Settings.default.fieldWindow "@Autowired\n    ".length := by
    intro width hwidth
    obtain rfl : 200 = width := by simpa [Settings.default] using hwidth
    decide
  have hread := readClass?_text .default "Orders.java" ordersUnit hshow
  rw [htext] at hread
  exact ⟨htext, hshow, _, hread, rfl, rfl,
    rfl, by decide +kernel, by decide +kernel, by decide +kernel⟩

end ClassAtlas.Plain
