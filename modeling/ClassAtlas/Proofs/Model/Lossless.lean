import ClassAtlas.Model.Encode
import ClassAtlas.Proofs.Json.Reading
import ClassAtlas.Proofs.Json.Writing
import Mathlib.Data.List.Basic

/-! The JSON form of a scanned project is lossless. Each record is encoded by its fields, each field
by an encoding that tells its values apart, and so the text of a project gives the project back. -/

namespace ClassAtlas

open Json

/-! ### Encodings -/

/-- An encoding without numbers that tells all values apart. -/
structure Faithful {α : Type} (f : α → Json) : Prop where
  numberFree : ∀ a, NumberFree (f a)
  injective : Function.Injective f

namespace Faithful

variable {α : Type} {f : α → Json}

theorem string : Faithful Json.string where
  numberFree := .string
  injective _ _ h := Json.string.inj h

theorem ofOption (hf : Faithful f) (hnull : ∀ a, f a ≠ null) : Faithful (Json.ofOption f) where
  numberFree a := by
    cases a with
    | none => exact .null
    | some a => exact hf.numberFree a
  injective a b h := by
    cases a with
    | none =>
      cases b with
      | none => rfl
      | some b => exact absurd h.symm (hnull b)
    | some a =>
      cases b with
      | none => exact absurd h (hnull a)
      | some b => rw [hf.injective h]

theorem map_eq_iff (hf : Faithful f) {items others : List α} :
    items.map f = others.map f ↔ items = others :=
  (List.map_injective_iff.2 hf.injective).eq_iff

theorem list (hf : Faithful f) : Faithful fun items : List α => array (items.map f) where
  numberFree items := by
    refine .array fun v hv => ?_
    obtain ⟨a, _, rfl⟩ := List.mem_map.1 hv
    exact hf.numberFree a
  injective _ _ h := hf.map_eq_iff.1 (Json.array.inj h)

theorem strings : Faithful Json.strings := string.list

theorem text : Faithful (Json.ofOption Json.string) := string.ofOption fun _ => Json.noConfusion

end Faithful

/-! ### Records -/

theorem faithful_parameter : Faithful Parameter.toJson where
  numberFree p := by
    refine .object ?_
    simp [NumberFree.string]
  injective p q h := by
    cases p
    cases q
    simpa [Parameter.toJson] using h

theorem faithful_endpoint : Faithful Endpoint.toJson where
  numberFree e := by
    refine .object ?_
    simp [NumberFree.string, Faithful.text.numberFree]
  injective d e h := by
    cases d
    cases e
    simpa [Endpoint.toJson, Faithful.text.injective.eq_iff] using h

theorem faithful_field : Faithful Field.toJson where
  numberFree f := by
    refine .object ?_
    simp [NumberFree.string, NumberFree.bool, Faithful.strings.numberFree]
  injective f g h := by
    cases f
    cases g
    simpa [Field.toJson, Faithful.strings.injective.eq_iff] using h

theorem faithful_rolePattern : Faithful RolePattern.toJson where
  numberFree p := by
    refine .object ?_
    simp [NumberFree.string]
  injective p q h := by
    cases p
    cases q
    simpa [RolePattern.toJson] using h

theorem faithful_injection : Faithful Injection.toJson where
  numberFree i := by
    refine .object ?_
    simp [NumberFree.string]
  injective i j h := by
    cases i
    cases j
    simpa [Injection.toJson] using h

theorem faithful_method : Faithful Method.toJson where
  numberFree m := by
    have hendpoint := faithful_endpoint.ofOption (fun _ => Json.noConfusion)
    refine .object ?_
    simp [NumberFree.string, NumberFree.bool, Faithful.strings.numberFree, hendpoint.numberFree,
      faithful_parameter.list.numberFree]
  injective m n h := by
    have hendpoint := faithful_endpoint.ofOption (fun _ => Json.noConfusion)
    cases m
    cases n
    simpa [Method.toJson, Faithful.strings.injective.eq_iff, hendpoint.injective.eq_iff,
      faithful_parameter.map_eq_iff, NameSet.toList_inj] using h

theorem faithful_class : Faithful JavaClass.toJson where
  numberFree c := by
    refine .object ?_
    simp [JavaClass.members, NumberFree.string, NumberFree.bool, Faithful.text.numberFree,
      Faithful.strings.numberFree, faithful_field.list.numberFree, faithful_method.list.numberFree,
      faithful_endpoint.list.numberFree, faithful_rolePattern.list.numberFree,
      faithful_injection.list.numberFree]
  injective c d h := by
    cases c
    cases d
    simpa [JavaClass.toJson, JavaClass.members, Faithful.text.injective.eq_iff,
      Faithful.strings.injective.eq_iff, faithful_field.map_eq_iff, faithful_method.map_eq_iff,
      faithful_endpoint.map_eq_iff, faithful_rolePattern.map_eq_iff, faithful_injection.map_eq_iff,
      NameSet.toList_inj] using h

theorem faithful_relationship : Faithful Relationship.toJson where
  numberFree r := by
    refine .object ?_
    simp [NumberFree.string, Faithful.text.numberFree]
  injective r s h := by
    cases r
    cases s
    simpa [Relationship.toJson, Faithful.text.injective.eq_iff, RelationshipKind.name_inj,
      TargetKind.name_inj] using h

theorem faithful_atlas : Faithful Atlas.toJson where
  numberFree s := by
    refine .object ?_
    simp [faithful_class.list.numberFree, faithful_relationship.list.numberFree]
  injective s t h := by
    cases s
    cases t
    simpa [Atlas.toJson, faithful_class.map_eq_iff, faithful_relationship.map_eq_iff] using h

/-! ### Texts -/

namespace Atlas

variable {s t : Atlas} {indent : Option Nat}

theorem denotes_write : Denotes (s.write indent) s.toJson :=
  (faithful_atlas.numberFree s).denotes ⟨true, indent⟩

theorem ascii_write : Ascii (s.write indent).toList := by
  rw [Atlas.write, Json.write, String.toList_ofList]
  exact (faithful_atlas.numberFree s).ascii indent 0

theorem write_inj : s.write indent = t.write indent ↔ s = t := by
  constructor
  · intro h
    have ht : Denotes (s.write indent) t.toJson := h ▸ denotes_write
    exact faithful_atlas.injective (denotes_write.unique ht)
  · rintro rfl
    rfl

/-- A scanned project is written in ASCII. In the standard grammar, the text spells the project's
JSON form and nothing else, and it is read as such. Two projects have the same text if and only if
they are equal, where sets of names are equal that hold the same names. -/
theorem write_lossless (s : Atlas) (indent : Option Nat) :
    (∀ ch ∈ (s.write indent).toList, ch.toNat < 128) ∧
    (∀ v, Denotes (s.write indent) v ↔ v = s.toJson) ∧
    read? (s.write indent) = some s.toJson ∧
    (∀ t : Atlas, s.write indent = t.write indent ↔ s = t) ∧
    ∀ a b : NameSet, a = b ↔ ∀ name, name ∈ a ↔ name ∈ b := by
  refine ⟨ascii_write, ?_, denotes_write.read?_eq, fun t => write_inj, ?_⟩
  · intro v
    constructor
    · intro hv
      exact hv.unique denotes_write
    · rintro rfl
      exact denotes_write
  · intro a b
    constructor
    · rintro rfl name
      rfl
    · exact NameSet.eq_of_mem_iff

end Atlas

end ClassAtlas
