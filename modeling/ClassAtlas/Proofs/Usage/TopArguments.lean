import Mathlib.Data.Finset.Card
import ClassAtlas.Proofs.Usage.Mining

/-! The statistics of a method list the arguments that are passed most often: no argument that is
left out is passed more often than a listed one, or as often and first at an earlier place. -/

namespace ClassAtlas

/-! ### Items by frequency -/

/-- The first of two items occurs more often, or as often and earlier. -/
def Outranks (items : List String) (a b : String) : Prop :=
  items.count b < items.count a ∨ items.count b = items.count a ∧ items.idxOf a < items.idxOf b

/-- The order of counts: higher ones come first. -/
def ByCount (a b : String × Nat) : Prop := b.2 ≤ a.2

instance : DecidableRel ByCount := fun a b => inferInstanceAs (Decidable (b.2 ≤ a.2))

instance : IsTrans (String × Nat) ByCount := ⟨fun _ _ _ hab hbc => Nat.le_trans hbc hab⟩

instance : Std.Total ByCount := ⟨fun _ _ => Nat.le_total _ _⟩

variable {items : List String}

theorem byFrequency_eq (items : List String) :
    byFrequency items = ((tally items).insertionSort ByCount).map (·.1) := by
  rw [← sortBy_decide]
  rfl

theorem perm_byFrequency (items : List String) :
    (byFrequency items).Perm ((tally items).map (·.1)) := by
  rw [byFrequency_eq]
  exact (List.perm_insertionSort _ _).map _

theorem mem_byFrequency {item : String} : item ∈ byFrequency items ↔ item ∈ items :=
  (perm_byFrequency items).mem_iff.trans ((keys_tally items).1 item)

theorem nodup_byFrequency (items : List String) : (byFrequency items).Nodup :=
  (perm_byFrequency items).nodup_iff.2 (nodup_keys_tally items)

theorem length_byFrequency (items : List String) :
    (byFrequency items).length = items.toFinset.card := by
  have hsame : (byFrequency items).toFinset = items.toFinset := by
    ext item
    rw [List.mem_toFinset, List.mem_toFinset, mem_byFrequency]
  rw [← hsame, List.toFinset_card_of_nodup (nodup_byFrequency items)]

/-- The counts start in the order of first occurrences, and the sort keeps it where they are
equal. -/
theorem pairwise_byFrequency (items : List String) :
    (byFrequency items).Pairwise (Outranks items) := by
  have hseen := List.pairwise_map.1 (keys_tally items).2
  have hsorted := pairwise_insertionSort_stable (r := ByCount) hseen
  rw [byFrequency_eq, List.pairwise_map]
  refine hsorted.imp_of_mem fun {a b} ha hb h => ?_
  have hcounta := count_of_mem_tally ((List.mem_insertionSort _).1 ha)
  have hcountb := count_of_mem_tally ((List.mem_insertionSort _).1 hb)
  rw [Outranks, hcounta, hcountb]
  rcases Nat.lt_or_ge b.2 a.2 with hlt | hge
  · exact .inl hlt
  · exact .inr ⟨Nat.le_antisymm h.1 hge, h.2 hge⟩

namespace Usage

/-! ### The most common ones -/

theorem mostCommon_prefix_byFrequency (limit : Option Int) (items : List String) :
    mostCommon limit items <+: byFrequency items := by
  cases limit with
  | none => exact List.prefix_refl _
  | some n => exact List.take_prefix _ _

theorem length_mostCommon (limit : Option Int) (items : List String) :
    (mostCommon limit items).length = match limit with
      | none => items.toFinset.card
      | some n => min n.toNat items.toFinset.card := by
  cases limit with
  | none => exact length_byFrequency items
  | some n => rw [mostCommon, List.length_take, length_byFrequency]

/-- What is left out is outranked by all that is listed. -/
theorem outranks_of_not_mem_mostCommon {limit : Option Int} {listed omitted : String}
    (hlisted : listed ∈ mostCommon limit items) (hmem : omitted ∈ items)
    (homitted : omitted ∉ mostCommon limit items) : Outranks items listed omitted := by
  obtain ⟨rest, hrest⟩ := mostCommon_prefix_byFrequency limit items
  have horder := pairwise_byFrequency items
  have hall := mem_byFrequency.2 hmem
  rw [← hrest] at horder hall
  have hbehind := (List.mem_append.1 hall).resolve_left homitted
  exact (List.pairwise_append.1 horder).2.2 listed hlisted omitted hbehind

/-- The statistics count all usages and list distinct arguments, as many as are asked for and there
are, in the order of their rank and before all others. -/
theorem methodStats_top_arguments (settings : Settings) (load : Loader) (atlas : Atlas)
    (className methodName : String) :
    let usages := (methodUsages settings load atlas className methodName).value
    let stats := (methodStats settings load atlas className methodName).value
    let passed := usages.flatMap (·.parameters)
    stats.usageCount = usages.length ∧
    stats.commonParameters.Nodup ∧ (∀ a ∈ stats.commonParameters, a ∈ passed) ∧
    (stats.commonParameters.length = match settings.commonParameterCount with
      | none => passed.toFinset.card
      | some k => min k.toNat passed.toFinset.card) ∧
    stats.commonParameters.Pairwise (Outranks passed) ∧
    ∀ listed ∈ stats.commonParameters, ∀ omitted ∈ passed, omitted ∉ stats.commonParameters →
      Outranks passed listed omitted := by
  intro usages stats passed
  have hstats : stats = ⟨usages.length, mostCommon settings.commonParameterCount passed⟩ := rfl
  have hpart := (mostCommon_prefix_byFrequency settings.commonParameterCount passed).sublist
  rw [hstats]
  refine ⟨rfl, (nodup_byFrequency passed).sublist hpart, fun a ha => ?_, length_mostCommon _ _,
    (pairwise_byFrequency passed).sublist hpart, fun listed hlisted omitted hmem homitted => ?_⟩
  · exact mem_byFrequency.1 (hpart.subset ha)
  · exact outranks_of_not_mem_mostCommon hlisted hmem homitted

/-- Of two arguments that are passed once, the first one is listed. -/
theorem methodStats_top_arguments_tie :
    let settings := { Settings.default with commonParameterCount := some 2 }
    let load := everywhere "orders.save(a, b); orders.save(c); orders.save(b);"
    let atlas : Atlas := ⟨[bareClass "Batch" "Batch.java"], []⟩
    (methodStats settings load atlas "Orders" "save").value = ⟨3, ["b", "a"]⟩ ∧
      Outranks ["a", "b", "c", "b"] "a" "c" := by
  intro settings load atlas
  have hstats : (methodStats settings load atlas "Orders" "save").value = ⟨3, ["b", "a"]⟩ := by
    decide +kernel
  have hpassed : (methodUsages settings load atlas "Orders" "save").value.flatMap (·.parameters) =
      ["a", "b", "c", "b"] := by decide +kernel
  obtain ⟨_, _, _, _, _, hrank⟩ := methodStats_top_arguments settings load atlas "Orders" "save"
  rw [hstats, hpassed] at hrank
  exact ⟨hstats, hrank "a" (by decide) "c" (by decide) (by decide)⟩

end Usage

end ClassAtlas
