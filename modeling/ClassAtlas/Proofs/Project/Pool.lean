import Mathlib.Data.List.Perm.Basic
import Mathlib.Data.List.Sigma
import ClassAtlas.Project.Pool
import ClassAtlas.Tally

/-! A pool with at least one worker computes what a single pass over the items computes, whatever
order its tasks are finished in. The tasks that are done, running and waiting are always those that
were submitted, and every moment moves one of them to the done ones. -/

namespace ClassAtlas.Project.Pool

open Log

variable {α β : Type} {task : α → Logged β} {items : List α} {p : Pool α β}
  {done : List (α × Nat)}

/-- The finished results are those of the tasks that are done, and with the running and the waiting
tasks these are all tasks. -/
structure Sound (task : α → Logged β) (items : List α) (p : Pool α β) (done : List (α × Nat)) :
    Prop where
  finished : p.finished = done.map fun t => (t.2, (task t.1).value)
  tasks : (done ++ (p.running ++ p.waiting)).Perm items.zipIdx

theorem sound_submit (task : α → Logged β) (items : List α) : Sound task items (submit items) [] :=
  ⟨rfl, .refl _⟩

theorem Sound.length_eq (h : Sound task items p done) :
    done.length + (p.running ++ p.waiting).length = items.length := by
  rw [← List.length_append, h.tasks.length_eq, List.length_zipIdx]

/-! ### One moment -/

theorem Sound.takeUp (h : Sound task items p done) (workers : Nat) :
    Sound task items (p.takeUp workers) done := by
  constructor
  · exact h.finished
  · have hsame : (p.takeUp workers).running ++ (p.takeUp workers).waiting =
        p.running ++ p.waiting := by
      simp only [Pool.takeUp, List.append_assoc, List.take_append_drop]
    rw [hsame]
    exact h.tasks

/-- A worker is never idle while a task waits. -/
theorem length_running_takeUp {workers : Nat} (hworkers : 0 < workers)
    (hleft : 0 < (p.running ++ p.waiting).length) : 0 < (p.takeUp workers).running.length := by
  simp only [takeUp, List.length_append, List.length_take] at hleft ⊢
  omega

/-- Where a task is running, one of the running tasks is done next. -/
theorem Sound.finish (h : Sound task items p done) (hrunning : 0 < p.running.length) (turn : Nat) :
    ∃ t, Sound task items (p.finish task turn).value (t :: done) := by
  have hplace : turn % p.running.length < p.running.length := Nat.mod_lt _ hrunning
  have hnext : p.running[turn % p.running.length]? = some p.running[turn % p.running.length] :=
    List.getElem?_eq_getElem hplace
  refine ⟨p.running[turn % p.running.length], ?_⟩
  unfold Pool.finish
  simp only [hnext]
  constructor
  · simp only [Logged.value_bind, Logged.value_pure, List.map_cons, h.finished]
  · have hmoved : (p.running[turn % p.running.length] ::
        (p.running.eraseIdx (turn % p.running.length) ++ p.waiting)).Perm
          (p.running ++ p.waiting) :=
      (List.getElem_cons_eraseIdx_perm hplace).append_right p.waiting
    exact (List.perm_middle.symm.trans (hmoved.append_left done)).trans h.tasks

theorem Sound.step (h : Sound task items p done) {workers : Nat} (hworkers : 0 < workers)
    (hleft : done.length < items.length) (turn : Nat) :
    ∃ t, Sound task items (p.step workers task turn).value (t :: done) := by
  have hlength := h.length_eq
  apply (h.takeUp workers).finish
  apply length_running_takeUp hworkers
  omega

/-! ### A whole run -/

theorem Sound.run {workers : Nat} (hworkers : 0 < workers) (schedule : Schedule)
    (moments : List Nat) (h : Sound task items p done)
    (hleft : done.length + moments.length ≤ items.length) :
    ∃ done', done'.length = done.length + moments.length ∧
      Sound task items
        (moments.foldl (fun p moment => (p.step workers task (schedule moment)).value) p)
          done' := by
  induction moments generalizing p done with
  | nil => exact ⟨done, rfl, h⟩
  | cons moment rest ih =>
    rw [List.length_cons] at hleft
    obtain ⟨t, ht⟩ := h.step hworkers (by omega) (schedule moment)
    obtain ⟨done', hlength, hdone⟩ := ih ht (by rw [List.length_cons]; omega)
    refine ⟨done', ?_, hdone⟩
    rw [hlength, List.length_cons, List.length_cons]
    omega

/-- When all tasks are done, each result is found by its number. -/
theorem Sound.results (h : Sound task items p done) (hall : done.length = items.length) :
    p.results items.length = items.map fun item => (task item).value := by
  have hrest : p.running ++ p.waiting = [] := by
    apply List.eq_nil_of_length_eq_zero
    have hlength := h.length_eq
    omega
  have hdone : done.Perm items.zipIdx := by
    have htasks := h.tasks
    rw [hrest, List.append_nil] at htasks
    exact htasks
  have hkeys : (p.finished.map Prod.fst).Nodup := by
    rw [h.finished, List.map_map]
    exact (hdone.map Prod.snd).nodup_iff.2 (List.nodup_zipIdx_map_snd items)
  have hlookup : ∀ t ∈ items.zipIdx, p.finished.lookup t.2 = some (task t.1).value := by
    intro t ht
    apply lookup_of_mem hkeys
    rw [h.finished]
    exact List.mem_map.2 ⟨t, hdone.mem_iff.2 ht, rfl⟩
  calc p.results items.length
      = (items.zipIdx.map Prod.snd).filterMap fun number => p.finished.lookup number := by
        rw [List.zipIdx_map_snd, ← List.range_eq_range']
        rfl
    _ = items.zipIdx.filterMap fun t => some (task t.1).value := by
        rw [List.filterMap_map]
        exact List.filterMap_congr hlookup
    _ = (items.zipIdx.map Prod.fst).map fun item => (task item).value := by
        rw [List.map_map, ← List.filterMap_eq_map]
        rfl
    _ = items.map fun item => (task item).value := by
        rw [List.zipIdx_map_fst]

/-- A pool gives the results of its tasks in the order of the items, whatever the schedule. -/
theorem value_mapM {workers : Nat} (hworkers : 0 < workers) (schedule : Schedule)
    (task : α → Logged β) (items : List α) :
    (mapM workers schedule task items).value = items.map fun item => (task item).value := by
  obtain ⟨done, hlength, hdone⟩ := (sound_submit task items).run hworkers schedule
    (List.range items.length) (by rw [List.length_range, List.length_nil]; omega)
  rw [mapM, Logged.value_bind, Logged.value_foldlM]
  apply hdone.results
  rw [hlength, List.length_range, List.length_nil]
  omega

end ClassAtlas.Project.Pool
