import ClassAtlas.Log.Logged

/-! A pool of workers: it takes up tasks in the order in which they were submitted, finishes them in
any order, and hands over the results in the order of submission. -/

namespace ClassAtlas.Project

open Log

variable {α β : Type}

/-- At each moment, which of the running tasks is the next to be finished, counted round. -/
def Schedule := Nat → Nat

/-- What was taken up first is finished first. -/
def Schedule.inOrder : Schedule := fun _ => 0

/-- Every task carries its number, and so does its result. -/
structure Pool (α β : Type) where
  waiting : List (α × Nat)
  running : List (α × Nat)
  finished : List (Nat × β)

namespace Pool

def submit (items : List α) : Pool α β where
  waiting := items.zipIdx
  running := []
  finished := []

/-- Idle workers take up the tasks that have waited longest. -/
def takeUp (workers : Nat) (p : Pool α β) : Pool α β :=
  let idle := workers - p.running.length
  { p with waiting := p.waiting.drop idle, running := p.running ++ p.waiting.take idle }

/-- Finishes the running task whose turn it is. -/
def finish (task : α → Logged β) (turn : Nat) (p : Pool α β) : Logged (Pool α β) :=
  let place := turn % p.running.length
  match p.running[place]? with
  | none => return p
  | some (item, number) => do
    let result ← task item
    return { p with
      running := p.running.eraseIdx place
      finished := (number, result) :: p.finished }

def step (workers : Nat) (task : α → Logged β) (turn : Nat) (p : Pool α β) : Logged (Pool α β) :=
  (p.takeUp workers).finish task turn

/-- The results of the tasks in the order of their numbers. -/
def results (count : Nat) (p : Pool α β) : List β :=
  (List.range count).filterMap fun number => p.finished.lookup number

/-- The results for all items, in their order; every moment finishes one of them. -/
def mapM (workers : Nat) (schedule : Schedule) (task : α → Logged β) (items : List α) :
    Logged (List β) := do
  let p ← (List.range items.length).foldlM
    (fun p moment => p.step workers task (schedule moment)) (submit items)
  return p.results items.length

end Pool

end ClassAtlas.Project
