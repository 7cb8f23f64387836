import ClassAtlas.Log.Event

/-! Results together with the events on the way to them. -/

namespace ClassAtlas.Log

structure Logged (α : Type) where
  value : α
  events : List Event

namespace Logged

variable {α β : Type}

instance : Monad Logged where
  pure a := ⟨a, []⟩
  bind x f := ⟨(f x.value).value, x.events ++ (f x.value).events⟩

@[simp] theorem value_pure (a : α) : (pure a : Logged α).value = a := rfl

@[simp] theorem events_pure (a : α) : (pure a : Logged α).events = [] := rfl

@[simp] theorem value_bind (x : Logged α) (f : α → Logged β) :
    (x >>= f).value = (f x.value).value := rfl

@[simp] theorem events_bind (x : Logged α) (f : α → Logged β) :
    (x >>= f).events = x.events ++ (f x.value).events := rfl

instance : LawfulMonad Logged := LawfulMonad.mk' Logged
  (fun x => by
    cases x
    simp [Functor.map])
  (fun _ _ => by simp [bind, pure])
  (fun _ _ _ => by simp [bind, List.append_assoc])

@[simp] theorem value_mapM (f : α → Logged β) (items : List α) :
    (items.mapM f).value = items.map fun item => (f item).value := by
  induction items with
  | nil => rfl
  | cons item rest ih =>
    rw [List.mapM_cons, List.map_cons, ← ih]
    rfl

@[simp] theorem value_foldlM (f : β → α → Logged β) (start : β) (items : List α) :
    (items.foldlM f start).value = items.foldl (fun state item => (f state item).value) start := by
  induction items generalizing start with
  | nil => rfl
  | cons item rest ih =>
    rw [List.foldlM_cons, value_bind, ih]
    rfl

end Logged

def record (e : Event) : Logged Unit := ⟨(), [e]⟩

end ClassAtlas.Log
