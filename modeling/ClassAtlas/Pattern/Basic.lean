import ClassAtlas.Pattern.Cursor
import ClassAtlas.Text.Classes

/-! Text patterns. A pattern lists every way to read on from a place, the preferred one first.
Its match is the first of the list, so a pattern that another one follows falls back exactly as
far as it has to. -/

namespace ClassAtlas

def Pattern (α : Type) := Cursor → List (α × Cursor)

namespace Pattern

variable {α β : Type}

/-- Every way to read on after each of the readings, in their order. -/
def andThen (f : α → Pattern β) : List (α × Cursor) → List (β × Cursor)
  | [] => []
  | [r] => f r.1 r.2
  | r :: rest => f r.1 r.2 ++ andThen f rest

theorem andThen_eq_flatMap (f : α → Pattern β) (rs : List (α × Cursor)) :
    andThen f rs = rs.flatMap fun r => f r.1 r.2 := by
  fun_induction andThen f rs with
  | case1 => rfl
  | case2 r => simp
  | case3 r rest _ ih => rw [ih, List.flatMap_cons]

instance : Monad Pattern where
  pure a := fun c => [(a, c)]
  bind p f := fun c => andThen f (p c)

/-- The readings of an alternative follow those of the one before it. -/
instance : Alternative Pattern where
  failure := fun _ => []
  orElse p q := fun c => p c ++ q () c

theorem pure_apply (a : α) (c : Cursor) : (pure a : Pattern α) c = [(a, c)] := rfl

theorem bind_apply (p : Pattern α) (f : α → Pattern β) (c : Cursor) :
    (p >>= f) c = (p c).flatMap fun r => f r.1 r.2 :=
  andThen_eq_flatMap f (p c)

theorem orElse_apply (p q : Pattern α) (c : Cursor) : (p <|> q) c = p c ++ q c := rfl

/-- Reads nothing and yields the place itself. -/
def here : Pattern Cursor := fun c => [(c, c)]

/-- Reads nothing, and only where a condition holds. -/
def require (holds : Cursor → Bool) : Pattern Unit := fun c => if holds c then [((), c)] else []

/-- One character of a class. -/
def one (cls : Char → Bool) : Pattern Unit := fun c =>
  match c.after with
  | [] => []
  | ch :: rest => if cls ch then [((), ⟨ch :: c.before, rest⟩)] else []

/-- The place behind all characters of a class. -/
def skip (cls : Char → Bool) (before : List Char) : List Char → Cursor
  | [] => ⟨before, []⟩
  | ch :: rest => if cls ch then skip cls (ch :: before) rest else ⟨before, ch :: rest⟩

/-- All characters of a class that come next, however many. -/
def run (cls : Char → Bool) : Pattern Unit := fun c => [((), skip cls c.before c.after)]

/-- All characters of a class that come next, and at least one. -/
def run1 (cls : Char → Bool) : Pattern Unit := do
  one cls
  run cls

/-- The places between characters of a class, the last one first, put in front of `shorter`. -/
def prefixes (cls : Char → Bool) (before : List Char) :
    List Char → List (Unit × Cursor) → List (Unit × Cursor)
  | [], shorter => ((), ⟨before, []⟩) :: shorter
  | ch :: rest, shorter =>
    if cls ch then prefixes cls (ch :: before) rest (((), ⟨before, ch :: rest⟩) :: shorter)
    else ((), ⟨before, ch :: rest⟩) :: shorter

/-- Any number of characters of a class, rather more than fewer. -/
def many (cls : Char → Bool) : Pattern Unit := fun c => prefixes cls c.before c.after []

/-- At least one character of a class, rather more than fewer. -/
def many1 (cls : Char → Bool) : Pattern Unit := do
  one cls
  many cls

/-- The given characters. -/
def chars : List Char → Pattern Unit
  | [], c => [((), c)]
  | ch :: chs, c =>
    match c.after with
    | [] => []
    | next :: rest => if next == ch then chars chs ⟨next :: c.before, rest⟩ else []

/-- The given text. -/
@[inline] def lit (s : String) : Pattern Unit := chars s.toList

/-- One of the given texts, rather an earlier one. -/
def oneOf : List String → Pattern Unit
  | [] => failure
  | s :: rest => lit s <|> oneOf rest

/-- The pattern, rather than nothing. -/
def maybe (p : Pattern Unit) : Pattern Unit := p <|> pure ()

/-- The readings of repetitions, put in front of `fewer`. There are at most as many repetitions as
there are characters in the first list. -/
def repetitions (p : Pattern Unit) :
    List Char → Cursor → List (Unit × Cursor) → List (Unit × Cursor)
  | [], c, fewer => ((), c) :: fewer
  | _ :: limit, c, fewer =>
    match p c with
    | [] => ((), c) :: fewer
    | rs => rs.foldr (fun r acc => repetitions p limit r.2 acc) (((), c) :: fewer)

/-- Any number of repetitions, each of which reads something, rather more than fewer. -/
def repeated (p : Pattern Unit) : Pattern Unit := fun c => repetitions p c.after c []

/-- The place behind as many repetitions as there can be, and at most as many as there are
characters in the first list. -/
def skipAll (p : Pattern Unit) : List Char → Cursor → Cursor
  | [], c => c
  | _ :: limit, c =>
    match p c with
    | [] => c
    | r :: _ => skipAll p limit r.2

/-- All repetitions, each of which reads something. -/
def runOf (p : Pattern Unit) : Pattern Unit := fun c => [((), skipAll p c.after c)]

/-- The excerpt that a pattern reads. -/
def captured (p : Pattern Unit) : Pattern Excerpt := fun c =>
  (p c).map fun r => (⟨c, r.2⟩, r.2)

def atEnd : Pattern Unit := require (·.after.isEmpty)

/-- The place is not right after a character of a class. -/
def notAfter (cls : Char → Bool) : Pattern Unit := require fun c =>
  match c.before with
  | [] => true
  | ch :: _ => !cls ch

def startsWord : List Char → Bool
  | [] => false
  | ch :: _ => Text.isWord ch

/-- Exactly one of the two neighbouring characters belongs to a word. -/
def boundary : Pattern Unit := require fun c => startsWord c.before != startsWord c.after

/-- All blanks that come next. -/
def blanks : Pattern Unit := run Text.isBlank

/-- All blanks that come next, and at least one. -/
def blanks1 : Pattern Unit := run1 Text.isBlank

/-- A whole word. -/
def word : Pattern Unit := run1 Text.isWord

end Pattern

end ClassAtlas
