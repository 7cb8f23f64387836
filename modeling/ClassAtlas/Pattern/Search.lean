import ClassAtlas.Pattern.Basic

/-! Matches of a pattern in a text: the leftmost one, all that do not overlap, and the text with
each of them replaced. Patterns searched for in this way read at least one character. -/

namespace ClassAtlas

structure Match (α : Type) extends Excerpt where
  value : α

namespace Pattern

variable {α : Type}

/-- The preferred match that starts at a place. -/
def matchAt? (p : Pattern α) (c : Cursor) : Option (Match α) :=
  match p c with
  | [] => none
  | (a, stop) :: _ => some ⟨⟨c, stop⟩, a⟩

def searchFrom (p : Pattern α) (before : List Char) : List Char → Option (Match α)
  | [] => p.matchAt? ⟨before, []⟩
  | ch :: rest =>
    match p.matchAt? ⟨before, ch :: rest⟩ with
    | some m => some m
    | none => searchFrom p (ch :: before) rest

/-- The leftmost match in a text. -/
def search (p : Pattern α) (text : List Char) : Option (Match α) := searchFrom p [] text

/-- The matches that start after `skip` more characters, one after the other. -/
def matchesFrom (p : Pattern α) (skip : Nat) (before : List Char) : List Char → List (Match α)
  | [] => (p.matchAt? ⟨before, []⟩).toList
  | ch :: rest =>
    match skip with
    | left + 1 => matchesFrom p left (ch :: before) rest
    | 0 =>
      match p.matchAt? ⟨before, ch :: rest⟩ with
      | some m => m :: matchesFrom p (m.length - 1) (ch :: before) rest
      | none => matchesFrom p 0 (ch :: before) rest

/-- All matches from left to right; the next one is sought where the last one stops. -/
def matchesIn (p : Pattern α) (text : List Char) : List (Match α) := matchesFrom p 0 [] text

def occurs (p : Pattern α) (text : List Char) : Bool := (p.search text).isSome

def replaceFrom (p : Pattern α) (new : List Char) (skip : Nat) (before : List Char) :
    List Char → List Char
  | [] => []
  | ch :: rest =>
    match skip with
    | left + 1 => replaceFrom p new left (ch :: before) rest
    | 0 =>
      match p.matchAt? ⟨before, ch :: rest⟩ with
      | some m => new ++ replaceFrom p new (m.length - 1) (ch :: before) rest
      | none => ch :: replaceFrom p new 0 (ch :: before) rest

/-- The text with every match replaced by `new`. -/
def replace (p : Pattern α) (new text : List Char) : List Char := replaceFrom p new 0 [] text

end Pattern

end ClassAtlas
