/-! Places in a text and the excerpts between them. -/

namespace ClassAtlas

/-- A place in a text: the characters before it, nearest first, and the characters after it. -/
structure Cursor where
  before : List Char
  after : List Char
deriving DecidableEq

namespace Cursor

def start (text : List Char) : Cursor := ⟨[], text⟩

/-- The place after so many characters, or the end of a shorter text. -/
def ofPosition (text : List Char) (position : Nat) : Cursor :=
  ⟨(text.take position).reverse, text.drop position⟩

/-- How many characters stand before the place. -/
def offset (c : Cursor) : Nat := c.before.length

def text (c : Cursor) : List Char := c.before.reverse ++ c.after

/-- The text of the place's line before it. -/
def lineHead (c : Cursor) : List Char := (c.before.takeWhile (· != '\n')).reverse

/-- The text before the place that a window shows, or all of it. -/
def lookBack (c : Cursor) (window : Option Int) : List Char :=
  match window with
  | none => c.before.reverse
  | some width => (c.before.take width.toNat).reverse

@[simp] theorem text_start (text : List Char) : (start text).text = text := rfl

@[simp] theorem offset_start (text : List Char) : (start text).offset = 0 := rfl

@[simp] theorem text_ofPosition (text : List Char) (position : Nat) :
    (Cursor.ofPosition text position).text = text := by
  simp [Cursor.ofPosition, Cursor.text]

theorem offset_ofPosition {text : List Char} {position : Nat} (h : position ≤ text.length) :
    (Cursor.ofPosition text position).offset = position := by
  simp [Cursor.ofPosition, offset, h]

end Cursor

/-- The stretch of a text between two places. -/
structure Excerpt where
  start : Cursor
  stop : Cursor

namespace Excerpt

def length (e : Excerpt) : Nat := e.start.after.length - e.stop.after.length

def chars (e : Excerpt) : List Char := e.start.after.take e.length

def text (e : Excerpt) : String := String.ofList e.chars

end Excerpt

end ClassAtlas
