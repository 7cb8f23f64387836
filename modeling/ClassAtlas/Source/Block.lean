import ClassAtlas.Pattern.Cursor

/-! Blocks in braces. Braces count wherever they stand. -/

namespace ClassAtlas.Source

/-- A stretch of a source from one position to another. -/
structure Span where
  start : Nat
  stop : Nat
deriving DecidableEq

def blockEndFrom (depth : Int) (position : Nat) : List Char → Option Nat
  | [] => none
  | c :: rest =>
    if c == '{' then blockEndFrom (depth + 1) (position + 1) rest
    else if c == '}' then
      if depth - 1 == 0 then some position else blockEndFrom (depth - 1) (position + 1) rest
    else blockEndFrom depth (position + 1) rest

/-- The position of the brace that closes the block opened at a place, or the end of the source if
there is none. -/
def blockEnd (opening : Cursor) : Nat :=
  (blockEndFrom 0 opening.offset opening.after).getD (opening.offset + opening.after.length)

end ClassAtlas.Source
