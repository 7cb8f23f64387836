/-! Stable sorting: items that the order does not tell apart keep their places. -/

namespace ClassAtlas

variable {α : Type}

/-- Puts an item before the first one that need not come before it. -/
def insertBy (le : α → α → Bool) (a : α) : List α → List α
  | [] => [a]
  | b :: rest => if le a b then a :: b :: rest else b :: insertBy le a rest

def sortBy (le : α → α → Bool) (items : List α) : List α := items.foldr (insertBy le) []

end ClassAtlas
