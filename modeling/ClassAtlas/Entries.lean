/-! Entries by name, in the order in which the names were first given. -/

namespace ClassAtlas

/-- An entry takes the place of an earlier one of its name, or the last place. -/
def setEntry {α : Type} (entries : List (String × α)) (entry : String × α) : List (String × α) :=
  match entries with
  | [] => [entry]
  | other :: rest => if other.1 == entry.1 then entry :: rest else other :: setEntry rest entry

end ClassAtlas
