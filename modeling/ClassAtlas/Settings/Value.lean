import ClassAtlas.Entries
import ClassAtlas.Fault
import ClassAtlas.Json.Real
import ClassAtlas.Settings.Basic

/-! The values that options are given. They come from a JSON text or from a caller, who may also
hand over a resolution or an acceptance itself. -/

namespace ClassAtlas

inductive OptionValue where
  | null
  | bool (b : Bool)
  | int (n : Int)
  | real (x : Float)
  | string (s : String)
  | array (items : List OptionValue)
  | object (members : List (String × OptionValue))
  | callResolution (r : CallResolution)
  | usageAcceptance (a : UsageAcceptance)

namespace OptionValue

/-! ### From JSON -/

mutual

def ofJson : Json → OptionValue
  | .null => null
  | .bool b => bool b
  | .int n => int n
  | .real text => real (Json.realOf text)
  | .string s => string s
  | .array items => array (ofItems items)
  | .object members => object (ofMembers [] members)

def ofItems : List Json → List OptionValue
  | [] => []
  | item :: rest => ofJson item :: ofItems rest

/-- A later member of a name replaces an earlier one, also among those that were read before. -/
def ofMembers (before : List (String × OptionValue)) :
    List (String × Json) → List (String × OptionValue)
  | [] => before
  | (name, value) :: rest => ofMembers (setEntry before (name, ofJson value)) rest

end

instance : Coe Json OptionValue := ⟨ofJson⟩

/-! ### As numbers -/

/-- The whole number that a value counts as. -/
def whole? : OptionValue → Option Int
  | bool b => some b.toInt
  | int n => some n
  | _ => none

/-- Whether a value is below a bound, if it counts as a number. -/
def below? (bound : Nat) : OptionValue → Option Bool
  | real x => some (x < bound.toFloat)
  | v => v.whole?.map fun (n : Int) => decide (n < bound)

/-- Whether a value is at least a bound, if it counts as a number. -/
def atLeast? (bound : Nat) : OptionValue → Option Bool
  | real x => some (bound.toFloat ≤ x)
  | v => v.whole?.map fun (n : Int) => decide (bound ≤ n)

def isNaN : OptionValue → Bool
  | real x => x.isNaN
  | _ => false

/-! ### As choices -/

def callResolution? : OptionValue → Option CallResolution
  | callResolution r => some r
  | _ => none

def usageAcceptance? : OptionValue → Option UsageAcceptance
  | usageAcceptance a => some a
  | _ => none

/-! ### In messages -/

/-- What is handed over itself goes by its name in capitals. -/
def memberName (choice : Choice) (name : String) : List Char :=
  (choice.title ++ "." ++ name.toUpper).toList

def displayMember (choice : Choice) (name : String) : List Char :=
  '<' :: memberName choice name ++ [':', ' '] ++ Text.quoteChars name.toList ++ ['>']

mutual

/-- How messages spell a value. -/
def displayChars : OptionValue → List Char
  | null => "None".toList
  | bool true => "True".toList
  | bool false => "False".toList
  | int n => (toString n).toList
  | real x => Json.decimal x
  | string s => Text.quoteChars s.toList
  | array [] => ['[', ']']
  | array (item :: rest) => '[' :: displayChars item ++ displayItems rest ++ [']']
  | object [] => ['\x7b', '\x7d']
  | object ((name, value) :: rest) =>
    '\x7b' :: Text.quoteChars name.toList ++ [':', ' '] ++ displayChars value ++
      displayMembers rest ++ ['\x7d']
  | callResolution r => displayMember .callResolution r.name
  | usageAcceptance a => displayMember .usageAcceptance a.name

/-- The items after the first. -/
def displayItems : List OptionValue → List Char
  | [] => []
  | item :: rest => ',' :: ' ' :: displayChars item ++ displayItems rest

/-- The members after the first. -/
def displayMembers : List (String × OptionValue) → List Char
  | [] => []
  | (name, value) :: rest =>
    ',' :: ' ' :: Text.quoteChars name.toList ++ [':', ' '] ++ displayChars value ++
      displayMembers rest

end

def display (value : OptionValue) : String := String.ofList (displayChars value)

/-- A value as a part of a text. -/
def text : OptionValue → String
  | string s => s
  | callResolution r => String.ofList (memberName .callResolution r.name)
  | usageAcceptance a => String.ofList (memberName .usageAcceptance a.name)
  | value => value.display

end OptionValue

end ClassAtlas
