import ClassAtlas.Text.Classes
import ClassAtlas.Text.Table.Case

/-! Full case mappings. A letter may map to several characters, and a capital sigma at the end
of a word has a small form of its own. -/

namespace ClassAtlas.Text

def Table.CaseRun.holds (run : Table.CaseRun) (n : Nat) : Bool :=
  decide (run.first ≤ n) && decide (n ≤ run.last) && (n - run.first) % run.step == 0

def shifted (runs : List Table.CaseRun) (c : Char) : Char :=
  match runs.find? (·.holds c.toNat) with
  | some run => Char.ofNat ((c.toNat : Int) + run.shift).toNat
  | none => c

def upperChar (c : Char) : List Char :=
  if c.toNat < 128 then [c.toUpper]
  else match Table.upperSequences.find? (·.1 == c.toNat) with
    | some (_, sequence) => sequence.map Char.ofNat
    | none => [shifted Table.upperRuns c]

def upperChars (text : List Char) : List Char := text.flatMap upperChar

/-- Whether the nearest character that a sigma does not look past is a cased letter. -/
def meetsLetter : List Char → Bool
  | [] => false
  | c :: rest =>
    if inRanges Table.caseIgnorable c.toNat then meetsLetter rest
    else inRanges Table.cased c.toNat

/-- The small form of a letter between the text before it, nearest first, and the text after. -/
def lowerChar (before : List Char) (c : Char) (after : List Char) : List Char :=
  if c.toNat < 128 then [c.toLower]
  else if c == 'Σ' then
    if meetsLetter before && !meetsLetter after then ['ς'] else ['σ']
  else if c == 'İ' then ['i', '̇']
  else [shifted Table.lowerRuns c]

def lowerFrom (before : List Char) : List Char → List Char
  | [] => []
  | c :: after => lowerChar before c after ++ lowerFrom (c :: before) after

def lowerChars (text : List Char) : List Char := lowerFrom [] text

def upper (s : String) : String := String.ofList (upperChars s.toList)

def lower (s : String) : String := String.ofList (lowerChars s.toList)

end ClassAtlas.Text
