import ClassAtlas.Json.Read

/-! The numbers that written forms with a fraction or an exponent stand for, and the shortest
written forms of numbers. -/

namespace ClassAtlas.Json

def notANumber : Float := Float.ofBits 0x7ff8000000000000

def infinity : Float := Float.ofBits 0x7ff0000000000000

/-- The number nearest to `m` times a power of ten. -/
def scientific (m : Nat) (exponent : Int) : Float :=
  Float.ofScientific m (exponent < 0) exponent.natAbs

def exponentValue : List Char → Int
  | _ :: '-' :: digits => -natOfDigits digits
  | _ :: '+' :: digits => natOfDigits digits
  | _ :: digits => natOfDigits digits
  | [] => 0

/-- The number that a written form without a sign stands for. -/
def magnitude (text : List Char) : Float :=
  let whole := text.takeWhile isDigit
  let (fractionText, exponentText) := fraction (text.dropWhile isDigit)
  let decimals := fractionText.drop 1
  scientific (natOfDigits (whole ++ decimals)) (exponentValue exponentText - decimals.length)

def realOf (text : String) : Float :=
  if text == "NaN" then notANumber
  else if text == "Infinity" then infinity
  else if text == "-Infinity" then -infinity
  else
    match text.toList with
    | '-' :: rest => -magnitude rest
    | rest => magnitude rest

/-! ### Shortest written forms -/

/-- How many digits tell every number apart from all others. -/
def enoughDigits : Nat := 17

/-- More than the power of ten by which the least number is below one. -/
def leastPower : Nat := 400

/-- The fewest digits that stand for `x` and the power of ten of the last of them, where `x` is the
quotient `num / den`. Of two that are as few, the nearer ones are taken. -/
def shortest (x : Float) (num den : Nat) : Nat × Int :=
  let scaled := fun (places : Int) =>
    if places < 0 then (num, den * Nat.pow 10 places.natAbs)
    else (num * Nat.pow 10 places.natAbs, den)
  let power : Int :=
    (Nat.toDigits 10 (num * Nat.pow 10 leastPower / den)).length - (leastPower + 1 : Nat)
  let found := (List.range enoughDigits).findSome? fun (count : Nat) =>
    let last := power - count
    let (num, den) := scaled (-last)
    let below := num / den
    let twice := 2 * (num % den)
    let nearest := if twice < den ∨ twice = den ∧ below % 2 = 0 then below else below + 1
    let candidates := [nearest, 2 * below + 1 - nearest]
    (candidates.find? (scientific · last == x)).map (·, last)
  found.getD (0, 0)

/-- Digits are written with a point among them, unless the first is too far from it. -/
def layout (digits : List Char) (power : Int) : List Char :=
  let count := digits.length
  let first := power + count - 1
  if first < -4 ∨ 16 ≤ first then
    let exponent := toString first.natAbs
    let mantissa := if count ≤ 1 then digits else digits.take 1 ++ '.' :: digits.drop 1
    mantissa ++ ['e', if first < 0 then '-' else '+'] ++
      (if exponent.length < 2 then ['0'] else []) ++ exponent.toList
  else if first < 0 then ['0', '.'] ++ List.replicate (first.natAbs - 1) '0' ++ digits
  else if 0 ≤ power then digits ++ List.replicate power.natAbs '0' ++ ['.', '0']
  else
    let whole := (first + 1).natAbs
    digits.take whole ++ '.' :: digits.drop whole

/-- The zeros at the end of a number do not count as digits of it. -/
def significant (digits : List Char) : List Char := (digits.reverse.dropWhile (· == '0')).reverse

/-- The shortest decimal form that stands for the number. -/
def decimal (x : Float) : List Char :=
  let signed := fun (sign : Float.Model.UnpackedFloat.Sign) (text : List Char) =>
    match sign with
    | .negative => '-' :: text
    | .positive => text
  match x.toModel.unpack with
  | .notANumber => "nan".toList
  | .infinity sign => signed sign "inf".toList
  | .zero sign => signed sign "0.0".toList
  | .finite sign mantissa exponent _ =>
    let (num, den) :=
      if exponent < 0 then (mantissa, Nat.pow 2 exponent.natAbs)
      else (mantissa * Nat.pow 2 exponent.natAbs, 1)
    let (m, power) := shortest x.abs num den
    let all := Nat.toDigits 10 m
    let digits := significant all
    signed sign (layout digits (power + (all.length - digits.length : Nat)))

end ClassAtlas.Json
