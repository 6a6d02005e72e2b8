import RailSpec.Number.Binary64

/-!
Decimal texts of doubles: the fewest digits that read back, a number of significant digits, and a
number of decimal places. Each is rounded from the exact value.
-/

namespace RailSpec.Number

/-- The positive number `0.d₁d₂d₃… * 10 ^ point` with the given digits. -/
structure Decimal where
  digits : List Char
  point : Int
  deriving DecidableEq, Repr

/-- Drops zeros at the end of a digit list. -/
def dropTrailingZeros (digits : List Char) : List Char :=
  (digits.reverse.dropWhile (· == '0')).reverse

/-- How many digits a positive fraction has before its point; zero or less when it starts behind. -/
def Ratio.places (ratio : Ratio) : Int :=
  let guess : Int :=
    ((Nat.toDigits 10 ratio.numerator).length : Int) - (Nat.toDigits 10 ratio.denominator).length
  let shifted := ratio.scaled 10 (-guess)
  if shifted.numerator < shifted.denominator then guess else guess + 1

/-- `units * 10 ^ power` as digits and a point. -/
def Decimal.ofUnits (units : Nat) (power : Int) : Decimal :=
  let digits := Nat.toDigits 10 units
  ⟨dropTrailingZeros digits, digits.length + power⟩

/-- Of the two neighbours of a fraction on a decimal grid, the nearer one that reads back as the
double with the given bits. -/
def readsBackOn (ratio : Ratio) (bits : Nat) (power : Int) : Option Nat :=
  let grid := ratio.scaled 10 (-power)
  let low := grid.numerator / grid.denominator
  let returns (units : Nat) : Bool :=
    Binary64.bitsOfRatio ((Ratio.mk units 1).scaled 10 power) == bits
  let nearest := roundQuotient grid.numerator grid.denominator
  let other := if nearest = low then low + 1 else low
  if returns nearest then some nearest else if returns other then some other else none

/-- The first of finer and finer grids, from `count` digits on, with a point that reads back. -/
def shortestFrom (ratio : Ratio) (bits : Nat) (places : Int) (count : Nat) : Nat → Decimal
  | 0 => ⟨[], 0⟩
  | more + 1 =>
    match readsBackOn ratio bits (places - count) with
    | some units => Decimal.ofUnits units (places - count)
    | none => shortestFrom ratio bits places (count + 1) more

/-- The fewest digits that read back as a positive double; seventeen always do. -/
def shortest (ratio : Ratio) : Decimal :=
  shortestFrom ratio (Binary64.bitsOfRatio ratio) ratio.places 1 17

/-- A positive fraction rounded to a number of significant digits. -/
def significant (count : Nat) (ratio : Ratio) : Decimal :=
  let power := ratio.places - count
  let grid := ratio.scaled 10 (-power)
  Decimal.ofUnits (roundQuotient grid.numerator grid.denominator) power

/-- How a decimal is written: the exponents with a positional form, and whether a whole number keeps
one decimal place. -/
structure Notation where
  leastPoint : Int
  greatestPoint : Int
  keepsPlace : Bool

/-- Numbers as values show them: positional from 0.0001 up to below 10^16, always with a point. -/
def shownNumber : Notation := ⟨-3, 16, true⟩

/-- Time limits in messages: positional from 0.0001 up to below 10^6, without needless places. -/
def limitNumber : Notation := ⟨-3, 6, false⟩

def zeroDigits (count : Int) : List Char :=
  List.replicate count.toNat '0'

/-- An exponent has a sign and at least two digits. -/
def exponentText (exponent : Int) : List Char :=
  let digits := Nat.toDigits 10 exponent.natAbs
  'e' :: (if exponent < 0 then '-' else '+') :: (zeroDigits (2 - digits.length) ++ digits)

def Decimal.text (style : Notation) (decimal : Decimal) : List Char :=
  let count := decimal.digits.length
  if style.leastPoint ≤ decimal.point && decimal.point ≤ style.greatestPoint then
    if decimal.point ≤ 0 then
      '0' :: '.' :: (zeroDigits (-decimal.point) ++ decimal.digits)
    else if (count : Int) ≤ decimal.point then
      decimal.digits ++ zeroDigits (decimal.point - count)
        ++ (if style.keepsPlace then ['.', '0'] else [])
    else
      decimal.digits.take decimal.point.toNat ++ '.' :: decimal.digits.drop decimal.point.toNat
  else
    match decimal.digits with
    | [digit] => digit :: exponentText (decimal.point - 1)
    | digit :: rest => digit :: '.' :: (rest ++ exponentText (decimal.point - 1))
    | [] => []

/-- Writes a double through a way to choose the digits of a positive one. -/
def floatText (style : Notation) (choose : Ratio → Decimal) (x : Float) : String :=
  match Binary64.ofFloat x with
  | .undefined => "nan"
  | .infinite negative => if negative then "-inf" else "inf"
  | .finite negative significand exponent =>
    let body :=
      if significand = 0 then (if style.keepsPlace then ['0', '.', '0'] else ['0'])
      else (choose (Binary64.magnitude significand exponent)).text style
    String.ofList (if negative then '-' :: body else body)

/-- A double with the fewest digits that read back. -/
def shownFloat (x : Float) : String :=
  floatText shownNumber shortest x

/-- A double with six significant digits. -/
def limitFloat (x : Float) : String :=
  floatText limitNumber (significant 6) x

/-- A double with a fixed number of decimal places. -/
def fixedFloat (places : Nat) (x : Float) : String :=
  match Binary64.ofFloat x with
  | .undefined => "nan"
  | .infinite negative => if negative then "-inf" else "inf"
  | .finite negative significand exponent =>
    let ratio := (Binary64.magnitude significand exponent).scaled 10 places
    let digits := Nat.toDigits 10 (roundQuotient ratio.numerator ratio.denominator)
    let padded := zeroDigits (places + 1 - digits.length) ++ digits
    let whole := padded.length - places
    let body := padded.take whole ++ '.' :: padded.drop whole
    String.ofList (if negative then '-' :: body else body)

/-- Puts a comma between groups of three digits, counted from the end. -/
def groupedFromEnd : List Char → List Char
  | a :: b :: c :: d :: rest => a :: b :: c :: ',' :: groupedFromEnd (d :: rest)
  | short => short

/-- A natural number with its digits in groups of three. -/
def grouped (n : Nat) : String :=
  String.ofList (groupedFromEnd (Nat.toDigits 10 n).reverse).reverse

end RailSpec.Number
