/-!
Binary floating point in exact integer arithmetic: what a double stands for, and the double nearest
to a quotient.
-/

namespace RailSpec.Number

/-- A quotient rounded to the nearest natural number, a half to the even neighbour. -/
def roundQuotient (numerator denominator : Nat) : Nat :=
  let floor := numerator / denominator
  let rest := numerator % denominator
  if 2 * rest < denominator then floor
  else if denominator < 2 * rest then floor + 1
  else if floor % 2 = 0 then floor else floor + 1

/-- A non-negative fraction. -/
structure Ratio where
  numerator : Nat
  denominator : Nat
  deriving DecidableEq, Repr

/-- `scale base n` times a fraction, for a power that may be negative. -/
def Ratio.scaled (ratio : Ratio) (base : Nat) (power : Int) : Ratio :=
  if 0 ≤ power then ⟨ratio.numerator * Nat.pow base power.toNat, ratio.denominator⟩
  else ⟨ratio.numerator, ratio.denominator * Nat.pow base (-power).toNat⟩

/-- What the bits of a double stand for. -/
inductive Binary64 where
  | finite (negative : Bool) (significand : Nat) (exponent : Int)
  | infinite (negative : Bool)
  | undefined
  deriving DecidableEq, Repr

namespace Binary64

/-- A finite double is its significand times two to its exponent. -/
def ofFloat (x : Float) : Binary64 :=
  let bits : Nat := x.toBits.toNat
  let negative := bits / Nat.pow 2 63 == 1
  let biased : Nat := bits / Nat.pow 2 52 % Nat.pow 2 11
  let fraction : Nat := bits % Nat.pow 2 52
  if biased = 2047 then
    if fraction = 0 then .infinite negative else .undefined
  else if biased = 0 then .finite negative fraction (-1074)
  else .finite negative (Nat.pow 2 52 + fraction) ((biased : Int) - 1075)

/-- The magnitude of a finite double. -/
def magnitude (significand : Nat) (exponent : Int) : Ratio :=
  (Ratio.mk significand 1).scaled 2 exponent

/-- The bits of the double nearest to a fraction, without its sign; a fraction too large for every
finite double gives those of infinity. -/
def bitsOfRatio (ratio : Ratio) : Nat :=
  if ratio.numerator = 0 then 0
  else
    let guess : Int := (ratio.numerator.log2 : Int) - ratio.denominator.log2 - 52
    let trial := ratio.scaled 2 (-guess)
    let fitting := if trial.numerator / trial.denominator < Nat.pow 2 52 then guess - 1 else guess
    let exponent := max (-1074) fitting
    let exact := ratio.scaled 2 (-exponent)
    let significand := roundQuotient exact.numerator exact.denominator
    min ((exponent + 1074).toNat * Nat.pow 2 52 + significand) (2047 * Nat.pow 2 52)

end Binary64

/-- The double nearest to a signed fraction, a half-way case going to the even neighbour. -/
def floatOfRatio (negative : Bool) (ratio : Ratio) : Float :=
  let bits := Binary64.bitsOfRatio ratio
  Float.ofBits (UInt64.ofNat (if negative then Nat.pow 2 63 + bits else bits))

def infinity (negative : Bool) : Float :=
  Float.ofBits (UInt64.ofNat (if negative then 4095 * Nat.pow 2 52 else 2047 * Nat.pow 2 52))

def notANumber : Float :=
  Float.ofBits (UInt64.ofNat (4095 * Nat.pow 2 51))

/-- The double nearest to an integer, unless it lies beyond every finite one. -/
def floatOfInt? (n : Int) : Option Float :=
  let bits := Binary64.bitsOfRatio ⟨n.natAbs, 1⟩
  if bits < 2047 * Nat.pow 2 52 then some (floatOfRatio (n < 0) ⟨n.natAbs, 1⟩) else none

/-- The double nearest to `digits * 10 ^ power`. Powers far outside the range of doubles are decided
by the number of digits alone. -/
def floatOfDecimal (negative : Bool) (digits : Nat) (power : Int) : Float :=
  let places := power + (Nat.toDigits 10 digits).length
  if digits = 0 || places < -400 then floatOfRatio negative ⟨0, 1⟩
  else if 400 < places then infinity negative
  else floatOfRatio negative ((Ratio.mk digits 1).scaled 10 power)

end RailSpec.Number
