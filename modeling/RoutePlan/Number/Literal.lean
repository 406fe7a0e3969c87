import RoutePlan.Number.Basic

/-!
# Number literals

A literal is a sign, integer digits, an optional fraction and an optional exponent. Without fraction
and exponent it is an integer if it fits into 64 bits (unsigned when positive, signed when negative;
a negative zero is a double). Everything else is a double: the significand takes digits as long as
it fits into 64 unsigned bits, and the double nearest to it is then scaled by a power of ten, itself
a double (`scaleByPowerOfTen`). A literal whose value overflows is refused (`Literal.number?`).
-/

namespace RoutePlan

/-- The parts of a literal: `-`, integer digits, fraction digits, and the exponent with its sign. -/
structure Literal where
  negative : Bool
  whole : List Nat
  fraction : Option (List Nat)
  exponent : Option (Bool × List Nat)

namespace Literal

/-- Significands are below this bound. -/
def significandBound : Nat := 0x10000000000000000

/-- Appends digits to a significand while it stays below the bound; the digits left over are
returned. -/
def absorb (significand : Nat) : List Nat → Nat × List Nat
  | [] => (significand, [])
  | d :: rest =>
    if significand * 10 + d < significandBound then absorb (significand * 10 + d) rest
    else (significand, d :: rest)

def digitsValue (digits : List Nat) : Nat := digits.foldl (fun n d => n * 10 + d) 0

/-- Powers of ten up to this exponent are doubles in their own right. -/
def greatestPower : Nat := 308

/-- The double nearest to `10 ^ k`, for `k ≤ 308`. -/
def powerOfTen (k : Nat) : Option Double := Double.ofRatio? false (Nat.pow 10 k) 1

/-- Divides by `10 ^ 308` as long as the exponent is below `-308`; a value that has become zero
stays. The number of rounds is bounded, since two divisions take any significand to zero. -/
def divideDown (d : Double) (exponent : Int) : Nat → Double × Int
  | 0 => (d, exponent)
  | rounds + 1 =>
    if exponent < -(greatestPower : Int) && !d.isZero then
      match (powerOfTen greatestPower).bind d.div? with
      | some q => divideDown q (exponent + greatestPower) rounds
      | none => (d, exponent)
    else (d, exponent)

/-- The double for `significand · 10 ^ exponent`, or `none` when it overflows. -/
def scaleByPowerOfTen (significand : Nat) (exponent : Int) : Option Double := do
  let start ← Double.ofRatio? false significand 1
  let (d, e) := divideDown start exponent 3
  if d.isZero then some d
  else if e < -(greatestPower : Int) then some (Double.zero false)
  else if (greatestPower : Int) < e then none
  else if 0 ≤ e then (powerOfTen e.toNat).bind d.mul?
  else (powerOfTen (-e).toNat).bind d.div?

/-- Exponents are below this bound in magnitude; a larger one overflows or gives zero. -/
def exponentBound : Nat := 0x80000000

def withSign (negative : Bool) (d : Double) : Double := { d with negative := negative }

/-- The value of a literal that has a fraction, an exponent, or too many digits. -/
def double? (l : Literal) : Option Double := do
  let (wholePart, skipped) := absorb 0 l.whole
  let fraction := l.fraction.getD []
  let (significand, ignored) := absorb wholePart fraction
  let shift : Int := (skipped.length : Int) - ((fraction.length - ignored.length : Nat) : Int)
  let d ←
    match l.exponent with
    | none => scaleByPowerOfTen significand shift
    | some (down, digits) =>
      let e := digitsValue digits
      if exponentBound ≤ e then
        if significand ≠ 0 ∧ !down then none else some (Double.zero false)
      else scaleByPowerOfTen significand (if down then shift - e else shift + e)
  some (withSign l.negative d)

/-- Whether an integer literal, whose digits have the value `n`, is an integer of 64 bits. -/
def fits (negative : Bool) (n : Nat) : Bool :=
  if negative then decide (0 < n ∧ n ≤ 0x8000000000000000) else decide (n < 0x10000000000000000)

/-- The number a literal denotes, or `none` when its magnitude overflows. -/
def number? (l : Literal) : Option Number :=
  let n := digitsValue l.whole
  if l.fraction.isNone && l.exponent.isNone && fits l.negative n then
    some (.int (if l.negative then -(n : Int) else n))
  else l.double?.map .double

end Literal
end RoutePlan
