/-!
# Doubles as exact dyadic numbers

A finite binary64 number is a sign and the pattern of its remaining 63 bits (`Double`). The pattern
orders the magnitudes, so rounding a ratio to the nearest double (`Double.patternOfRatio?`) yields a
pattern directly: the carry from a full significand moves into the exponent by itself. All
arithmetic is on natural numbers, so every result can be computed and reasoned about exactly.
-/

namespace RoutePlan

/-- The pattern of infinity: every finite magnitude is below it. -/
def Double.infinity : Nat := 0x7FF0000000000000

/-- A finite binary64 number: its sign, and its bits without the sign bit. -/
structure Double where
  negative : Bool
  pattern : Nat
  finite : pattern < Double.infinity
  deriving DecidableEq

/-- `num / den` rounded to the nearest integer, a half going to the even neighbour. -/
def roundHalfEven (num den : Nat) : Nat :=
  let q := num / den
  let r := num % den
  if den < 2 * r ∨ (2 * r = den ∧ q % 2 = 1) then q + 1 else q

/-- The largest `e` with `2 ^ e ≤ num / den`, for positive `num` and `den`. -/
def floorLog2 (num den : Nat) : Int :=
  let k : Int := (num.log2 : Int) - (den.log2 : Int)
  let reaches :=
    if 0 ≤ k then den * Nat.pow 2 k.toNat ≤ num else den ≤ num * Nat.pow 2 (-k).toNat
  if reaches then k else k - 1

namespace Double

/-- How many patterns share an exponent. -/
def binade : Nat := 0x10000000000000

/-- The least exponent of a unit in the last place. -/
def leastExponent : Int := -1074

/-- The pattern of the double nearest to `num / den`, which may be that of infinity or above. -/
def nearestPattern (num den : Nat) : Nat :=
  if num = 0 then 0 else
  let e := max leastExponent (floorLog2 num den - 52)
  let significand :=
    if 0 ≤ e then roundHalfEven num (den * Nat.pow 2 e.toNat)
    else roundHalfEven (num * Nat.pow 2 (-e).toNat) den
  (e - leastExponent).toNat * binade + significand

/-- The double nearest to `± num / den`, unless its magnitude rounds to infinity. -/
def ofRatio? (negative : Bool) (num den : Nat) : Option Double :=
  if h : nearestPattern num den < infinity then some ⟨negative, nearestPattern num den, h⟩ else none

/-- Zero of either sign. -/
def zero (negative : Bool) : Double := ⟨negative, 0, by decide⟩

def isZero (d : Double) : Bool := d.pattern == 0

/-- The integer significand: the magnitude is `significand * 2 ^ exponent`. -/
def significand (d : Double) : Nat :=
  if d.pattern / binade = 0 then d.pattern else binade + d.pattern % binade

/-- The exponent of the unit in the last place. -/
def exponent (d : Double) : Int :=
  if d.pattern / binade = 0 then leastExponent
  else (d.pattern / binade : Nat) + (leastExponent - 1)

/-- The numerator of the magnitude as a ratio. -/
def num (d : Double) : Nat :=
  if 0 ≤ d.exponent then d.significand * Nat.pow 2 d.exponent.toNat else d.significand

/-- The denominator of the magnitude as a ratio, a power of two. -/
def den (d : Double) : Nat :=
  if 0 ≤ d.exponent then 1 else Nat.pow 2 (-d.exponent).toNat

/-- The rounded product, unless it overflows. -/
def mul? (a b : Double) : Option Double :=
  ofRatio? (a.negative != b.negative) (a.num * b.num) (a.den * b.den)

/-- The rounded quotient, unless it overflows; the divisor is not zero. -/
def div? (a b : Double) : Option Double :=
  ofRatio? (a.negative != b.negative) (a.num * b.den) (a.den * b.num)

/-- Numeric equality: the two zeros are equal. -/
def agrees (a b : Double) : Bool := (a.isZero && b.isZero) || a == b

end Double
end RoutePlan
