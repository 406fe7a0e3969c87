import RoutePlan.Number.Double

/-!
# The shortest decimal that reads back

`Double.shortest` gives the fewest decimal digits whose value rounds to the double, and among the
decimals of that length the one nearest to it; an exact tie goes to the even last digit. A grid of
decimals `n · 10 ^ s` is tried from coarse to fine: if any of its points rounds to the double, so
does one of the two neighbours of the double on it, which are the only ones tested.
-/

namespace RoutePlan

/-- How many decimal digits `n` has; `0` has none. -/
def decimalLength (n : Nat) : Nat :=
  if n = 0 then 0 else decimalLength (n / 10) + 1
termination_by n

/-- A positive decimal `digits · 10 ^ scale`. -/
structure Decimal where
  digits : Nat
  scale : Int
  deriving DecidableEq

namespace Decimal

def num (d : Decimal) : Nat :=
  if 0 ≤ d.scale then d.digits * Nat.pow 10 d.scale.toNat else d.digits

def den (d : Decimal) : Nat :=
  if 0 ≤ d.scale then 1 else Nat.pow 10 (-d.scale).toNat

end Decimal

namespace Double

/-- The exponent of the leading decimal digit of `num / den`, for positive `num` and `den`. -/
def leadingExponent (num den : Nat) : Int :=
  if den ≤ num then (decimalLength (num / den) : Int) - 1
  else -(decimalLength ((den - 1) / num) : Int)

/-- Whether the decimal rounds to the magnitude of `d`. -/
def readsBack (d : Double) (x : Decimal) : Bool := nearestPattern x.num x.den == d.pattern

/-- The point of the grid `10 ^ scale` that reads back as `d` and is nearest to it, if there is
one. -/
def onGrid? (d : Double) (scale : Int) : Option Decimal :=
  let num := if 0 ≤ scale then d.num else d.num * Nat.pow 10 (-scale).toNat
  let den := if 0 ≤ scale then d.den * Nat.pow 10 scale.toNat else d.den
  let below : Decimal := ⟨num / den, scale⟩
  let above : Decimal := ⟨num / den + 1, scale⟩
  let preferAbove := den < 2 * (num % den) ∨ (2 * (num % den) = den ∧ num / den % 2 = 1)
  match d.readsBack below, d.readsBack above with
  | true, true => some (if preferAbove then above else below)
  | true, false => some below
  | false, true => some above
  | false, false => none

/-- The first grid with a point that reads back, from `scale` down over `tries` finer grids. -/
def searchGrids (d : Double) (scale : Int) : Nat → Decimal
  | 0 => ⟨0, 0⟩
  | tries + 1 =>
    match d.onGrid? scale with
    | some x => x
    | none => d.searchGrids (scale - 1) tries

/-- The shortest decimal that reads back as the magnitude of a nonzero double. Seventeen digits
always suffice; one more grid covers a carry into a new leading digit. -/
def shortest (d : Double) : Decimal :=
  d.searchGrids (leadingExponent d.num d.den + 1) 19

end Double
end RoutePlan
