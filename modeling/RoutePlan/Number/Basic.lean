import RoutePlan.Number.Shortest

/-!
# Numbers of a document

A number is an integer or a double, and the two never compare equal (`Number.agrees`). A double is
written with the shortest digits that read back (`Double.text`): positional when the exponent of the
leading digit is in `-5 .. 15`, scientific otherwise.
-/

namespace RoutePlan

/-- A number of a document; integers and doubles are kept apart. -/
inductive Number
  | int (value : Int)
  | double (value : Double)
  deriving DecidableEq

/-- `digits` without its trailing zeros. -/
def dropTrailingZeros (digits : List Char) : List Char :=
  (digits.reverse.dropWhile (· == '0')).reverse

namespace Double

/-- Positional notation of `0.d₁d₂… · 10 ^ point`: at least one digit on each side of the point. -/
def positional (digits : List Char) (point : Int) : List Char :=
  if point ≤ 0 then '0' :: '.' :: (List.replicate (-point).toNat '0' ++ digits)
  else
    let n := point.toNat
    let whole := digits.take n ++ List.replicate (n - digits.length) '0'
    let fraction := digits.drop n
    whole ++ '.' :: (if fraction.isEmpty then ['0'] else fraction)

/-- Scientific notation of `d₁.d₂… · 10 ^ lead`. -/
def scientific (digits : List Char) (lead : Int) : List Char :=
  let significand :=
    match digits with
    | [] => ['0']
    | [d] => [d]
    | d :: rest => d :: '.' :: rest
  let mark := if lead < 0 then ['-'] else ['+']
  significand ++ 'e' :: (mark ++ Nat.toDigits 10 lead.natAbs)

/-- The text of the magnitude. -/
def magnitudeText (d : Double) : List Char :=
  if d.isZero then ['0', '.', '0']
  else
    let x := d.shortest
    let all := Nat.toDigits 10 x.digits
    let lead : Int := x.scale + (all.length : Int) - 1
    let digits := dropTrailingZeros all
    if -5 ≤ lead ∧ lead ≤ 15 then positional digits (lead + 1) else scientific digits lead

/-- The text of a double: the sign, also of a zero, and the magnitude. -/
def text (d : Double) : List Char :=
  if d.negative then '-' :: d.magnitudeText else d.magnitudeText

end Double

namespace Number

/-- The text of a number. -/
def text : Number → List Char
  | .int value =>
    if value < 0 then '-' :: Nat.toDigits 10 value.natAbs else Nat.toDigits 10 value.natAbs
  | .double value => value.text

/-- Numeric equality within one kind: the two zeros are equal, an integer equals no double. -/
def agrees : Number → Number → Bool
  | .int a, .int b => a == b
  | .double a, .double b => a.agrees b
  | _, _ => false

end Number
end RoutePlan
