/-!
# Decimal numbers in settings and arguments

Digits of ASCII, which a sign may precede. White space, separators and an empty text are not
accepted.
-/

namespace RoutePlan

/-- The number that decimal digits write; there must be at least one. -/
def readDigits (digits : List Char) : Option Nat :=
  if digits.isEmpty || !digits.all (fun c => '0' ≤ c && c ≤ '9') then none
  else some (digits.foldl (fun n c => n * 10 + (c.toNat - '0'.toNat)) 0)

/-- The number of 32 bits, without a minus sign, that a text writes. -/
def readCount (s : String) : Option Nat :=
  let n := match s.toList with
    | '+' :: digits => readDigits digits
    | digits => readDigits digits
  n.filter fun n => n < 0x100000000

/-- The signed number of 32 bits that a text writes. -/
def readInt32 (s : String) : Option Int32 :=
  let n := match s.toList with
    | '-' :: digits => (readDigits digits).map fun n => -(n : Int)
    | '+' :: digits => (readDigits digits).map Int.ofNat
    | digits => (readDigits digits).map Int.ofNat
  (n.filter fun n => (Int32.ofInt n).toInt = n).map Int32.ofInt

end RoutePlan
