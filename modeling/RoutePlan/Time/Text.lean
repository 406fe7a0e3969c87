import RoutePlan.Time.Instant
import RoutePlan.Time.Calendar
import RoutePlan.Text.Blank

/-!
# The text of an instant

An instant is written `YYYY-MM-DDTHH:MM:SS[.fff|.ffffff|.fffffffff]Z` (`Instant.text`): no fraction
when it is zero, else the shortest of three, six or nine digits that is exact; a year outside
`0 .. 9999` gets a sign. It is read from a date, a time with seconds and an offset
(`Instant.read?`); the reader also takes fields with fewer digits, blanks before a field, and an
offset without colon.
-/

namespace RoutePlan

/-- A number with at least `width` digits. -/
def padded (width n : Nat) : List Char :=
  let digits := Nat.toDigits 10 n
  List.replicate (width - digits.length) '0' ++ digits

def yearText (year : Int) : List Char :=
  if 0 ≤ year ∧ year ≤ 9999 then padded 4 year.toNat
  else (if year < 0 then '-' else '+') :: padded 4 year.natAbs

/-- A fraction of a second given in nanoseconds. -/
def fractionText (nanos : Nat) : List Char :=
  if nanos = 0 then []
  else if nanos % 1000000 = 0 then '.' :: padded 3 (nanos / 1000000)
  else if nanos % 1000 = 0 then '.' :: padded 6 (nanos / 1000)
  else '.' :: padded 9 nanos

namespace Instant

def chars (t : Instant) : List Char :=
  let days := t.seconds.fdiv 86400
  let second := (t.seconds - days * 86400).toNat
  let date := Date.ofDays days
  let leap := t.nanos / 1000000000
  yearText date.year ++ '-' :: (padded 2 date.month ++ '-' :: (padded 2 date.day ++
    'T' :: (padded 2 (second / 3600) ++ ':' :: (padded 2 (second / 60 % 60) ++
      ':' :: (padded 2 (second % 60 + leap) ++ (fractionText (t.nanos % 1000000000) ++ ['Z']))))))

/-- The text of an instant; a leap second is second 60. -/
def text (t : Instant) : String := String.ofList t.chars

/-! ## Reading -/

/-- A decimal digit. -/
def isDecimal (c : Char) : Bool := '0' ≤ c && c ≤ '9'

/-- Up to `limit` leading digits as a number, and the rest. -/
def digitsUpTo (limit : Nat) (text : List Char) : Option (List Char × List Char) :=
  let digits := (text.take limit).takeWhile isDecimal
  if digits.isEmpty then none else some (digits, text.drop digits.length)

def decimalValue (digits : List Char) : Nat :=
  digits.foldl (fun n c => n * 10 + (c.toNat - '0'.toNat)) 0

/-- A number of one or two digits after blanks. -/
def readPair (text : List Char) : Option (Nat × List Char) :=
  (digitsUpTo 2 (skipWhite text)).map fun (digits, rest) => (decimalValue digits, rest)

/-- A year: up to four digits, or any number of digits after a sign. -/
def readYear (text : List Char) : Option (Int × List Char) :=
  match skipWhite text with
  | '-' :: rest =>
    (digitsUpTo rest.length rest).map fun (digits, rest) => (-(decimalValue digits : Int), rest)
  | '+' :: rest =>
    (digitsUpTo rest.length rest).map fun (digits, rest) => ((decimalValue digits : Int), rest)
  | text => (digitsUpTo 4 text).map fun (digits, rest) => ((decimalValue digits : Int), rest)

/-- A character that must stand next, after blanks. -/
def expectMark (mark : Char) (text : List Char) : Option (List Char) :=
  match skipWhite text with
  | c :: rest => if c = mark then some rest else none
  | [] => none

/-- The nanoseconds of a fraction, if there is one; digits after the ninth are dropped. -/
def readFraction : List Char → Option (Nat × List Char)
  | '.' :: rest =>
    (digitsUpTo 9 rest).map fun (digits, after) =>
      (decimalValue digits * Nat.pow 10 (9 - digits.length), after.dropWhile isDecimal)
  | text => some (0, text)

/-- Hours and minutes of an offset after its sign, in seconds. Colons and blanks may stand between
them; minutes are two digits below sixty. -/
def readOffsetDigits : List Char → Option (Int × List Char)
  | a :: b :: rest =>
    if isDecimal a && isDecimal b then
      match rest.dropWhile (fun c => c == ':' || isWhite c) with
      | c :: d :: after =>
        if isDecimal c && isDecimal d && decide (c ≤ '5') then
          some ((decimalValue [a, b] * 3600 + decimalValue [c, d] * 60 : Nat), after)
        else none
      | _ => none
    else none
  | _ => none

/-- The letters of Coordinated Universal Time, in either case. -/
def isUtc (a b c : Char) : Bool :=
  (a == 'U' || a == 'u') && (b == 'T' || b == 't') && (c == 'C' || c == 'c')

/-- A sign and an offset east of Greenwich. -/
def readSignedOffset : List Char → Option (Int × List Char)
  | c :: rest =>
    if c = 'Z' ∨ c = 'z' then some (0, rest)
    else if c = '+' then readOffsetDigits rest
    else if c = '-' ∨ c = '\u2212' then
      (readOffsetDigits rest).map fun (seconds, rest) => (-seconds, rest)
    else none
  | [] => none

/-- An offset east of Greenwich in seconds. -/
def readOffset (text : List Char) : Option (Int × List Char) :=
  match skipWhite text with
  | a :: b :: c :: rest =>
    if isUtc a b c then some (0, rest) else readSignedOffset (a :: b :: c :: rest)
  | text => readSignedOffset text

/-- The instant of a date, a time of day and an offset. Second 60 is a leap second. Both the date as
written and the instant it stands for must be representable. -/
def ofParts? (date : Date) (hour minute second nanos : Nat) (offset : Int) : Option Instant :=
  if date.isValid ∧ Date.firstYear ≤ date.year ∧ date.year ≤ Date.lastYear ∧ hour ≤ 23 ∧
      minute ≤ 59 ∧ second ≤ 60 ∧ offset.natAbs < 86400 then
    let whole := if second = 60 then 59 else second
    let leap := if second = 60 then 1000000000 else 0
    let seconds := date.toDays * 86400 + (hour * 3600 + minute * 60 + whole : Nat) - offset
    (some ⟨seconds, nanos + leap⟩ : Option Instant).filter isRepresentable
  else none

def readDate (text : List Char) : Option (Date × List Char) := do
  let (year, rest) ← readYear text
  let (month, rest) ← readPair (← expectMark '-' rest)
  let (day, rest) ← readPair (← expectMark '-' rest)
  some (⟨year, month, day⟩, rest)

/-- The letter or blank between date and time. -/
def readSeparator : List Char → Option (List Char)
  | c :: rest => if c = 'T' ∨ c = 't' ∨ c = ' ' then some rest else none
  | [] => none

/-- The instant written in a text. -/
def read? (s : String) : Option Instant := do
  let (date, rest) ← readDate s.toList
  let (hour, rest) ← readPair (← readSeparator rest)
  let (minute, rest) ← readPair (← expectMark ':' rest)
  let (second, rest) ← readPair (← expectMark ':' rest)
  let (nanos, rest) ← readFraction rest
  let (offset, rest) ← readOffset rest
  if (skipWhite rest).isEmpty then ofParts? date hour minute second nanos offset else none

end Instant
end RoutePlan
