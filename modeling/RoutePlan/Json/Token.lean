import RoutePlan.Number.Literal

/-!
# Tokens of a structured text

`Token.scan` splits a text into brackets, separators, words, numbers and quoted texts, up to the
first part of it that is none of these. Blanks between tokens are spaces, tabs, line feeds and
carriage returns. A number may be out of range, and an escape in a quoted text may stand for no
character: such a token is well written, but has no value. Every token takes at least one character
off the text (`Token.length_scanToken`), which bounds the scan.
-/

namespace RoutePlan

/-- A token; the value of a number or of a quoted text is already read, if it has one. -/
inductive Token
  | beginArray | endArray | beginObject | endObject | colon | comma
  | null
  | bool (value : Bool)
  | num (value : Option Number)
  | str (value : Option String)

namespace Token

def isBlank (c : Char) : Bool := c == ' ' || c == '\n' || c == '\t' || c == '\r'

def isDigit (c : Char) : Bool := '0' ≤ c && c ≤ '9'

def digitValue (c : Char) : Nat := c.toNat - '0'.toNat

/-- The leading digits of a text. -/
def leadingDigits (text : List Char) : List Nat := (text.takeWhile isDigit).map digitValue

/-- The text after its leading digits. -/
def afterDigits (text : List Char) : List Char := text.dropWhile isDigit

/-- What stands after the digits is no longer than the text. -/
theorem length_afterDigits_le (text : List Char) : (afterDigits text).length ≤ text.length :=
  (List.dropWhile_sublist isDigit).length_le

/-- A leading digit is taken off. -/
theorem length_afterDigits_lt {text : List Char} (h : (leadingDigits text).isEmpty = false) :
    (afterDigits text).length < text.length := by
  cases text with
  | nil => simp [leadingDigits] at h
  | cons c rest =>
    by_cases hc : isDigit c = true
    · have := length_afterDigits_le rest
      simp only [afterDigits, List.dropWhile_cons_of_pos hc, List.length_cons] at this ⊢
      omega
    · simp [leadingDigits, hc] at h

/-! ## Numbers -/

/-- A fraction, if the text starts with a point; `none` if no digit follows the point. -/
def scanFraction : List Char → Option (Option (List Nat) × List Char)
  | '.' :: rest =>
    if (leadingDigits rest).isEmpty then none
    else some (some (leadingDigits rest), afterDigits rest)
  | text => some (none, text)

/-- The digits of an exponent whose sign is known. -/
def scanExponentDigits (down : Bool) (text : List Char) :
    Option (Option (Bool × List Nat) × List Char) :=
  if (leadingDigits text).isEmpty then none
  else some (some (down, leadingDigits text), afterDigits text)

/-- An exponent, if the text starts with its mark; `none` if no digit follows. -/
def scanExponent : List Char → Option (Option (Bool × List Nat) × List Char)
  | c :: rest =>
    if c = 'e' ∨ c = 'E' then
      match rest with
      | '+' :: digits => scanExponentDigits false digits
      | '-' :: digits => scanExponentDigits true digits
      | digits => scanExponentDigits false digits
    else some (none, c :: rest)
  | [] => some (none, [])

/-- A literal after its sign. Leading zeros are refused. -/
def scanLiteral (negative : Bool) (text : List Char) : Option (Literal × List Char) :=
  if (leadingDigits text).isEmpty then none
  else if (leadingDigits text).head? = some 0 ∧ 1 < (leadingDigits text).length then none
  else
    (scanFraction (afterDigits text)).bind fun (fraction, rest) =>
      (scanExponent rest).map fun (exponent, rest) =>
        (⟨negative, leadingDigits text, fraction, exponent⟩, rest)

/-- A literal with its sign. -/
def scanSigned : List Char → Option (Literal × List Char)
  | '-' :: rest => scanLiteral true rest
  | text => scanLiteral false text

/-- The number that starts a text; one that is out of range has no value. -/
def scanNumber (text : List Char) : Option (Option Number × List Char) :=
  (scanSigned text).map fun (literal, rest) => (literal.number?, rest)

/-- A fraction adds nothing to the text. -/
theorem length_scanFraction {text rest : List Char} {fraction : Option (List Nat)}
    (h : scanFraction text = some (fraction, rest)) : rest.length ≤ text.length := by
  unfold scanFraction at h
  split at h
  next digits =>
    split at h
    · simp at h
    · obtain ⟨_, rfl⟩ := Prod.mk.inj (Option.some.inj h)
      exact Nat.le_succ_of_le (length_afterDigits_le digits)
  · obtain ⟨_, rfl⟩ := Prod.mk.inj (Option.some.inj h)
    exact Nat.le_refl _

/-- The digits of an exponent add nothing to the text. -/
theorem length_scanExponentDigits {down : Bool} {text rest : List Char}
    {exponent : Option (Bool × List Nat)}
    (h : scanExponentDigits down text = some (exponent, rest)) : rest.length ≤ text.length := by
  unfold scanExponentDigits at h
  split at h
  · simp at h
  · obtain ⟨_, rfl⟩ := Prod.mk.inj (Option.some.inj h)
    exact length_afterDigits_le text

/-- An exponent adds nothing to the text. -/
theorem length_scanExponent {text rest : List Char} {exponent : Option (Bool × List Nat)}
    (h : scanExponent text = some (exponent, rest)) : rest.length ≤ text.length := by
  unfold scanExponent at h
  split at h
  next c digits =>
    split at h
    · split at h <;> have := length_scanExponentDigits h <;> grind
    · obtain ⟨_, rfl⟩ := Prod.mk.inj (Option.some.inj h)
      exact Nat.le_refl _
  · obtain ⟨_, rfl⟩ := Prod.mk.inj (Option.some.inj h)
    exact Nat.le_refl _

/-- A literal takes at least one character off the text. -/
theorem length_scanLiteral {negative : Bool} {text rest : List Char} {literal : Literal}
    (h : scanLiteral negative text = some (literal, rest)) : rest.length < text.length := by
  unfold scanLiteral at h
  split at h
  · simp at h
  next hdigits =>
    split at h
    · simp at h
    · obtain ⟨⟨fraction, mid⟩, hmid, h⟩ := Option.bind_eq_some_iff.1 h
      obtain ⟨⟨exponent, last⟩, hlast, h⟩ := Option.map_eq_some_iff.1 h
      obtain ⟨_, rfl⟩ := Prod.mk.inj h
      have h₁ := length_afterDigits_lt (Bool.not_eq_true _ ▸ hdigits)
      have h₂ := length_scanFraction hmid
      have h₃ := length_scanExponent hlast
      omega

/-- A number takes at least one character off the text. -/
theorem length_scanNumber {text rest : List Char} {n : Option Number}
    (h : scanNumber text = some (n, rest)) : rest.length < text.length := by
  obtain ⟨⟨literal, last⟩, hlast, h⟩ := Option.map_eq_some_iff.1 h
  obtain ⟨_, rfl⟩ := Prod.mk.inj h
  unfold scanSigned at hlast
  split at hlast
  · exact Nat.lt_succ_of_lt (length_scanLiteral hlast)
  · exact length_scanLiteral hlast

/-! ## Quoted texts -/

def hexValue? (c : Char) : Option Nat :=
  if isDigit c then some (digitValue c)
  else if 'a' ≤ c ∧ c ≤ 'f' then some (c.toNat - 'a'.toNat + 10)
  else if 'A' ≤ c ∧ c ≤ 'F' then some (c.toNat - 'A'.toNat + 10)
  else none

/-- The value of four hexadecimal digits. -/
def hexQuad? (a b c d : Char) : Option Nat := do
  some ((((← hexValue? a) * 16 + (← hexValue? b)) * 16 + (← hexValue? c)) * 16 + (← hexValue? d))

/-- The character of a one-letter escape. -/
def simpleEscape? : Char → Option Char
  | '"' => some '"'
  | '\\' => some '\\'
  | '/' => some '/'
  | 'b' => some '\x08'
  | 'f' => some '\x0c'
  | 'n' => some '\n'
  | 'r' => some '\r'
  | 't' => some '\t'
  | _ => none

/-- The character for an escaped unit and the text after it: a unit outside the surrogate range
stands alone, a leading surrogate needs an escaped trailing one, and any other surrogate stands for
no character. -/
def scanUnit (unit : Nat) (rest : List Char) : Option Char × List Char :=
  if unit < 0xD800 ∨ 0xDFFF < unit then (some (Char.ofNat unit), rest)
  else if unit < 0xDC00 then
    match rest with
    | '\\' :: 'u' :: a :: b :: c :: d :: after =>
      match hexQuad? a b c d with
      | some trailing =>
        if trailing < 0xDC00 ∨ 0xDFFF < trailing then (none, rest)
        else (some (Char.ofNat (0x10000 + (unit - 0xD800) * 0x400 + (trailing - 0xDC00))), after)
      | none => (none, rest)
    | _ => (none, rest)
  else (none, rest)

/-- The character after a backslash, if it stands for one, and the text after it. -/
def scanEscape : List Char → Option (Option Char × List Char)
  | 'u' :: a :: b :: c :: d :: rest => (hexQuad? a b c d).map fun unit => scanUnit unit rest
  | c :: rest => (simpleEscape? c).map fun e => (some e, rest)
  | [] => none

/-- A code unit adds nothing to the text. -/
theorem length_scanUnit (unit : Nat) (text : List Char) :
    (scanUnit unit text).2.length ≤ text.length := by
  unfold scanUnit
  split
  · exact Nat.le_refl _
  · split
    · split
      · split
        · split
          · exact Nat.le_refl _
          · simp only [List.length_cons]
            omega
        · exact Nat.le_refl _
      · exact Nat.le_refl _
    · exact Nat.le_refl _

/-- An escape takes at least one character off the text. -/
theorem length_scanEscape {text rest : List Char} {c : Option Char}
    (h : scanEscape text = some (c, rest)) : rest.length < text.length := by
  unfold scanEscape at h
  split at h
  next last =>
    obtain ⟨unit, _, h⟩ := Option.map_eq_some_iff.1 h
    have := length_scanUnit unit last
    rw [h] at this
    simp only [List.length_cons] at this ⊢
    omega
  · obtain ⟨_, _, h⟩ := Option.map_eq_some_iff.1 h
    obtain ⟨_, rfl⟩ := Prod.mk.inj h
    exact Nat.lt_succ_self _
  · simp at h

/-- The rest of a quoted text after its opening quote; `done` holds the characters read, the last
one first, and is none once an escape stood for no character. A control character must be escaped.
-/
def scanText (done : Option (List Char)) : List Char → Option (Option String × List Char)
  | [] => none
  | c :: rest =>
    if c = '"' then some (done.map fun cs => String.ofList cs.reverse, rest)
    else if c = '\\' then
      match _ : scanEscape rest with
      | some (e, after) => scanText (e.bind fun c => done.map (c :: ·)) after
      | none => none
    else if c.toNat < 0x20 then none
    else scanText (done.map (c :: ·)) rest
termination_by text => text.length
decreasing_by
  · exact Nat.lt_succ_of_lt (length_scanEscape (by assumption))
  · exact Nat.lt_succ_self _

/-- A quoted text takes at least its closing quote off the text. -/
theorem length_scanText {done : Option (List Char)} {text rest : List Char} {s : Option String}
    (h : scanText done text = some (s, rest)) : rest.length < text.length := by
  fun_induction scanText done text with
  | case1 => simp at h
  | case2 =>
    obtain ⟨_, rfl⟩ := Prod.mk.inj (Option.some.inj h)
    exact Nat.lt_succ_self _
  | case3 _ _ _ _ hescape _ ih =>
    exact Nat.lt_succ_of_lt (Nat.lt_trans (ih h) (length_scanEscape hescape))
  | case4 => simp at h
  | case5 => simp at h
  | case6 _ _ _ _ _ _ ih => exact Nat.lt_succ_of_lt (ih h)

/-! ## Tokens -/

/-- The token that starts a text without leading blanks. -/
def scanToken : List Char → Option (Token × List Char)
  | '[' :: rest => some (beginArray, rest)
  | ']' :: rest => some (endArray, rest)
  | '{' :: rest => some (beginObject, rest)
  | '}' :: rest => some (endObject, rest)
  | ':' :: rest => some (colon, rest)
  | ',' :: rest => some (comma, rest)
  | '"' :: rest => (scanText (some []) rest).map fun (s, rest) => (str s, rest)
  | 'n' :: 'u' :: 'l' :: 'l' :: rest => some (null, rest)
  | 't' :: 'r' :: 'u' :: 'e' :: rest => some (bool true, rest)
  | 'f' :: 'a' :: 'l' :: 's' :: 'e' :: rest => some (bool false, rest)
  | text => (scanNumber text).map fun (n, rest) => (num n, rest)

/-- A token takes at least one character off the text. -/
theorem length_scanToken {text rest : List Char} {token : Token}
    (h : scanToken text = some (token, rest)) : rest.length < text.length := by
  unfold scanToken at h
  split at h
  case h_7 =>
    obtain ⟨⟨s, last⟩, hlast, h⟩ := Option.map_eq_some_iff.1 h
    obtain ⟨_, rfl⟩ := Prod.mk.inj h
    exact Nat.lt_succ_of_lt (length_scanText hlast)
  case h_11 =>
    obtain ⟨⟨n, last⟩, hlast, h⟩ := Option.map_eq_some_iff.1 h
    obtain ⟨_, rfl⟩ := Prod.mk.inj h
    exact length_scanNumber hlast
  all_goals
    obtain ⟨_, rfl⟩ := Prod.mk.inj (Option.some.inj h)
    simp only [List.length_cons]
    omega

/-- The tokens of a text up to the first part of it that is no token, and whether there is no such
part; `done` holds the tokens read, the last one first. -/
def scan (done : List Token) : List Char → List Token × Bool
  | [] => (done.reverse, true)
  | c :: rest =>
    if isBlank c then scan done rest
    else
      match _ : scanToken (c :: rest) with
      | some (token, after) => scan (token :: done) after
      | none => (done.reverse, false)
termination_by text => text.length
decreasing_by
  · exact Nat.lt_succ_self _
  · exact length_scanToken (by assumption)

end Token
end RoutePlan
