import RoutePlan.Number.Basic

/-!
# Numbers are written as numerals

The text of a number is not empty and has no other characters than digits, signs, a point and an
exponent mark (`Number.writesNumerals_text`), so that it cannot run on into the text around it.
-/

namespace RoutePlan

/-- The characters that occur in a numeral. -/
def isNumeral (c : Char) : Bool := c.isDigit || c ∈ ['-', '+', '.', 'e']

/-- Numbers are written as nonempty numerals. -/
def WritesNumerals (number : Number → List Char) : Prop :=
  ∀ n, number n ≠ [] ∧ ∀ c ∈ number n, isNumeral c = true

/-- Digits are part of a numeral. -/
theorem isNumeral_of_mem_toDigits {n : Nat} : ∀ c ∈ Nat.toDigits 10 n, isNumeral c = true := by
  intro c hc
  rw [isNumeral, Nat.isDigit_of_mem_toDigits (by decide) (by decide) hc, Bool.true_or]

/-- Without its trailing zeros a numeral is a numeral. -/
theorem isNumeral_of_mem_dropTrailingZeros {digits : List Char}
    (h : ∀ c ∈ digits, isNumeral c = true) :
    ∀ c ∈ dropTrailingZeros digits, isNumeral c = true := by
  intro c hc
  rw [dropTrailingZeros, List.mem_reverse] at hc
  exact h c (List.mem_reverse.1 ((List.dropWhile_sublist _).mem hc))

/-- Zeros are part of a numeral. -/
theorem isNumeral_of_mem_replicate {n : Nat} : ∀ c ∈ List.replicate n '0', isNumeral c = true := by
  intro c hc
  rw [List.eq_of_mem_replicate hc]
  decide

namespace Double

variable {digits : List Char} (h : ∀ c ∈ digits, isNumeral c = true)

include h

/-- Digits written with a point are a numeral. -/
theorem isNumeral_of_mem_positional (point : Int) :
    ∀ c ∈ positional digits point, isNumeral c = true := by
  unfold positional
  split
  · simp only [List.mem_cons, List.mem_append]
    rintro c (rfl | rfl | hc | hc)
    · decide
    · decide
    · exact isNumeral_of_mem_replicate c hc
    · exact h c hc
  · simp only [List.mem_cons, List.mem_append]
    rintro c ((hc | hc) | rfl | hc)
    · exact h c (List.mem_of_mem_take hc)
    · exact isNumeral_of_mem_replicate c hc
    · decide
    · split at hc
      · rw [List.mem_singleton.1 hc]
        decide
      · exact h c (List.mem_of_mem_drop hc)

/-- Digits written with an exponent are a numeral. -/
theorem isNumeral_of_mem_scientific (lead : Int) :
    ∀ c ∈ scientific digits lead, isNumeral c = true := by
  unfold scientific
  simp only [List.mem_cons, List.mem_append]
  rintro c (hc | rfl | hc | hc)
  · split at hc
    · rw [List.mem_singleton.1 hc]
      decide
    · exact h c hc
    · rcases List.mem_cons.1 hc with rfl | hc
      · exact h c (List.mem_cons_self ..)
      · rcases List.mem_cons.1 hc with rfl | hc
        · decide
        · exact h c (List.mem_cons_of_mem _ hc)
  · decide
  · split at hc <;> rw [List.mem_singleton.1 hc] <;> decide
  · exact isNumeral_of_mem_toDigits c hc

omit h

/-- The text of a magnitude is not empty. -/
theorem magnitudeText_ne_nil (d : Double) : d.magnitudeText ≠ [] := by
  unfold magnitudeText
  split
  · exact List.cons_ne_nil _ _
  · dsimp only
    split
    · unfold positional
      split
      · exact List.cons_ne_nil _ _
      · simp
    · simp [scientific]

/-- The text of a magnitude is a numeral. -/
theorem isNumeral_of_mem_magnitudeText (d : Double) :
    ∀ c ∈ d.magnitudeText, isNumeral c = true := by
  have hdigits := isNumeral_of_mem_dropTrailingZeros
    (isNumeral_of_mem_toDigits (n := d.shortest.digits))
  unfold magnitudeText
  split
  · intro c hc
    simp only [List.mem_cons, List.not_mem_nil, or_false] at hc
    rcases hc with rfl | rfl | rfl <;> decide
  · dsimp only
    split
    · exact isNumeral_of_mem_positional hdigits _
    · exact isNumeral_of_mem_scientific hdigits _

end Double

/-- A sign in front leaves a numeral. -/
theorem isNumeral_signed {cs : List Char} (negative : Prop) [Decidable negative] (hne : cs ≠ [])
    (hall : ∀ c ∈ cs, isNumeral c = true) :
    (if negative then '-' :: cs else cs) ≠ [] ∧
      ∀ c ∈ (if negative then '-' :: cs else cs), isNumeral c = true := by
  split
  · refine ⟨List.cons_ne_nil _ _, fun c hc => ?_⟩
    rcases List.mem_cons.1 hc with rfl | hc
    · decide
    · exact hall c hc
  · exact ⟨hne, hall⟩

/-- Numbers are written as numerals. -/
theorem Number.writesNumerals_text : WritesNumerals Number.text := by
  intro n
  cases n with
  | int value => exact isNumeral_signed _ Nat.toDigits_ne_nil isNumeral_of_mem_toDigits
  | double d => exact isNumeral_signed _ d.magnitudeText_ne_nil d.isNumeral_of_mem_magnitudeText

end RoutePlan
