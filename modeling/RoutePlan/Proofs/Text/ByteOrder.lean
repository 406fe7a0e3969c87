import Mathlib.Data.String.Basic

/-!
# The order of texts by their bytes

Texts are compared character by character, by code point. That is also their order by the bytes of
UTF-8 (`lt_iff_utf8Bytes_lt`). A code of several bytes has a first byte that tells the length, and
each further byte is one more digit to the base 64 (`Ascending.continued`); the first byte of a
longer code is greater than that of a shorter one (`Ascending.ite`).
-/

namespace RoutePlan

/-- The bytes of a text in UTF-8. -/
def utf8Bytes (s : String) : List UInt8 := s.toByteArray.data.toList

/-- The bytes of a text are those of its characters in turn. -/
theorem utf8Bytes_eq_flatMap (s : String) :
    utf8Bytes s = s.toList.flatMap String.utf8EncodeChar := by
  have hencode : s.toByteArray = s.toList.utf8Encode := by
    rw [← String.toByteArray_ofList, String.ofList_toList]
  rw [utf8Bytes, hencode, List.utf8Encode, List.toList_data_toByteArray]

/-! ## Codes of numbers -/

/-- A first byte: some bits of a number under a mark. -/
def leadByte (bits mark : Nat) (n : Nat) : List UInt8 := [UInt8.ofNat (n % bits + mark)]

/-- A code with one more byte for the last six bits. -/
def continued (code : Nat → List UInt8) (n : Nat) : List UInt8 :=
  code (n / 64) ++ [UInt8.ofNat (n % 64 + 128)]

/-- The code of a number. -/
def numberCode (n : Nat) : List UInt8 :=
  if n ≤ 127 then [UInt8.ofNat n]
  else if n ≤ 2047 then continued (leadByte 32 192) n
  else if n ≤ 65535 then continued (continued (leadByte 16 224)) n
  else continued (continued (continued (leadByte 8 240))) n

/-- The code of a character is that of its number. -/
theorem utf8EncodeChar_eq (c : Char) : String.utf8EncodeChar c = numberCode c.val.toNat := by
  simp only [numberCode, continued, leadByte, Nat.div_div_eq_div_mul]
  rfl

/-- Lower numbers have lower codes, whatever follows them. -/
def Ascending (bound : Nat) (code : Nat → List UInt8) : Prop :=
  ∀ m n, m < n → n < bound → ∀ bytes more, code m ++ bytes < code n ++ more

/-- A lower first byte makes the lower list. -/
theorem ofNat_cons_lt {m n : Nat} (h : m < n) (hn : n < 256) (bytes more : List UInt8) :
    UInt8.ofNat m :: bytes < UInt8.ofNat n :: more := by
  have hm : m < UInt8.size := Nat.lt_trans h hn
  exact List.cons_lt_cons_iff.2 (.inl ((UInt8.ofNat_lt_iff_lt hm hn).2 h))

/-- First bytes of one length are in ascending order. -/
theorem ascending_leadByte {bits mark : Nat} (hmark : bits + mark ≤ 256) :
    Ascending bits (leadByte bits mark) := by
  intro m n hlt hn bytes more
  rw [leadByte, leadByte, Nat.mod_eq_of_lt hn, Nat.mod_eq_of_lt (Nat.lt_trans hlt hn)]
  exact ofNat_cons_lt (by omega) (by omega) bytes more

section
variable {bound limit : Nat} {code longer : Nat → List UInt8}

/-- Codes that go on with one more byte are in ascending order if they were before. -/
theorem Ascending.continued (h : Ascending bound code) :
    Ascending (64 * bound) (continued code) := by
  intro m n hlt hn bytes more
  simp only [RoutePlan.continued, List.append_assoc]
  rcases Nat.lt_or_eq_of_le (Nat.div_le_div_right (c := 64) (Nat.le_of_lt hlt)) with hlead | hlead
  · exact h _ _ hlead (by omega) _ _
  · -- the codes differ in the last byte only
    rw [hlead]
    exact List.append_left_lt (ofNat_cons_lt (by omega) (by omega) bytes more)

/-- Up to a limit there are codes of one kind, and codes that come after all of these beyond it. -/
theorem Ascending.ite (h : Ascending (limit + 1) code) (hlonger : Ascending bound longer)
    (hbetween : ∀ m n, m ≤ limit → limit < n → n < bound →
      ∀ bytes more, code m ++ bytes < longer n ++ more) :
    Ascending bound fun n => if n ≤ limit then code n else longer n := by
  intro m n hlt hn bytes more
  dsimp only
  by_cases hm : m ≤ limit
  · rw [if_pos hm]
    by_cases hlimit : n ≤ limit
    · rw [if_pos hlimit]
      exact h m n hlt (by omega) bytes more
    · rw [if_neg hlimit]
      exact hbetween m n hm (by omega) hn bytes more
  · rw [if_neg hm, if_neg (by omega)]
    exact hlonger m n hlt hn bytes more

end

/-- The codes of all characters are in ascending order. -/
theorem ascending_numberCode : Ascending 0x110000 numberCode := by
  have hone : Ascending (127 + 1) fun n => [UInt8.ofNat n] := fun m n hlt hn =>
    ofNat_cons_lt hlt (by omega)
  have htwo : Ascending (2047 + 1) (continued (leadByte 32 192)) :=
    (@ascending_leadByte 32 192 (by decide)).continued
  have hthree : Ascending (65535 + 1) (continued (continued (leadByte 16 224))) :=
    (@ascending_leadByte 16 224 (by decide)).continued.continued
  have hfour : Ascending 0x110000 (continued (continued (continued (leadByte 8 240)))) :=
    fun m n hlt hn => (@ascending_leadByte 8 240 (by decide)).continued.continued.continued
      m n hlt (by omega)
  -- codes of different lengths differ in the first byte
  refine hone.ite (htwo.ite (hthree.ite hfour ?_) ?_) ?_
  · intro m n hm hn hbound bytes more
    exact ofNat_cons_lt (by omega) (by omega) _ _
  · intro m n hm hn hbound bytes more
    split_ifs <;> exact ofNat_cons_lt (by omega) (by omega) _ _
  · intro m n hm hn hbound bytes more
    split_ifs <;> exact ofNat_cons_lt (by omega) (by omega) _ _

/-- No code is empty. -/
theorem numberCode_ne_nil (n : Nat) : numberCode n ≠ [] := by
  unfold numberCode
  split_ifs <;> exact List.cons_ne_nil _ _

/-! ## Texts -/

/-- The code of a lower character is lower, whatever follows. -/
theorem utf8EncodeChar_lt {c d : Char} (h : c < d) (bytes more : List UInt8) :
    String.utf8EncodeChar c ++ bytes < String.utf8EncodeChar d ++ more := by
  have hbound : d.val.toNat < 0x110000 := by
    rcases d.valid with hvalid | hvalid
    · exact Nat.lt_trans hvalid (by decide)
    · exact hvalid.2
  rw [utf8EncodeChar_eq, utf8EncodeChar_eq]
  exact ascending_numberCode _ _ h hbound bytes more

/-- The lower of two lists of characters has the lower bytes. -/
theorem flatMap_utf8EncodeChar_lt {cs ds : List Char} (h : cs < ds) :
    cs.flatMap String.utf8EncodeChar < ds.flatMap String.utf8EncodeChar := by
  induction h with
  | @nil d ds =>
    obtain ⟨b, bytes, hb⟩ := List.exists_cons_of_ne_nil (numberCode_ne_nil d.val.toNat)
    rw [List.flatMap_nil, List.flatMap_cons, utf8EncodeChar_eq, hb]
    exact .nil
  | rel hlt => exact utf8EncodeChar_lt hlt _ _
  | cons _ ih => exact List.append_left_lt ih

/-- The order of texts is that of their bytes. -/
theorem lt_iff_utf8Bytes_lt {s t : String} : s < t ↔ utf8Bytes s < utf8Bytes t := by
  rw [String.lt_iff_toList_lt, utf8Bytes_eq_flatMap, utf8Bytes_eq_flatMap]
  refine ⟨flatMap_utf8EncodeChar_lt, fun h => ?_⟩
  rcases lt_trichotomy s.toList t.toList with hlt | heq | hgt
  · exact hlt
  · rw [heq] at h
    exact absurd h (List.lt_irrefl _)
  · exact absurd h (List.lt_asymm (flatMap_utf8EncodeChar_lt hgt))

end RoutePlan
