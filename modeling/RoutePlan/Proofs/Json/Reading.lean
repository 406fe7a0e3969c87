import RoutePlan.Json.Canonical
import RoutePlan.Proofs.Number.Numeral

/-!
# The canonical text determines the value

A text in quotes says where it ends, since a quote inside it is escaped (`quoted_append_inj`); so
does an array or an object. A number ends where no numeral can go on, and what follows a value is
never part of a numeral. Hence the text of a value, whatever follows it, can be read in one way only
(`Json.charsWith_append_inj`), as long as the writer of numbers writes nonempty numerals
(`WritesNumerals`) and tells the numbers in question apart. Values with the same canonical text have
the same normal form (`Json.normal_eq_of_canonicalWith_eq`).
-/

namespace RoutePlan

/-! ## Quoted texts -/

/-- Reads an escaped character after its backslash. -/
def readEscape : List Char → Option (Char × List Char)
  | '"' :: rest => some ('"', rest)
  | '\\' :: rest => some ('\\', rest)
  | 'n' :: rest => some ('\n', rest)
  | 'r' :: rest => some ('\r', rest)
  | 't' :: rest => some ('\t', rest)
  | 'b' :: rest => some ('\x08', rest)
  | 'f' :: rest => some ('\x0c', rest)
  | 'u' :: '0' :: '0' :: high :: low :: rest =>
    ((List.range 0x20).find? fun n => hexDigit (n / 16) == high && hexDigit n == low).map
      fun n => (Char.ofNat n, rest)
  | _ => none

/-- Reads one character of a quoted text. -/
def unescapeChar : List Char → Option (Char × List Char)
  | [] => none
  | c :: rest => if c = '\\' then readEscape rest else some (c, rest)

/-- A control character is known from its two digits. -/
theorem find?_hexDigit {n : Nat} (h : n < 0x20) :
    ((List.range 0x20).find? fun m =>
      hexDigit (m / 16) == hexDigit (n / 16) && hexDigit m == hexDigit n) = some n := by
  revert n
  decide

/-- A character is read back from its escape, whatever follows. -/
theorem unescapeChar_escapeChar (c : Char) (rest : List Char) :
    unescapeChar (escapeChar c ++ rest) = some (c, rest) := by
  unfold escapeChar
  split
  · next h => rw [h]; rfl
  split
  · next h => rw [h]; rfl
  split
  · next h => rw [h]; rfl
  split
  · next h => rw [h]; rfl
  split
  · next h => rw [h]; rfl
  split
  · next h => rw [h]; rfl
  split
  · next h => rw [h]; rfl
  split
  · next h =>
    simp only [List.cons_append, List.nil_append, unescapeChar, if_true, readEscape,
      find?_hexDigit h, Option.map_some, Char.ofNat_toNat]
  · next hbackslash _ _ _ _ _ _ =>
    rw [List.singleton_append, unescapeChar, if_neg hbackslash]

/-- An escape does not begin with a quote. -/
theorem escapeChar_ne_quote (c : Char) (rest more : List Char) :
    escapeChar c ++ rest ≠ '"' :: more := by
  intro h
  unfold escapeChar at h
  split at h
  · cases h
  · next hquote =>
    repeat' split at h
    all_goals simp_all

/-- The characters of a quoted text can be read in one way only up to its closing quote. -/
theorem flatMap_escapeChar_inj {r s : List Char} : ∀ {cs ds : List Char},
    cs.flatMap escapeChar ++ '"' :: r = ds.flatMap escapeChar ++ '"' :: s → cs = ds ∧ r = s
  | [], [], h => ⟨rfl, (List.cons.inj h).2⟩
  | [], d :: ds, h => by
    rw [List.flatMap_cons, List.append_assoc] at h
    exact absurd h.symm (escapeChar_ne_quote _ _ _)
  | c :: cs, [], h => by
    rw [List.flatMap_cons, List.append_assoc] at h
    exact absurd h (escapeChar_ne_quote _ _ _)
  | c :: cs, d :: ds, h => by
    rw [List.flatMap_cons, List.flatMap_cons, List.append_assoc, List.append_assoc] at h
    have hread := congrArg unescapeChar h
    rw [unescapeChar_escapeChar, unescapeChar_escapeChar, Option.some.injEq, Prod.mk.injEq] at hread
    have ⟨hrest, hend⟩ := flatMap_escapeChar_inj hread.2
    exact ⟨by rw [hread.1, hrest], hend⟩

/-- A text in quotes can be read in one way only. -/
theorem quoted_append_inj {k l : String} {r s : List Char} (h : quoted k ++ r = quoted l ++ s) :
    k = l ∧ r = s := by
  simp only [quoted, List.cons_append, List.append_assoc, List.cons.injEq, true_and,
    List.nil_append] at h
  have ⟨hchars, hrest⟩ := flatMap_escapeChar_inj h
  exact ⟨String.toList_inj.1 hchars, hrest⟩

/-! ## Numerals -/

/-- No numeral goes on with this. -/
def EndsNumeral (rest : List Char) : Prop := ∀ c ∈ rest.head?, isNumeral c = false

/-- A numeral can be read in one way only, if no numeral goes on after it. -/
theorem numeral_append_inj {cs ds r s : List Char} (hc : ∀ c ∈ cs, isNumeral c = true)
    (hd : ∀ d ∈ ds, isNumeral d = true) (hr : EndsNumeral r) (hs : EndsNumeral s)
    (h : cs ++ r = ds ++ s) : cs = ds ∧ r = s := by
  have htake : ∀ {cs r : List Char}, (∀ c ∈ cs, isNumeral c = true) → EndsNumeral r →
      (cs ++ r).takeWhile isNumeral = cs := by
    intro cs r hc hr
    rw [List.takeWhile_append_of_pos hc]
    cases r with
    | nil => exact List.append_nil cs
    | cons c r => rw [List.takeWhile_cons_of_neg (by simp [hr c rfl]), List.append_nil]
  have hcs := congrArg (List.takeWhile isNumeral) h
  rw [htake hc hr, htake hd hs] at hcs
  subst hcs
  exact ⟨rfl, List.append_cancel_left h⟩

namespace Json

/-! ## Values -/

mutual

/-- The numbers in a value. -/
def numbers : Json → List Number
  | .null | .bool _ | .str _ => []
  | .num n => [n]
  | .arr items => numbersOfItems items
  | .obj members => numbersOfMembers members

/-- `numbers` of every item. -/
def numbersOfItems : List Json → List Number
  | [] => []
  | item :: rest => numbers item ++ numbersOfItems rest

/-- `numbers` of every member. -/
def numbersOfMembers : List (String × Json) → List Number
  | [] => []
  | (_, value) :: rest => numbers value ++ numbersOfMembers rest

end

/-- The writer tells the numbers of one list from those of another. -/
def Distinguishes (number : Number → List Char) (ms ns : List Number) : Prop :=
  ∀ m ∈ ms, ∀ n ∈ ns, number m = number n → m = n

section
variable {number : Number → List Char}

/-- What tells numbers apart tells the first ones apart. -/
theorem Distinguishes.left {ms ms' ns ns' : List Number}
    (h : Distinguishes number (ms ++ ms') (ns ++ ns')) : Distinguishes number ms ns :=
  fun m hm n hn => h m (List.mem_append_left _ hm) n (List.mem_append_left _ hn)

/-- What tells numbers apart tells the last ones apart. -/
theorem Distinguishes.right {ms ms' ns ns' : List Number}
    (h : Distinguishes number (ms ++ ms') (ns ++ ns')) : Distinguishes number ms' ns' :=
  fun m hm n hn => h m (List.mem_append_right _ hm) n (List.mem_append_right _ hn)

/-- The character that a value begins with, that of a numeral apart. -/
def opening : Json → Option Char
  | .null => some 'n'
  | .bool true => some 't'
  | .bool false => some 'f'
  | .num _ => none
  | .str _ => some '"'
  | .arr _ => some '['
  | .obj _ => some '{'

/-- The first character tells what kind of value it is. -/
theorem head?_charsWith (hnumber : WritesNumerals number) (j : Json) (rest : List Char) :
    ((charsWith number j ++ rest).head?.filter fun c => !isNumeral c) = j.opening := by
  cases j with
  | null => rfl
  | bool b => cases b <;> rfl
  | num n =>
    obtain ⟨hne, hall⟩ := hnumber n
    rw [charsWith]
    cases hn : number n with
    | nil => exact absurd hn hne
    | cons c cs =>
      have hc := hall c (by rw [hn]; exact List.mem_cons_self ..)
      simp [opening, hc]
  | str s => rfl
  | arr items => cases items <;> rfl
  | obj members =>
    cases members with
    | nil => rfl
    | cons m rest => rfl

/-- Neither a numeral nor a value goes on with what follows an item. -/
theorem endsNumeral_moreItems (items : List Json) (rest : List Char) :
    EndsNumeral (moreItems number items ++ rest) := by
  cases items <;> exact fun c hc => by cases hc; decide

/-- No numeral goes on with what follows a member. -/
theorem endsNumeral_moreMembers (members : List (String × Json)) (rest : List Char) :
    EndsNumeral (moreMembers number members ++ rest) := by
  cases members <;> exact fun c hc => by cases hc; decide

/-- Values with the same text begin with the same character, or both are numbers. -/
theorem opening_eq (hnumber : WritesNumerals number) {a b : Json} {r s : List Char}
    (h : charsWith number a ++ r = charsWith number b ++ s) : a.opening = b.opening := by
  rw [← head?_charsWith hnumber a r, ← head?_charsWith hnumber b s, h]

/-- What begins with no fixed character is a number. -/
theorem eq_num_of_opening {j : Json} (h : j.opening = none) : ∃ n, j = .num n := by
  cases j with
  | num n => exact ⟨n, rfl⟩
  | bool b => cases b <;> cases h
  | _ => cases h

/-- What begins with a quote is a text. -/
theorem eq_str_of_opening {j : Json} (h : j.opening = some '"') : ∃ s, j = .str s := by
  cases j with
  | str s => exact ⟨s, rfl⟩
  | bool b => cases b <;> cases h
  | _ => cases h

/-- What begins with a bracket is an array. -/
theorem eq_arr_of_opening {j : Json} (h : j.opening = some '[') : ∃ items, j = .arr items := by
  cases j with
  | arr items => exact ⟨items, rfl⟩
  | bool b => cases b <;> cases h
  | _ => cases h

/-- What begins with a brace is an object. -/
theorem eq_obj_of_opening {j : Json} (h : j.opening = some '{') : ∃ members, j = .obj members := by
  cases j with
  | obj members => exact ⟨members, rfl⟩
  | bool b => cases b <;> cases h
  | _ => cases h

/-- Null and the truth values are known from their first character. -/
theorem eq_of_opening {a b : Json} (ha : a = .null ∨ ∃ x, a = .bool x)
    (h : a.opening = b.opening) : a = b := by
  rcases ha with rfl | ⟨x, rfl⟩
  · cases b with
    | null => rfl
    | bool y => cases y <;> cases h
    | _ => cases h
  · cases b with
    | bool y => cases x <;> cases y <;> first | rfl | cases h
    | _ => cases x <;> cases h

/-- No value begins with a closing bracket. -/
theorem charsWith_ne_close (hnumber : WritesNumerals number) (j : Json) (r s : List Char) :
    charsWith number j ++ r ≠ ']' :: s := by
  intro h
  have hopening := head?_charsWith hnumber j r
  rw [h] at hopening
  cases j with
  | bool b => cases b <;> cases hopening
  | _ => cases hopening

mutual

/-- The text of a value can be read in one way only, whatever follows it. -/
theorem charsWith_append_inj (hnumber : WritesNumerals number) : ∀ {a b : Json} {r s : List Char},
    Distinguishes number a.numbers b.numbers → EndsNumeral r → EndsNumeral s →
    charsWith number a ++ r = charsWith number b ++ s → a = b ∧ r = s
  | .null, b, r, s, _, _, _, h => by
    obtain rfl := eq_of_opening (.inl rfl) (opening_eq hnumber h)
    exact ⟨rfl, List.append_cancel_left h⟩
  | .bool x, b, r, s, _, _, _, h => by
    obtain rfl := eq_of_opening (.inr ⟨x, rfl⟩) (opening_eq hnumber h)
    exact ⟨rfl, List.append_cancel_left h⟩
  | .num m, b, r, s, hdist, hr, hs, h => by
    obtain ⟨n, rfl⟩ := eq_num_of_opening (opening_eq hnumber h).symm
    have ⟨hmn, hrs⟩ := numeral_append_inj (hnumber m).2 (hnumber n).2 hr hs h
    have hmn := hdist m (List.mem_singleton_self m) n (List.mem_singleton_self n) hmn
    exact ⟨congrArg Json.num hmn, hrs⟩
  | .str k, b, r, s, _, _, _, h => by
    obtain ⟨l, rfl⟩ := eq_str_of_opening (opening_eq hnumber h).symm
    have ⟨hkl, hrs⟩ := quoted_append_inj h
    exact ⟨congrArg Json.str hkl, hrs⟩
  | .arr [], b, r, s, _, _, _, h => by
    obtain ⟨items, rfl⟩ := eq_arr_of_opening (opening_eq hnumber h).symm
    cases items with
    | nil => exact ⟨rfl, List.append_cancel_left h⟩
    | cons item rest =>
      simp only [charsWith, List.cons_append, List.nil_append, List.cons.injEq, true_and,
        List.append_assoc] at h
      exact absurd h.symm (charsWith_ne_close hnumber _ _ _)
  | .arr (item :: rest), b, r, s, hdist, _, _, h => by
    obtain ⟨items, rfl⟩ := eq_arr_of_opening (opening_eq hnumber h).symm
    cases items with
    | nil =>
      simp only [charsWith, List.cons_append, List.nil_append, List.cons.injEq, true_and,
        List.append_assoc] at h
      exact absurd h (charsWith_ne_close hnumber _ _ _)
    | cons item' rest' =>
      simp only [charsWith, List.cons_append, List.cons.injEq, true_and, List.append_assoc] at h
      have ⟨hitem, hmore⟩ := charsWith_append_inj hnumber hdist.left
        (endsNumeral_moreItems _ _) (endsNumeral_moreItems _ _) h
      have ⟨hrest, hrs⟩ := moreItems_append_inj hnumber hdist.right hmore
      exact ⟨by rw [hitem, hrest], hrs⟩
  | .obj [], b, r, s, _, _, _, h => by
    obtain ⟨members, rfl⟩ := eq_obj_of_opening (opening_eq hnumber h).symm
    cases members with
    | nil => exact ⟨rfl, List.append_cancel_left h⟩
    | cons m rest => cases h
  | .obj ((key, value) :: rest), b, r, s, hdist, _, _, h => by
    obtain ⟨members, rfl⟩ := eq_obj_of_opening (opening_eq hnumber h).symm
    cases members with
    | nil => cases h
    | cons m rest' =>
      obtain ⟨key', value'⟩ := m
      simp only [charsWith, List.cons_append, List.cons.injEq, true_and, List.append_assoc] at h
      have ⟨hkey, hvalue⟩ := quoted_append_inj h
      have ⟨hvalue, hmore⟩ := charsWith_append_inj hnumber hdist.left
        (endsNumeral_moreMembers _ _) (endsNumeral_moreMembers _ _) (List.cons.inj hvalue).2
      have ⟨hrest, hrs⟩ := moreMembers_append_inj hnumber hdist.right hmore
      exact ⟨by rw [hkey, hvalue, hrest], hrs⟩

/-- The items after the first one can be read in one way only, whatever follows them. -/
theorem moreItems_append_inj (hnumber : WritesNumerals number) : ∀ {as bs : List Json}
    {r s : List Char}, Distinguishes number (numbersOfItems as) (numbersOfItems bs) →
    moreItems number as ++ r = moreItems number bs ++ s → as = bs ∧ r = s
  | [], [], r, s, _, h => ⟨rfl, List.append_cancel_left h⟩
  | [], _ :: _, r, s, _, h => by cases h
  | _ :: _, [], r, s, _, h => by cases h
  | a :: as, b :: bs, r, s, hdist, h => by
    simp only [moreItems, List.cons_append, List.cons.injEq, true_and, List.append_assoc] at h
    have ⟨hitem, hmore⟩ := charsWith_append_inj hnumber hdist.left
      (endsNumeral_moreItems _ _) (endsNumeral_moreItems _ _) h
    have ⟨hrest, hrs⟩ := moreItems_append_inj hnumber hdist.right hmore
    exact ⟨by rw [hitem, hrest], hrs⟩

/-- The members after the first one can be read in one way only, whatever follows them. -/
theorem moreMembers_append_inj (hnumber : WritesNumerals number) : ∀ {as bs : List (String × Json)}
    {r s : List Char}, Distinguishes number (numbersOfMembers as) (numbersOfMembers bs) →
    moreMembers number as ++ r = moreMembers number bs ++ s → as = bs ∧ r = s
  | [], [], r, s, _, h => ⟨rfl, List.append_cancel_left h⟩
  | [], _ :: _, r, s, _, h => by cases h
  | _ :: _, [], r, s, _, h => by cases h
  | (key, value) :: as, (key', value') :: bs, r, s, hdist, h => by
    simp only [moreMembers, List.cons_append, List.cons.injEq, true_and, List.append_assoc] at h
    have ⟨hkey, hvalue⟩ := quoted_append_inj h
    have ⟨hvalue, hmore⟩ := charsWith_append_inj hnumber hdist.left
      (endsNumeral_moreMembers _ _) (endsNumeral_moreMembers _ _) (List.cons.inj hvalue).2
    have ⟨hrest, hrs⟩ := moreMembers_append_inj hnumber hdist.right hmore
    exact ⟨by rw [hkey, hvalue, hrest], hrs⟩

end

/-- Values with the same canonical text have the same normal form. -/
theorem normal_eq_of_canonicalWith_eq (hnumber : WritesNumerals number) {a b : Json}
    (hdist : Distinguishes number a.normal.numbers b.normal.numbers)
    (h : a.canonicalWith number = b.canonicalWith number) : a.normal = b.normal := by
  have hends : EndsNumeral [] := fun c hc => by cases hc
  refine (charsWith_append_inj hnumber hdist hends hends ?_).1
  rw [List.append_nil, List.append_nil]
  exact String.ofList_inj.1 h

end

end Json
end RoutePlan
