import SqlFilter.Json.Reader
import SqlFilter.Json.Writer
import Mathlib.Data.List.TakeWhile
import Mathlib.Tactic

/-!
Numbers and strings of JSON texts. A number is read up to what cannot go on with it, and integers
and strings are read as what was written.
-/
namespace SqlFilter.Json

variable {cs left rest ds : List Char}

def EndsNumber (rest : List Char) : Prop :=
  ∀ c ∈ rest.head?, c.isDigit = false ∧ c ≠ '.' ∧ c ≠ 'e' ∧ c ≠ 'E'

theorem takeWhile_isDigit_append (h : EndsNumber rest) (cs : List Char) :
    (cs ++ rest).takeWhile Char.isDigit = cs.takeWhile Char.isDigit := by
  induction cs with
  | nil =>
    cases rest with
    | nil => rfl
    | cons c rest => simp [(h c rfl).1]
  | cons c cs ih => simp only [List.cons_append, List.takeWhile_cons, ih]

theorem dropWhile_isDigit_append (h : EndsNumber rest) (cs : List Char) :
    (cs ++ rest).dropWhile Char.isDigit = cs.dropWhile Char.isDigit ++ rest := by
  induction cs with
  | nil =>
    cases rest with
    | nil => rfl
    | cons c rest => simp [(h c rfl).1]
  | cons c cs ih =>
    simp only [List.cons_append, List.dropWhile_cons, ih]
    split <;> rfl

theorem takeDigits_append (h : EndsNumber rest) (hcs : takeDigits cs = some (ds, left)) :
    takeDigits (cs ++ rest) = some (ds, left ++ rest) := by
  simp only [takeDigits] at hcs ⊢
  rw [takeWhile_isDigit_append h, dropWhile_isDigit_append h]
  split at hcs
  · cases hcs
  · next hne =>
    cases hcs
    rw [if_neg hne]

theorem takeWhole_append (h : EndsNumber rest) (hcs : takeWhole cs = some (ds, left)) :
    takeWhole (cs ++ rest) = some (ds, left ++ rest) := by
  unfold takeWhole at hcs
  split at hcs
  · next cs =>
    have hhead : ((cs ++ rest).head?.map Char.isDigit).getD false =
        (cs.head?.map Char.isDigit).getD false := by
      cases cs with
      | nil =>
        cases rest with
        | nil => rfl
        | cons c rest => simp [(h c rfl).1]
      | cons c cs => rfl
    split at hcs
    · cases hcs
    · next hdigit =>
      cases hcs
      rw [List.cons_append, takeWhole, hhead, if_neg hdigit]
  · next hzero =>
    have hdigits := takeDigits_append h hcs
    unfold takeWhole
    split
    · next cs' heq =>
      cases cs with
      | nil => simp [takeDigits] at hcs
      | cons c cs =>
        obtain ⟨rfl, -⟩ := List.cons.inj heq
        exact absurd rfl (hzero cs)
    · exact hdigits

theorem takeMinus_append (hcs : cs ≠ []) :
    takeMinus (cs ++ rest) = ((takeMinus cs).1, (takeMinus cs).2 ++ rest) := by
  cases cs with
  | nil => exact absurd rfl hcs
  | cons c cs =>
    unfold takeMinus
    split <;> simp_all

theorem takePlaces_append (h : EndsNumber rest) {places : Option (List Char)}
    (hcs : takePlaces cs = some (places, left)) :
    takePlaces (cs ++ rest) = some (places, left ++ rest) := by
  unfold takePlaces at hcs
  split at hcs
  · obtain ⟨⟨ds, left'⟩, hdigits, heq⟩ := Option.map_eq_some_iff.1 hcs
    cases heq
    rw [List.cons_append, takePlaces, takeDigits_append h hdigits]
    rfl
  · next hpoint =>
    cases hcs
    unfold takePlaces
    split
    · next ds heq =>
      cases cs with
      | nil =>
        rw [List.nil_append] at heq
        exact absurd rfl (h '.' (by simp [heq])).2.1
      | cons c cs =>
        obtain ⟨rfl, -⟩ := List.cons.inj heq
        exact absurd rfl (hpoint cs)
    · rfl

theorem takeSign_append (hcs : cs ≠ []) :
    Decimal.takeSign (cs ++ rest) = ((Decimal.takeSign cs).1, (Decimal.takeSign cs).2 ++ rest) := by
  cases cs with
  | nil => exact absurd rfl hcs
  | cons c cs =>
    unfold Decimal.takeSign
    split <;> simp_all

theorem takeExponent_append (h : EndsNumber rest) {exponent : Option Int}
    (hcs : takeExponent cs = some (exponent, left)) :
    takeExponent (cs ++ rest) = some (exponent, left ++ rest) := by
  cases cs with
  | nil =>
    cases hcs
    cases rest with
    | nil => rfl
    | cons c rest => simp [takeExponent, (h c rfl).2.2.1, (h c rfl).2.2.2]
  | cons c cs =>
    simp only [takeExponent, List.cons_append] at hcs ⊢
    split at hcs
    · next hc =>
      obtain ⟨⟨ds, left'⟩, hdigits, heq⟩ := Option.bind_eq_some_iff.1 hcs
      cases heq
      have hne : cs ≠ [] := by
        rintro rfl
        cases hdigits
      rw [if_pos hc, takeSign_append hne]
      exact Option.bind_eq_some_iff.2 ⟨_, takeDigits_append h hdigits, rfl⟩
    · next hc =>
      cases hcs
      rw [if_neg hc]
      rfl

/-- A number ends where its text does. -/
theorem takeNumber_append (h : EndsNumber rest) {d : Data} (hcs : takeNumber cs = some (d, left)) :
    takeNumber (cs ++ rest) = some (d, left ++ rest) := by
  obtain ⟨⟨whole, cs₁⟩, hwhole, hcs⟩ := Option.bind_eq_some_iff.1 hcs
  obtain ⟨⟨places, cs₂⟩, hplaces, hcs⟩ := Option.bind_eq_some_iff.1 hcs
  obtain ⟨⟨exponent, cs₃⟩, hexponent, hcs⟩ := Option.bind_eq_some_iff.1 hcs
  cases hcs
  have hne : cs ≠ [] := by
    rintro rfl
    cases hwhole
  rw [takeNumber, takeMinus_append hne]
  refine Option.bind_eq_some_iff.2 ⟨_, takeWhole_append h hwhole, ?_⟩
  refine Option.bind_eq_some_iff.2 ⟨_, takePlaces_append h hplaces, ?_⟩
  exact Option.bind_eq_some_iff.2 ⟨_, takeExponent_append h hexponent, rfl⟩

theorem head?_toDigits_ne_zero {n : Nat} (h : 0 < n) : (Nat.toDigits 10 n).head? ≠ some '0' := by
  induction n using Nat.strongRecOn with
  | ind n ih =>
    rw [Nat.toDigits_eq_if (by omega)]
    split
    · next hlt =>
      have hdigit : ∀ m : Fin 10, 0 < m.val → m.val.digitChar ≠ '0' := by decide
      simpa using hdigit ⟨n, hlt⟩ h
    · rw [List.head?_append_of_ne_nil _ Nat.toDigits_ne_nil]
      exact ih (n / 10) (by omega) (by omega)

theorem takeDigits_toDigits (n : Nat) :
    takeDigits (Nat.toDigits 10 n) = some (Nat.toDigits 10 n, []) := by
  have hdigits : ∀ c ∈ Nat.toDigits 10 n, c.isDigit := fun c hc =>
    Nat.isDigit_of_mem_toDigits (by omega) (by omega) hc
  rw [takeDigits, List.takeWhile_eq_self_iff.2 hdigits, List.dropWhile_eq_nil_iff.2 hdigits]
  simp [Nat.toDigits_ne_nil]

theorem takeWhole_toDigits (n : Nat) :
    takeWhole (Nat.toDigits 10 n) = some (Nat.toDigits 10 n, []) := by
  rcases Nat.eq_zero_or_pos n with rfl | hpos
  · rfl
  · unfold takeWhole
    split
    · next cs hcs => exact absurd (by rw [hcs]; rfl) (head?_toDigits_ne_zero hpos)
    · exact takeDigits_toDigits n

theorem takeMinus_toDigits (n : Nat) :
    takeMinus (Nat.toDigits 10 n) = (false, Nat.toDigits 10 n) := by
  unfold takeMinus
  split
  · next cs hcs =>
    have hmem : '-' ∈ Nat.toDigits 10 n := by simp [hcs]
    exact absurd (Nat.isDigit_of_mem_toDigits (by omega) (by omega) hmem) (by decide)
  · rfl

/-- An integer of 64 bits, with or without a sign, reads back. -/
theorem takeNumber_toString {n : Int} (hleast : -greatestBelowZero ≤ n)
    (hgreatest : n ≤ greatestSignificand) :
    takeNumber (toString n).toList = some (.integer n, []) := by
  have hvalue (m : Nat) : Text.digitsValue (Nat.toDigits 10 m) = m := by
    rw [Text.digitsValue_eq_ofDigitChars, Nat.ofDigitChars_ten_toDigits]
  cases n with
  | ofNat m =>
    have hchars : (toString (Int.ofNat m)).toList = Nat.toDigits 10 m := Nat.toList_repr
    have hle : m ≤ greatestSignificand := Int.ofNat_le.1 hgreatest
    rw [takeNumber, hchars, takeMinus_toDigits]
    simp only [takeWhole_toDigits, Option.bind_eq_bind, Option.bind_some, takePlaces, takeExponent,
      Numeral.data, hvalue]
    simp [hle]
  | negSucc m =>
    have hchars : (toString (Int.negSucc m)).toList = '-' :: Nat.toDigits 10 (m + 1) := by
      simp [toString, Int.repr]
    rw [takeNumber, hchars, takeMinus]
    simp only [takeWhole_toDigits, Option.bind_eq_bind, Option.bind_some, takePlaces, takeExponent,
      Numeral.data, hvalue]
    have hle : m + 1 ≤ greatestBelowZero := by omega
    simp [hle]
    omega

theorem takeString_escaped (c : Char) (cs : List Char) :
    takeString none (escaped c ++ cs) = (takeString none cs).map (prepend (some c)) := by
  unfold escaped
  split
  iterate 7 rfl
  next h₁ h₂ h₃ h₄ h₅ h₆ h₇ =>
  split
  · next h =>
    have hhex : Text.hex4? '0' '0' (Text.hexChar (c.toNat / 16)) (Text.hexChar (c.toNat % 16)) =
        some c.toNat := by
      have hzero : Text.hexDigit? '0' = some 0 := rfl
      simp only [Text.hex4?, hzero, Text.hexDigit?_hexChar (by omega : c.toNat / 16 < 16),
        Text.hexDigit?_hexChar (by omega : c.toNat % 16 < 16), Option.bind_eq_bind,
        Option.bind_some]
      simp
      omega
    have hhigh : isHighHalf c.toNat = false := by simp [isHighHalf]; omega
    have hlow : isLowHalf c.toNat = false := by simp [isLowHalf]; omega
    simp only [List.cons_append, List.nil_append, takeString, hhex, Option.bind_eq_bind,
      Option.bind_some, hhigh, unitChar?, hlow, Bool.or_self, Bool.false_eq_true, if_false,
      Char.ofNat_toNat]
  · next h =>
    rw [List.singleton_append, takeString.eq_def]
    split <;> simp_all [unlessPending]

theorem takeString_flatMap_escaped (cs rest : List Char) :
    takeString none (cs.flatMap escaped ++ '"' :: rest) = some (some cs, rest) := by
  induction cs with
  | nil => rfl
  | cons c cs ih =>
    rw [List.flatMap_cons, List.append_assoc, takeString_escaped, ih]
    rfl

end SqlFilter.Json
