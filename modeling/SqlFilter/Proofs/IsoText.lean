import SqlFilter.DateTime.Reading
import Mathlib.Data.List.TakeWhile
import Mathlib.Tactic

/-!
The ISO form of a point of time reads back as it, for all years that a date can have and all
fractions of a second, exactly if a leap second ends its minute.
-/
namespace SqlFilter

namespace Text

theorem digitsValue_append_zeros (cs : List Char) (n : Nat) :
    digitsValue (cs ++ List.replicate n '0') = 10 ^ n * digitsValue cs := by
  rw [digitsValue_eq_ofDigitChars, Nat.ofDigitChars_append, Nat.ofDigitChars_replicate_zero,
    digitsValue_eq_ofDigitChars]

theorem digitsValue_lt {cs : List Char} (h : ∀ c ∈ cs, c.isDigit) :
    digitsValue cs < 10 ^ cs.length := by
  induction cs using List.reverseRecOn with
  | nil => decide
  | append_singleton cs c ih =>
    obtain ⟨hcs, hc⟩ := List.forall_mem_append.1 h
    have hdigit : digitValue c < 10 := by
      have hc := toNat_of_isDigit (hc c List.mem_cons_self)
      rw [digitValue]
      simp only [Char.reduceToNat]
      omega
    have hcs := ih hcs
    rw [digitsValue_concat, List.length_append, List.length_singleton, Nat.pow_succ]
    omega

end Text

variable {width n : Nat}

theorem digitsValue_zeroPadded (width n : Nat) : Text.digitsValue (zeroPadded width n) = n := by
  rw [Text.digitsValue_eq_ofDigitChars, zeroPadded, Nat.ofDigitChars_append,
    Nat.ofDigitChars_replicate_zero, Nat.mul_zero, Nat.ofDigitChars_ten_toDigits]

theorem isDigit_of_mem_zeroPadded {c : Char} (h : c ∈ zeroPadded width n) : c.isDigit := by
  rcases List.mem_append.1 h with h | h
  · rw [List.eq_of_mem_replicate h]
    decide
  · exact Nat.isDigit_of_mem_toDigits (by omega) (by omega) h

theorem zeroPadded_ne_nil (width n : Nat) : zeroPadded width n ≠ [] := by
  intro h
  exact Nat.toDigits_ne_nil (List.append_eq_nil_iff.1 h).2

theorem length_zeroPadded (hwidth : 0 < width) (h : n < 10 ^ width) :
    (zeroPadded width n).length = width := by
  have hdigits := (Nat.length_toDigits_le_iff (b := 10) (by omega) hwidth).2 h
  rw [zeroPadded, List.length_append, List.length_replicate]
  omega

theorem dropWhile_isBlank_zeroPadded (width n : Nat) (rest : List Char) :
    (zeroPadded width n ++ rest).dropWhile Text.isBlank = zeroPadded width n ++ rest := by
  cases hcs : zeroPadded width n with
  | nil => exact (zeroPadded_ne_nil width n hcs).elim
  | cons c cs =>
    have hc : c.isDigit := isDigit_of_mem_zeroPadded (hcs ▸ List.mem_cons_self)
    simp [Text.isBlank_of_isDigit hc]

namespace Time

variable {hour minute second nano : Nat} {t : Time}

theorem of?_eq_some_iff : of? hour minute second nano = some t ↔
    hour = t.hour ∧ minute = t.minute ∧ second = t.second ∧ nano = t.nano := by
  constructor
  · intro h
    unfold of? at h
    split at h
    · cases h
      exact ⟨rfl, rfl, rfl, rfl⟩
    · cases h
  · rintro ⟨rfl, rfl, rfl, rfl⟩
    exact of?_fields t

theorem shownSecond_le (t : Time) : t.shownSecond ≤ 60 := by
  have h := t.valid
  simp only [isTime, Bool.and_eq_true, decide_eq_true_eq] at h
  simp only [shownSecond]
  omega

/-- A clock is read as the regular time that it shows. -/
theorem ofClock?_eq_some_iff : ofClock? hour minute second nano = some t ↔
    t.isRegular ∧ hour = t.hour ∧ minute = t.minute ∧ second = t.shownSecond ∧
      nano = t.shownNano := by
  have h := t.valid
  simp only [isTime, Bool.and_eq_true, decide_eq_true_eq] at h
  simp only [isRegular, shownSecond, shownNano, Bool.or_eq_true, decide_eq_true_eq, beq_iff_eq]
  unfold ofClock?
  split
  · simp only [reduceCtorEq, false_iff]
    omega
  split
  · rw [of?_eq_some_iff]
    omega
  · rw [of?_eq_some_iff]
    omega

theorem ofClock?_shown (h : t.isRegular) :
    ofClock? t.hour t.minute t.shownSecond t.shownNano = some t :=
  ofClock?_eq_some_iff.2 ⟨h, rfl, rfl, rfl, rfl⟩

end Time

namespace DateTime

theorem takeWhile_isDigit_zeroPadded (width n : Nat) :
    (zeroPadded width n).takeWhile Char.isDigit = zeroPadded width n :=
  List.takeWhile_eq_self_iff.2 fun _ => isDigit_of_mem_zeroPadded

theorem isEmpty_zeroPadded (width n : Nat) : (zeroPadded width n).isEmpty = false :=
  List.isEmpty_eq_false_iff.2 (zeroPadded_ne_nil width n)

theorem takeNumber_zeroPadded (hwidth : 0 < width) (h : n < 10 ^ width) (rest : List Char) :
    takeNumber width (zeroPadded width n ++ rest) = some (n, rest) := by
  have htake : (zeroPadded width n ++ rest).take width = zeroPadded width n :=
    List.take_left' (length_zeroPadded hwidth h)
  simp only [takeNumber, dropWhile_isBlank_zeroPadded, htake, takeWhile_isDigit_zeroPadded,
    isEmpty_zeroPadded, digitsValue_zeroPadded, List.drop_left, Bool.false_eq_true, if_false]

theorem takeLongNumber_zeroPadded (h : n ≤ greatestNumber) (width : Nat) (rest : List Char) :
    takeLongNumber (zeroPadded width n ++ '-' :: rest) = some (n, '-' :: rest) := by
  have hdigits : (zeroPadded width n ++ '-' :: rest).takeWhile Char.isDigit =
      zeroPadded width n := by
    rw [List.takeWhile_append_of_pos fun _ => isDigit_of_mem_zeroPadded]
    simp
  simp only [takeLongNumber, hdigits, isEmpty_zeroPadded, digitsValue_zeroPadded, List.drop_left,
    Bool.false_or, decide_eq_true_eq, if_neg (Nat.not_lt.2 h)]

theorem takeMark_cons (mark : Char) (h : Text.isBlank mark = false) (rest : List Char) :
    takeMark mark (mark :: rest) = some rest := by
  simp [takeMark, h]

theorem takeYear_of_isDigit {c : Char} (hc : c.isDigit) (cs : List Char) :
    takeYear (c :: cs) = (takeNumber 4 (c :: cs)).map fun r => ((r.1 : Int), r.2) := by
  have hdrop : (c :: cs).dropWhile Text.isBlank = c :: cs := by
    simp [Text.isBlank_of_isDigit hc]
  rw [takeYear, hdrop]
  split
  · next h => exact absurd hc (by rw [(List.cons.inj h).1]; decide)
  · next h => exact absurd hc (by rw [(List.cons.inj h).1]; decide)
  · rfl

theorem takeYear_yearChars {year : Int} (hleast : Date.leastYear ≤ year)
    (hgreatest : year ≤ Date.greatestYear) (rest : List Char) :
    takeYear (Date.yearChars year ++ '-' :: rest) = some (year, '-' :: rest) := by
  have hlong : year.natAbs ≤ greatestNumber := by
    simp only [Date.leastYear, Date.greatestYear, greatestNumber] at *
    omega
  unfold Date.yearChars
  split
  · next hshort =>
    have hnumber := takeNumber_zeroPadded (by omega : 0 < 4) (n := year.natAbs) (by omega)
      ('-' :: rest)
    cases hcs : zeroPadded 4 year.natAbs with
    | nil => exact (zeroPadded_ne_nil _ _ hcs).elim
    | cons c cs =>
      have hc : c.isDigit := isDigit_of_mem_zeroPadded (hcs ▸ List.mem_cons_self)
      rw [hcs] at hnumber
      rw [List.cons_append, takeYear_of_isDigit hc, ← List.cons_append, hnumber, Option.map_some,
        Int.natAbs_of_nonneg hshort.1]
  · have hnumber := takeLongNumber_zeroPadded hlong 4 rest
    split
    · next hneg =>
      have hdrop : ('-' :: zeroPadded 4 year.natAbs ++ '-' :: rest).dropWhile Text.isBlank =
          '-' :: (zeroPadded 4 year.natAbs ++ '-' :: rest) := rfl
      simp only [takeYear, hdrop, hnumber, Option.map_some,
        Int.ofNat_natAbs_of_nonpos (Int.le_of_lt hneg), Int.neg_neg]
    · next hpos =>
      have hdrop : ('+' :: zeroPadded 4 year.natAbs ++ '-' :: rest).dropWhile Text.isBlank =
          '+' :: (zeroPadded 4 year.natAbs ++ '-' :: rest) := rfl
      simp only [takeYear, hdrop, hnumber, Option.map_some,
        Int.natAbs_of_nonneg (Int.not_lt.1 hpos)]

/-- Digits of a fraction are followed by zeros up to nine. -/
theorem nanoOfDigits_zeroPadded (hwidth : 0 < width) (hle : width ≤ 9) (h : n < 10 ^ width) :
    nanoOfDigits (zeroPadded width n) = 10 ^ (9 - width) * n := by
  have hlength := length_zeroPadded hwidth h
  rw [nanoOfDigits, List.take_append, hlength, List.take_of_length_le (by omega),
    List.take_replicate, Nat.min_eq_left (by omega), Text.digitsValue_append_zeros,
    digitsValue_zeroPadded]

theorem takeFraction_zeroPadded (hwidth : 0 < width) (hle : width ≤ 9) (h : n < 10 ^ width) :
    takeFraction ('.' :: zeroPadded width n) = some (10 ^ (9 - width) * n, []) := by
  simp only [takeFraction, takeWhile_isDigit_zeroPadded, isEmpty_zeroPadded,
    nanoOfDigits_zeroPadded hwidth hle h, List.drop_length, Bool.false_eq_true, if_false]

theorem takeFraction_fractionChars (t : Time) :
    takeFraction t.fractionChars = some (t.shownNano, []) := by
  have hnano : t.shownNano < 1000000000 := Nat.mod_lt _ (by omega)
  unfold Time.fractionChars
  split
  · next h => rw [h]; rfl
  split
  · rw [takeFraction_zeroPadded (by omega) (by omega) (by omega)]
    simp
    omega
  split
  · rw [takeFraction_zeroPadded (by omega) (by omega) (by omega)]
    simp
    omega
  · rw [takeFraction_zeroPadded (by omega) (by omega) (by omega)]
    simp

theorem daysInMonth_le (year : Int) (month : Nat) : daysInMonth year month ≤ 31 := by
  unfold daysInMonth
  split
  · split <;> omega
  all_goals omega

/-- The ISO form is read as the day and the time that the clock shows. -/
theorem ofIsoText?_isoText_eq_map (t : DateTime) :
    ofIsoText? t.isoText =
      (Time.ofClock? t.time.hour t.time.minute t.time.shownSecond t.time.shownNano).map
        (mk t.date) := by
  obtain ⟨date, time⟩ := t
  have hdate := date.valid
  have htime := time.valid
  have hsecond := time.shownSecond_le
  simp only [Date.isDay, Time.isTime, Bool.and_eq_true, decide_eq_true_eq] at hdate htime
  obtain ⟨⟨⟨hleast, hgreatest⟩, hmonth⟩, hday⟩ := hdate
  have hdays := daysInMonth_le date.year date.month
  -- All numbers after the year have two digits.
  have hnumber (n : Nat) (hn : n < 100) := takeNumber_zeroPadded (by omega : 0 < 2) hn
  have hdash := takeMark_cons '-' (by decide)
  have hcolon := takeMark_cons ':' (by decide)
  have hT := takeMark_cons 'T' (by decide)
  have htext : (isoText ⟨date, time⟩).toList = Date.yearChars date.year ++ '-' ::
      (zeroPadded 2 date.month ++ '-' :: (zeroPadded 2 date.day ++ 'T' ::
        (zeroPadded 2 time.hour ++ ':' :: (zeroPadded 2 time.minute ++ ':' ::
          (zeroPadded 2 time.shownSecond ++ time.fractionChars))))) := by
    simp [isoText, Date.chars, Time.chars, clockChars]
  have step {α β : Type} {x : Option α} {a : α} (hx : x = some a) (f : α → Option β) :
      x.bind f = f a := by rw [hx, Option.bind_some]
  rw [ofIsoText?, htext]
  refine (step (takeYear_yearChars hleast hgreatest _) _).trans ?_
  refine (step (hdash _) _).trans ?_
  refine (step (hnumber date.month (by omega) _) _).trans ?_
  refine (step (hdash _) _).trans ?_
  refine (step (hnumber date.day (by omega) _) _).trans ?_
  refine (step (hT _) _).trans ?_
  refine (step (hnumber time.hour (by omega) _) _).trans ?_
  refine (step (hcolon _) _).trans ?_
  refine (step (hnumber time.minute (by omega) _) _).trans ?_
  refine (step (hcolon _) _).trans ?_
  refine (step (hnumber time.shownSecond (by omega) _) _).trans ?_
  refine (step (takeFraction_fractionChars time) _).trans ?_
  refine (step (Date.of?_fields date) _).trans ?_
  exact Option.map_eq_bind.symm

theorem ofIsoText?_isoText {t : DateTime} (h : t.time.isRegular) :
    ofIsoText? t.isoText = some t := by
  rw [ofIsoText?_isoText_eq_map, Time.ofClock?_shown h]
  rfl

/-- What is read can be written. -/
theorem isRegular_of_ofIsoText? {s : String} {t : DateTime} (h : ofIsoText? s = some t) :
    t.time.isRegular := by
  obtain ⟨_, -, h⟩ := Option.bind_eq_some_iff.1 h
  iterate 10 obtain ⟨_, -, h⟩ := Option.bind_eq_some_iff.1 h
  obtain ⟨⟨_, cs⟩, -, h⟩ := Option.bind_eq_some_iff.1 h
  change (if cs.all Text.isBlank then _ else none) = some t at h
  split at h
  · obtain ⟨date, -, h⟩ := Option.bind_eq_some_iff.1 h
    obtain ⟨time, htime, h⟩ := Option.bind_eq_some_iff.1 h
    cases h
    exact (Time.ofClock?_eq_some_iff.1 htime).1
  · cases h

end DateTime

end SqlFilter
