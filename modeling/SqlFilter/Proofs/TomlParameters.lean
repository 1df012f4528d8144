import SqlFilter.Definition.Basic
import SqlFilter.Proofs.IsoText
import SqlFilter.Proofs.Lists

/-!
Values of TOML texts as values of parameters. A value is refused with the first fault among its
parts, and where there is none its arrays become lists, item by item. A date-time goes through its
text, which is read to the second, so a fraction is a fault just as an offset is.
-/
namespace SqlFilter

namespace DateTime
open Toml (takeChar)

/-- A number of two digits at most, and the mark behind it. -/
def takeNumberTo (mark : Char) (cs : List Char) : Option (Nat × List Char) := do
  let (n, cs) ← takeNumber 2 cs
  some (n, ← takeChar mark cs)

def takeDate (cs : List Char) : Option (Date × List Char) := do
  let (year, cs) ← takeYear cs
  let (month, cs) ← takeNumberTo '-' (← takeChar '-' cs)
  let (day, cs) ← takeNumber 2 cs
  some (← Date.of? year month day, cs)

def timeOfChars? (cs : List Char) : Option Time := do
  let (hour, cs) ← takeNumberTo ':' cs
  let (minute, cs) ← takeNumberTo ':' cs
  let (second, cs) ← takeNumber 2 cs
  if cs = [] then Time.ofClock? hour minute second 0 else none

/-- The point of time that a text denotes, with a mark between the date and the time. -/
def ofMarkedText? (mark : Char) (s : String) : Option DateTime := do
  let (date, cs) ← takeDate s.toList
  some ⟨date, ← timeOfChars? (← takeChar mark cs)⟩

example : ofMarkedText? ' ' "2024-01-02 03:04:60" =
    some ⟨⟨2024, 1, 2, rfl⟩, ⟨3, 4, 59, 1000000000, rfl⟩⟩ := by decide
example : ofMarkedText? 'T' "2024-01-02T03:04:05.5" = none := by decide

theorem takeChar_self (c : Char) (cs : List Char) : takeChar c (c :: cs) = some cs := by
  simp [takeChar]

theorem eq_cons_of_takeChar {c : Char} {cs rest : List Char} (h : takeChar c cs = some rest) :
    cs = c :: rest := by
  cases cs with
  | nil => cases h
  | cons d cs =>
    rw [takeChar] at h
    split at h
    · next heq => rw [heq, Option.some.inj h]
    · cases h

theorem suffix_of_takeNumber {width n : Nat} {cs rest : List Char}
    (h : takeNumber width cs = some (n, rest)) : rest <:+ cs := by
  simp only [takeNumber] at h
  split at h
  · cases h
  · obtain ⟨-, rfl⟩ := Prod.mk.inj (Option.some.inj h)
    exact (List.drop_suffix _ _).trans (List.dropWhile_suffix _)

theorem suffix_of_takeLongNumber {n : Nat} {cs rest : List Char}
    (h : takeLongNumber cs = some (n, rest)) : rest <:+ cs := by
  simp only [takeLongNumber] at h
  split at h
  · cases h
  · obtain ⟨-, rfl⟩ := Prod.mk.inj (Option.some.inj h)
    exact List.drop_suffix _ _

theorem suffix_of_takeYear {year : Int} {cs rest : List Char}
    (h : takeYear cs = some (year, rest)) : rest <:+ cs := by
  have hdrop := List.dropWhile_suffix (l := cs) Text.isBlank
  have hsign {c : Char} {ds : List Char} (hds : cs.dropWhile Text.isBlank = c :: ds) :
      ds <:+ cs := (List.suffix_cons c ds).trans (hds ▸ hdrop)
  unfold takeYear at h
  split at h
  · next ds hds =>
    obtain ⟨⟨n, rest'⟩, hnumber, heq⟩ := Option.map_eq_some_iff.1 h
    obtain ⟨-, rfl⟩ := Prod.mk.inj heq
    exact (suffix_of_takeLongNumber hnumber).trans (hsign hds)
  · next ds hds =>
    obtain ⟨⟨n, rest'⟩, hnumber, heq⟩ := Option.map_eq_some_iff.1 h
    obtain ⟨-, rfl⟩ := Prod.mk.inj heq
    exact (suffix_of_takeLongNumber hnumber).trans (hsign hds)
  · obtain ⟨⟨n, rest'⟩, hnumber, heq⟩ := Option.map_eq_some_iff.1 h
    obtain ⟨-, rfl⟩ := Prod.mk.inj heq
    exact (suffix_of_takeNumber hnumber).trans hdrop

theorem exists_of_takeNumberTo {mark : Char} {n : Nat} {cs rest : List Char}
    (h : takeNumberTo mark cs = some (n, rest)) : mark :: rest <:+ cs := by
  obtain ⟨⟨k, mid⟩, hnumber, h⟩ := Option.bind_eq_some_iff.1 h
  obtain ⟨rest', hmark, h⟩ := Option.bind_eq_some_iff.1 h
  obtain ⟨-, rfl⟩ := Prod.mk.inj (Option.some.inj h)
  exact eq_cons_of_takeChar hmark ▸ suffix_of_takeNumber hnumber

/-- There is no date where there are no two dashes. -/
theorem takeDate_eq_none {cs : List Char} (h : cs.count '-' < 2) : takeDate cs = none := by
  rw [Option.eq_none_iff_forall_ne_some]
  rintro ⟨date, rest⟩ hdate
  obtain ⟨⟨year, afterYear⟩, hyear, hdate⟩ := Option.bind_eq_some_iff.1 hdate
  obtain ⟨fromMonth, hdash, hdate⟩ := Option.bind_eq_some_iff.1 hdate
  obtain ⟨⟨month, fromDay⟩, hmonth, -⟩ := Option.bind_eq_some_iff.1 hdate
  have hyear := (suffix_of_takeYear hyear).sublist.count_le '-'
  have hmonth := (exists_of_takeNumberTo hmonth).sublist.count_le '-'
  rw [eq_cons_of_takeChar hdash, List.count_cons_self] at hyear
  rw [List.count_cons_self] at hmonth
  omega

/-- More than two digits leave one of them behind. -/
theorem exists_takeNumber_zeroPadded {n : Nat} (h : 100 ≤ n) (rest : List Char) :
    ∃ k c cs, takeNumber 2 (zeroPadded 2 n ++ rest) = some (k, c :: cs) ∧ c.isDigit := by
  have hlength : ¬ (Nat.toDigits 10 n).length ≤ 2 := by
    rw [Nat.length_toDigits_le_iff (by omega) (by omega)]
    omega
  have hpadded : (zeroPadded 2 n).length = (Nat.toDigits 10 n).length := by
    rw [zeroPadded, List.length_append, List.length_replicate]
    omega
  obtain ⟨a, b, c, ds, hds⟩ : ∃ a b c ds, zeroPadded 2 n = a :: b :: c :: ds := by
    rcases hcs : zeroPadded 2 n with _ | ⟨a, _ | ⟨b, _ | ⟨c, ds⟩⟩⟩
    case cons.cons.cons => exact ⟨a, b, c, ds, rfl⟩
    all_goals
      rw [hcs] at hpadded
      simp at hpadded
      omega
  have hdigit : ∀ d ∈ zeroPadded 2 n, d.isDigit := fun d => isDigit_of_mem_zeroPadded
  rw [hds] at hdigit
  have ha : a.isDigit := hdigit a (by simp)
  have hb : b.isDigit := hdigit b (by simp)
  have hdrop := dropWhile_isBlank_zeroPadded 2 n rest
  simp only [hds, List.cons_append] at hdrop
  refine ⟨Text.digitsValue [a, b], c, ds ++ rest, ?_, hdigit c (by simp)⟩
  simp [takeNumber, hds, hdrop, ha, hb]

theorem takeChar_of_isDigit {mark c : Char} (hc : c.isDigit) (hmark : mark.isDigit = false)
    (cs : List Char) : takeChar mark (c :: cs) = none := by
  have hne : mark ≠ c := by
    rintro rfl
    rw [hc] at hmark
    cases hmark
  simp [takeChar, hne]

theorem takeNumberTo_zeroPadded {mark : Char} (hmark : mark.isDigit = false) (n : Nat)
    (rest : List Char) :
    takeNumberTo mark (zeroPadded 2 n ++ mark :: rest) =
      if n < 100 then some (n, rest) else none := by
  split
  · next h => simp [takeNumberTo, takeNumber_zeroPadded (by omega : 0 < 2) h, takeChar_self]
  · next h =>
    obtain ⟨k, c, cs, hnumber, hc⟩ := exists_takeNumber_zeroPadded (Nat.not_lt.1 h) (mark :: rest)
    simp [takeNumberTo, hnumber, takeChar_of_isDigit hc hmark]

theorem takeDate_chars (d : Date) (rest : List Char) :
    takeDate (d.chars ++ rest) = some (d, rest) := by
  have hvalid := d.valid
  simp only [Date.isDay, Bool.and_eq_true, decide_eq_true_eq] at hvalid
  obtain ⟨⟨⟨hleast, hgreatest⟩, hmonth⟩, hday⟩ := hvalid
  have hdays := daysInMonth_le d.year d.month
  have hdash : Char.isDigit '-' = false := by decide
  have hchars : d.chars ++ rest = Date.yearChars d.year ++ '-' ::
      (zeroPadded 2 d.month ++ '-' :: (zeroPadded 2 d.day ++ rest)) := by
    simp [Date.chars]
  rw [takeDate, hchars]
  refine Option.bind_eq_some_iff.2 ⟨_, takeYear_yearChars hleast hgreatest _, ?_⟩
  refine Option.bind_eq_some_iff.2 ⟨_, takeChar_self _ _, ?_⟩
  have hmonth := takeNumberTo_zeroPadded hdash d.month (zeroPadded 2 d.day ++ rest)
  rw [if_pos (by omega)] at hmonth
  refine Option.bind_eq_some_iff.2 ⟨_, hmonth, ?_⟩
  refine Option.bind_eq_some_iff.2 ⟨_, takeNumber_zeroPadded (by omega) (by omega) rest, ?_⟩
  simp [Date.of?_fields]

theorem nano_lt_of_takeFraction {nano : Nat} {cs rest : List Char}
    (h : takeFraction cs = some (nano, rest)) : nano < 1000000000 := by
  unfold takeFraction at h
  split at h
  · next cs =>
    simp only at h
    have hdigits : ∀ c ∈ (cs.takeWhile Char.isDigit ++ List.replicate 9 '0').take 9, c.isDigit := by
      intro c hc
      rcases List.mem_append.1 (List.mem_of_mem_take hc) with hc | hc
      · exact List.mem_takeWhile_imp hc
      · rw [List.eq_of_mem_replicate hc]
        decide
    have hlt := Text.digitsValue_lt hdigits
    have hlength : ((cs.takeWhile Char.isDigit ++ List.replicate 9 '0').take 9).length = 9 := by
      simp
    rw [hlength] at hlt
    split at h
    · cases h
    · obtain ⟨rfl, -⟩ := Prod.mk.inj (Option.some.inj h)
      exact hlt
  · obtain ⟨rfl, -⟩ := Prod.mk.inj (Option.some.inj h)
    decide

theorem isSome_timeOfClock?_iff {hour minute second nano : Nat} :
    (Time.ofClock? hour minute second nano).isSome ↔
      hour < 24 ∧ minute < 60 ∧ second ≤ 60 ∧ nano < 1000000000 := by
  have hof (second nano : Nat) : (Time.of? hour minute second nano).isSome ↔
      hour < 24 ∧ minute < 60 ∧ second < 60 ∧ nano < 2000000000 := by
    have htime :
        (Time.of? hour minute second nano).isSome ↔ Time.isTime hour minute second nano := by
      simp [Time.of?]
    rw [htime]
    simp [Time.isTime, and_assoc]
  unfold Time.ofClock?
  split
  · simp only [Option.isSome_none, Bool.false_eq_true, false_iff]
    omega
  split
  · rw [hof]
    omega
  · rw [hof]
    omega

theorem timeOfClock?_eq_none {hour minute second nano : Nat}
    (h : ¬ (hour < 100 ∧ minute < 100 ∧ second < 100)) :
    Time.ofClock? hour minute second nano = none := by
  rw [← Option.not_isSome_iff_eq_none, isSome_timeOfClock?_iff]
  omega

/-- A clock is read to the second, and there is no time if anything follows it. -/
theorem timeOfChars?_clockChars (hour minute second : Nat) (rest : List Char) :
    timeOfChars? (clockChars hour minute second ++ rest) =
      if rest = [] then Time.ofClock? hour minute second 0 else none := by
  have hchars : clockChars hour minute second ++ rest = zeroPadded 2 hour ++ ':' ::
      (zeroPadded 2 minute ++ ':' :: (zeroPadded 2 second ++ rest)) := by
    simp [clockChars]
  have hcolon : Char.isDigit ':' = false := by decide
  rw [timeOfChars?, hchars, takeNumberTo_zeroPadded hcolon]
  split
  case isFalse hhour => simp [timeOfClock?_eq_none fun h => hhour h.1]
  simp only [Option.bind_eq_bind, Option.bind_some, takeNumberTo_zeroPadded hcolon]
  split
  case isFalse hminute => simp [timeOfClock?_eq_none fun h => hminute h.2.1]
  by_cases hsecond : second < 100
  · simp [takeNumber_zeroPadded (by omega : 0 < 2) hsecond]
  · obtain ⟨k, c, cs, hnumber, -⟩ := exists_takeNumber_zeroPadded (Nat.not_lt.1 hsecond) rest
    simp [hnumber, timeOfClock?_eq_none fun h => hsecond h.2.2]

end DateTime

namespace Toml
open DateTime

theorem fractionChars_eq_nil_iff (nano : Nat) : fractionChars nano = [] ↔ nano = 0 := by
  constructor
  · intro h
    have hdrop : (zeroPadded 9 nano).reverse.dropWhile (· == '0') = [] := by
      by_contra hne
      simp [fractionChars, hne] at h
    have hzeros : zeroPadded 9 nano = List.replicate (zeroPadded 9 nano).length '0' :=
      List.eq_replicate_of_mem fun c hc => by
        simpa using List.dropWhile_eq_nil_iff.1 hdrop c (List.mem_reverse.2 hc)
    rw [← digitsValue_zeroPadded 9 nano, hzeros, ← List.nil_append (List.replicate _ _),
      Text.digitsValue_append_zeros]
    rfl
  · rintro rfl
    decide

theorem count_dash_zeroPadded (width n : Nat) : (zeroPadded width n).count '-' = 0 :=
  List.count_eq_zero.2 fun h => absurd (isDigit_of_mem_zeroPadded h) (by decide)

theorem count_dash_fractionChars (nano : Nat) : (fractionChars nano).count '-' = 0 := by
  have hdigits := count_dash_zeroPadded 9 nano
  rw [← List.count_reverse] at hdigits
  have hdrop := (List.dropWhile_sublist (· == '0') (l := (zeroPadded 9 nano).reverse)).count_le '-'
  simp only [fractionChars]
  split
  · rfl
  · rw [List.count_cons_of_ne (by decide), List.count_reverse]
    omega

theorem count_dash_clock (c : Clock) : c.chars.count '-' = 0 := by
  simp [Clock.chars, clockChars, count_dash_zeroPadded, count_dash_fractionChars]

/-- An offset begins with a sign or a letter, and has no other dash. -/
theorem Offset.exists_chars (o : Offset) :
    ∃ c cs, o.chars = c :: cs ∧ c ∈ ['Z', '+', '-'] ∧ cs.count '-' = 0 := by
  cases o with
  | zulu => exact ⟨'Z', [], rfl, by decide, rfl⟩
  | minutes n =>
    refine ⟨_, _, rfl, ?_, ?_⟩
    · split <;> decide
    · simp [count_dash_zeroPadded]

/-- What may stand behind a date with or without a time: nothing, or an offset. -/
def offsetChars (o : Option Offset) : List Char := (o.map Offset.chars).getD []

theorem offsetChars_eq_nil_iff (o : Option Offset) : offsetChars o = [] ↔ o = none := by
  cases o with
  | none => simp [offsetChars]
  | some o =>
    obtain ⟨c, cs, ho, -⟩ := o.exists_chars
    simp [offsetChars, ho]

theorem count_dash_offsetChars (o : Option Offset) : (offsetChars o).count '-' ≤ 1 := by
  cases o with
  | none => simp [offsetChars]
  | some o =>
    obtain ⟨c, cs, ho, -, hcount⟩ := o.exists_chars
    rw [offsetChars, Option.map_some, Option.getD_some, ho, List.count_cons, hcount]
    split <;> omega

/-- No offset begins like a time behind a date. -/
theorem takeChar_offsetChars {mark : Char} (hmark : mark ∉ ['Z', '+', '-']) (o : Option Offset) :
    takeChar mark (offsetChars o) = none := by
  cases o with
  | none => rfl
  | some o =>
    obtain ⟨c, cs, ho, hc, -⟩ := o.exists_chars
    have hne : mark ≠ c := by
      rintro rfl
      exact hmark hc
    simp [offsetChars, ho, takeChar, hne]

/-- A date and a time without an offset, if the time is one to the whole second. -/
theorem Stamp.toOption_dateTime?_clock (d : Date) (c : Clock) :
    (Stamp.mk (some d) (some c) none).dateTime?.toOption =
      if c.nano = 0 then (Time.ofClock? c.hour c.minute c.second 0).map (DateTime.mk d)
      else none := by
  rw [Stamp.dateTime?]
  by_cases hzero : c.nano = 0
  · rw [if_pos hzero, Clock.time?, hzero]
    cases Time.ofClock? c.hour c.minute c.second 0 <;> rfl
  · rw [if_neg hzero]
    cases c.time? with
    | none => rfl
    | some t => simp [hzero, Except.toOption]

theorem toList_text (date : Option Date) (clock : Option Clock) (offset : Option Offset) :
    (Stamp.mk date clock offset).text.toList =
      (date.map Date.chars).getD [] ++
        ((if date.isSome ∧ clock.isSome then ['T'] else []) ++
          ((clock.map Clock.chars).getD [] ++ offsetChars offset)) := by
  simp [Stamp.text, offsetChars]

/-- The first of the two written forms that fits the text of a stamp gives its point of time. -/
theorem Stamp.toOption_dateTime? (s : Stamp) :
    s.dateTime?.toOption = (ofMarkedText? 'T' s.text).or (ofMarkedText? ' ' s.text) := by
  obtain ⟨date, clock, offset⟩ := s
  cases date with
  | none =>
    have hcount : (Stamp.mk none clock offset).text.toList.count '-' < 2 := by
      have hoffset := count_dash_offsetChars offset
      cases clock with
      | none => simpa [toList_text] using by omega
      | some c => simpa [toList_text, count_dash_clock] using by omega
    simp [ofMarkedText?, takeDate_eq_none hcount, dateTime?, Except.toOption]
  | some d =>
    cases clock with
    | none =>
      have htext : (Stamp.mk (some d) none offset).text.toList = d.chars ++ offsetChars offset := by
        simp [toList_text]
      have hT := takeChar_offsetChars (by decide : 'T' ∉ ['Z', '+', '-']) offset
      have hblank := takeChar_offsetChars (by decide : ' ' ∉ ['Z', '+', '-']) offset
      have hnone : (Stamp.mk (some d) none offset).dateTime?.toOption = none := by
        cases offset <;> rfl
      simp [ofMarkedText?, htext, takeDate_chars, hT, hblank, hnone]
    | some c =>
      have htext : (Stamp.mk (some d) (some c) offset).text.toList =
          d.chars ++ 'T' :: (clockChars c.hour c.minute c.second ++
            (fractionChars c.nano ++ offsetChars offset)) := by
        simp [toList_text, Clock.chars]
      have hblank : takeChar ' ' ('T' :: (clockChars c.hour c.minute c.second ++
          (fractionChars c.nano ++ offsetChars offset))) = none := rfl
      simp only [ofMarkedText?, htext, takeDate_chars, Option.bind_eq_bind, Option.bind_some,
        takeChar_self, hblank, Option.bind_none, Option.or_none, timeOfChars?_clockChars,
        List.append_eq_nil_iff, fractionChars_eq_nil_iff, offsetChars_eq_nil_iff]
      cases offset with
      | none =>
        rw [Stamp.toOption_dateTime?_clock]
        split <;> simp_all [Option.map_eq_bind]
      | some o => simp [dateTime?, Except.toOption]

theorem isSome_time?_of_takeClock {c : Clock} {cs rest : List Char}
    (h : takeClock .bare cs = some (c, rest)) : c.time?.isSome := by
  obtain ⟨⟨hour, cs₁⟩, -, h⟩ := Option.bind_eq_some_iff.1 h
  obtain ⟨cs₂, -, h⟩ := Option.bind_eq_some_iff.1 h
  obtain ⟨⟨minute, cs₃⟩, -, h⟩ := Option.bind_eq_some_iff.1 h
  obtain ⟨cs₄, -, h⟩ := Option.bind_eq_some_iff.1 h
  obtain ⟨⟨second, cs₅⟩, -, h⟩ := Option.bind_eq_some_iff.1 h
  change (if hour ≤ _ ∧ minute ≤ 59 ∧ second ≤ 60 then _ else none) = some (c, rest) at h
  have hnano : ((DateTime.takeFraction cs₅).getD (0, cs₅)).1 < 1000000000 := by
    cases hfraction : DateTime.takeFraction cs₅ with
    | none => simp
    | some r => exact DateTime.nano_lt_of_takeFraction hfraction
  split at h
  · next hclock =>
    obtain ⟨rfl, -⟩ := Prod.mk.inj (Option.some.inj h)
    simp only [StampForm.greatestHour] at hclock
    have htime : hour < 24 ∧ minute < 60 ∧ second ≤ 60 := by omega
    exact isSome_timeOfClock?_iff.2 ⟨htime.1, htime.2.1, htime.2.2, hnano⟩
  · cases h

theorem isSome_time?_of_takeStamp {s : Stamp} {cs rest : List Char} {c : Clock}
    (h : takeStamp .bare cs = some (s, rest)) (hc : s.clock = some c) : c.time?.isSome := by
  unfold takeStamp at h
  split at h
  · next date cs' hdate =>
    obtain ⟨rfl, -⟩ := Prod.mk.inj (Option.some.inj h)
    unfold optionally at hc
    split at hc
    · next clock rest' hclock =>
      obtain rfl := Option.some.inj hc
      unfold takeClockOfDate at hclock
      split at hclock
      · split at hclock
        · exact isSome_time?_of_takeClock hclock
        · cases hclock
      · cases hclock
    · cases hc
  · obtain ⟨⟨clock, rest'⟩, hclock, heq⟩ := Option.map_eq_some_iff.1 h
    obtain ⟨rfl, -⟩ := Prod.mk.inj heq
    obtain rfl := Option.some.inj hc
    exact isSome_time?_of_takeClock hclock

/-- The stamp that writes a point of time, with all of its fraction. -/
def stampOf (t : DateTime) : Stamp :=
  ⟨some t.date, some ⟨t.time.hour, t.time.minute, t.time.shownSecond, t.time.shownNano⟩, none⟩

def Stamp.isComplete (s : Stamp) : Bool :=
  s.date.isSome && (s.clock.bind Clock.time?).isSome && s.offset.isNone

def Stamp.isWhole (s : Stamp) : Bool := s.clock.all (·.nano == 0)

/-- Where a stamp stands as a value of its own, its time is a time of day. -/
theorem Stamp.isComplete_iff_of_takeStamp {s : Stamp} {cs rest : List Char}
    (h : takeStamp .bare cs = some (s, rest)) :
    s.isComplete ↔ s.date.isSome ∧ s.clock.isSome ∧ s.offset.isNone := by
  have htime : (s.clock.bind Clock.time?).isSome = s.clock.isSome := by
    cases hc : s.clock with
    | none => rfl
    | some c => simpa using isSome_time?_of_takeStamp h hc
  simp [isComplete, htime, and_assoc]

theorem Stamp.isComplete_iff (s : Stamp) :
    s.isComplete ↔ ∃ t : DateTime, t.time.isRegular ∧ s = stampOf t := by
  constructor
  · intro h
    obtain ⟨_ | d, _ | c, _ | o⟩ := s
    case some.some.none =>
      have htime : c.time?.isSome := by simpa [isComplete] using h
      obtain ⟨t, ht⟩ := Option.isSome_iff_exists.1 htime
      obtain ⟨hregular, h₁, h₂, h₃, h₄⟩ := Time.ofClock?_eq_some_iff.1 ht
      exact ⟨⟨d, t⟩, hregular, by simp [stampOf, ← h₁, ← h₂, ← h₃, ← h₄]⟩
    all_goals simp [isComplete] at h
  · rintro ⟨t, hregular, rfl⟩
    simp [isComplete, stampOf, Clock.time?, Time.ofClock?_shown hregular]

theorem Stamp.dateTime?_eq_ok_iff {s : Stamp} {t : DateTime} :
    s.dateTime? = .ok t ↔ t.time.isRegular ∧ s = stampOf t ∧ s.isWhole := by
  constructor
  · intro h
    obtain ⟨_ | d, _ | c, _ | o⟩ := s
    case some.some.none =>
      have ht := congrArg Except.toOption h
      rw [Stamp.toOption_dateTime?_clock] at ht
      split at ht
      · next hzero =>
        obtain ⟨time, htime, rfl⟩ := Option.map_eq_some_iff.1 ht
        obtain ⟨hregular, h₁, h₂, h₃, h₄⟩ := Time.ofClock?_eq_some_iff.1 htime
        exact ⟨hregular, by simp [stampOf, ← h₁, ← h₂, ← h₃, ← h₄, ← hzero],
          by simp [isWhole, hzero]⟩
      · cases ht
    all_goals cases h
  · rintro ⟨hregular, rfl, hwhole⟩
    have hzero : t.time.shownNano = 0 := by simpa [isWhole, stampOf] using hwhole
    have htime := Time.ofClock?_shown hregular
    rw [hzero] at htime
    simp [stampOf, Stamp.dateTime?, Clock.time?, hzero, htime]

mutual

/-- A value and the items of its arrays, at any depth and in order. -/
def Value.parts : Value → List Value
  | .array items => .array items :: Value.partsAll items
  | v => [v]

def Value.partsAll : List Value → List Value
  | [] => []
  | v :: vs => v.parts ++ Value.partsAll vs

end

namespace Value

mutual

@[elab_as_elim]
theorem induction_parts {P : Value → Prop} (scalar : ∀ v, (∀ items, v ≠ .array items) → P v)
    (array : ∀ items, (∀ v ∈ items, P v) → P (.array items)) : ∀ v, P v
  | .array items => array items (induction_partsAll scalar array items)
  | .string _ | .integer _ | .float _ | .boolean _ | .dateTime _ | .table _ => scalar _ nofun

theorem induction_partsAll {P : Value → Prop} (scalar : ∀ v, (∀ items, v ≠ .array items) → P v)
    (array : ∀ items, (∀ v ∈ items, P v) → P (.array items)) : ∀ vs : List Value, ∀ v ∈ vs, P v
  | [] => by simp
  | v :: vs =>
    List.forall_mem_cons.2 ⟨induction_parts scalar array v, induction_partsAll scalar array vs⟩

end

@[simp] theorem partsAll_eq_flatMap (vs : List Value) : partsAll vs = vs.flatMap parts := by
  induction vs with
  | nil => rfl
  | cons v vs ih => rw [partsAll, ih, List.flatMap_cons]

theorem parts_array (items : List Value) :
    parts (.array items) = .array items :: items.flatMap parts := by
  rw [parts, partsAll_eq_flatMap]

theorem parts_of_ne_array {v : Value} (h : ∀ items, v ≠ .array items) : v.parts = [v] := by
  cases v <;> first | rfl | exact absurd rfl (h _)

theorem toValues_eq_mapM (vs : List Value) : toValues vs = vs.mapM toValue := by
  induction vs with
  | nil => rfl
  | cons v vs ih => rw [toValues, ih, List.mapM_cons]; rfl

/-- The value of a parameter with the same contents. -/
inductive Denotes : Value → SqlFilter.Value → Prop
  | string (s : String) : Denotes (.string s) (.string s)
  | integer (n : Int64) : Denotes (.integer n) (.int n)
  | float (x : Float) : Denotes (.float x) (.decimal x)
  | boolean (b : Bool) : Denotes (.boolean b) (.bool b)
  /-- No clock shows a leap second but one that ends its minute. -/
  | dateTime (t : DateTime) (h : t.time.isRegular) : Denotes (.dateTime (stampOf t)) (.dateTime t)
  | array {items : List Value} {vs : List SqlFilter.Value} (h : List.Forall₂ Denotes items vs) :
      Denotes (.array items) (.list vs)

/-- No table, and no date-time but a date with a time of day and without an offset. -/
def isRepresentable : Value → Bool
  | .table _ => false
  | .dateTime s => s.isComplete
  | _ => true

def isWhole : Value → Bool
  | .dateTime s => s.isWhole
  | _ => true

def ownFault? : Value → Option Error
  | .dateTime s =>
    match s.dateTime? with
    | .ok _ => none
    | .error fault => some (.config (.badDateTime s.text fault))
  | .table _ => some (.config .tableValue)
  | _ => none

/-- A value is refused with the first fault of its parts. -/
theorem faultOf_toValue (v : Value) : faultOf v.toValue = v.parts.findSome? ownFault? := by
  induction v using induction_parts with
  | scalar v hv =>
    rw [parts_of_ne_array hv]
    cases v with
    | array items => exact absurd rfl (hv items)
    | dateTime s => cases h : s.dateTime? <;> simp [toValue, ownFault?, h, faultOf]
    | _ => simp [toValue, ownFault?, faultOf]
  | array items ih =>
    have hitems : items.findSome? (fun v => faultOf v.toValue) =
        items.findSome? fun v => v.parts.findSome? ownFault? := findSome?_congr ih
    rw [parts_array, toValue, toValues_eq_mapM, faultOf_map, faultOf_mapM, hitems,
      List.findSome?_cons, findSome?_flatMap]
    rfl

/-- A value is accepted if it has a value with the same contents and no fraction of a second. -/
theorem toValue_eq_ok_iff (v : Value) (x : SqlFilter.Value) :
    v.toValue = .ok x ↔ v.Denotes x ∧ ∀ w ∈ v.parts, w.isWhole := by
  induction v using induction_parts generalizing x with
  | scalar v hv =>
    rw [parts_of_ne_array hv, List.forall_mem_singleton]
    cases v with
    | array items => exact absurd rfl (hv items)
    | table entries =>
      refine ⟨fun h => ?_, fun h => ?_⟩
      · cases h
      · cases h.1
    | dateTime s =>
      constructor
      · intro h
        cases ht : s.dateTime? with
        | error fault => simp [toValue, ht] at h
        | ok t =>
          obtain rfl : SqlFilter.Value.dateTime t = x := by simpa [toValue, ht] using h
          obtain ⟨hregular, rfl, hwhole⟩ := Stamp.dateTime?_eq_ok_iff.1 ht
          exact ⟨.dateTime t hregular, hwhole⟩
      · rintro ⟨hdenotes, hwhole⟩
        cases hdenotes with
        | dateTime t hregular => rw [toValue, Stamp.dateTime?_eq_ok_iff.2 ⟨hregular, rfl, hwhole⟩]
    | string | integer | float | boolean =>
      constructor
      · intro h
        obtain rfl := Except.ok.inj h
        exact ⟨by constructor, rfl⟩
      · rintro ⟨⟨⟩, -⟩
        rfl
  | array items ih =>
    have hitems (vs : List SqlFilter.Value) : items.mapM toValue = .ok vs ↔
        List.Forall₂ Denotes items vs ∧ ∀ w ∈ items.flatMap parts, w.isWhole := by
      rw [mapM_eq_ok_iff, forall₂_congr_of_mem ih]
      simp only [and_comm (a := Denotes _ _), List.forall₂_and_left, List.forall_mem_flatMap]
      exact and_comm
    rw [parts_array, toValue, toValues_eq_mapM, List.forall_mem_cons]
    constructor
    · intro h
      cases hvs : items.mapM toValue with
      | error e => simp [hvs, Except.map] at h
      | ok vs =>
        obtain rfl : SqlFilter.Value.list vs = x := by simpa [hvs, Except.map] using h
        obtain ⟨hdenotes, hwhole⟩ := (hitems vs).1 hvs
        exact ⟨.array hdenotes, rfl, hwhole⟩
    · rintro ⟨⟨⟩, -, hwhole⟩
      rename_i vs hdenotes
      rw [(hitems vs).2 ⟨hdenotes, hwhole⟩]
      rfl

theorem exists_denotes_iff (v : Value) : (∃ x, v.Denotes x) ↔ ∀ w ∈ v.parts, w.isRepresentable := by
  induction v using induction_parts with
  | scalar v hv =>
    rw [parts_of_ne_array hv, List.forall_mem_singleton]
    cases v with
    | array items => exact absurd rfl (hv items)
    | table entries =>
      refine ⟨?_, fun h => ?_⟩
      · rintro ⟨x, ⟨⟩⟩
      · cases h
    | dateTime s =>
      rw [isRepresentable, Stamp.isComplete_iff]
      constructor
      · rintro ⟨x, hdenotes⟩
        cases hdenotes with
        | dateTime t hregular => exact ⟨t, hregular, rfl⟩
      · rintro ⟨t, hregular, rfl⟩
        exact ⟨_, .dateTime t hregular⟩
    | string | integer | float | boolean => exact ⟨fun _ => rfl, fun _ => ⟨_, by constructor⟩⟩
  | array items ih =>
    have hitems : (∃ vs, List.Forall₂ Denotes items vs) ↔
        ∀ w ∈ items.flatMap parts, w.isRepresentable := by
      rw [exists_forall₂_iff, List.forall_mem_flatMap]
      exact forall₂_congr ih
    rw [parts_array, List.forall_mem_cons, ← hitems]
    constructor
    · rintro ⟨_, ⟨⟩⟩
      rename_i vs hvs
      exact ⟨rfl, vs, hvs⟩
    · rintro ⟨-, vs, hvs⟩
      exact ⟨_, .array hvs⟩

def halfSecond : DateTime := ⟨⟨2024, 1, 2, rfl⟩, ⟨3, 4, 5, 500000000, rfl⟩⟩

end Value

end Toml

end SqlFilter
