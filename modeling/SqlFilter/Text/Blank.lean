import SqlFilter.Text.Digits

/-! Blank characters: the property White_Space of Unicode, and what depends on it. -/
namespace SqlFilter.Text

/-- The characters with the property White_Space. -/
def isBlank (c : Char) : Bool :=
  let n := c.toNat
  (9 ≤ n && n ≤ 13) || n == 0x20 || n == 0x85 || n == 0xA0 || n == 0x1680 ||
    (0x2000 ≤ n && n ≤ 0x200A) || n == 0x2028 || n == 0x2029 || n == 0x202F || n == 0x205F ||
    n == 0x3000

def dropLastWhile (p : Char → Bool) (cs : List Char) : List Char :=
  (cs.reverse.dropWhile p).reverse

def trim (s : String) : String :=
  .ofList (dropLastWhile isBlank (s.toList.dropWhile isBlank))

/-- A text of blanks alone names nothing and constrains nothing. -/
def allBlank (s : String) : Bool := s.toList.all isBlank

theorem isBlank_of_isDigit {c : Char} (h : c.isDigit) : isBlank c = false := by
  have hc := toNat_of_isDigit h
  simp only [isBlank, Bool.or_eq_false_iff, Bool.and_eq_false_iff, decide_eq_false_iff_not,
    beq_eq_false_iff_ne]
  omega

theorem allBlank_eq_false {s : String} {c : Char} (hc : c ∈ s.toList) (hb : isBlank c = false) :
    allBlank s = false := by
  rw [allBlank, List.all_eq_false]
  exact ⟨c, hc, by simp [hb]⟩

theorem allBlank_append (s t : String) : allBlank (s ++ t) = (allBlank s && allBlank t) := by
  simp [allBlank, List.all_append]

theorem allBlank_intercalate_cons (separator : String) {s : String} (h : allBlank s = false)
    (ss : List String) : allBlank (separator.intercalate (s :: ss)) = false := by
  cases ss with
  | nil => simpa using h
  | cons t ts =>
    rw [String.intercalate_cons_cons, allBlank_append, allBlank_append, h]
    simp

end SqlFilter.Text
