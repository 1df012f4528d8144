import SqlFilter.Proofs.Writing

/-!
The operand slots of a compiled condition: what operands are to fill in its text. They are all
filled but for those of membership tests in empty collections, which leave no text wherever they
stand.
-/
namespace SqlFilter

theorem allBlank_repr (n : Nat) : Text.allBlank n.repr = false := by
  obtain ⟨c, hc⟩ := Text.exists_mem_repr n
  exact Text.allBlank_eq_false hc (Text.isBlank_of_isDigit (Text.isDigit_of_mem_repr hc))

theorem allBlank_toString (n : Int) : Text.allBlank (toString n) = false := by
  cases n with
  | ofNat m => exact allBlank_repr m
  | negSucc m =>
    change Text.allBlank ("-" ++ m.succ.repr) = false
    rw [Text.allBlank_append, allBlank_repr, Bool.and_false]

namespace Decimal

theorem isDigit_of_mem_significantDigits {n : Nat} {c : Char} (h : c ∈ significantDigits n) :
    c.isDigit := by
  rw [significantDigits, List.mem_reverse] at h
  have hc : c ∈ (Nat.toDigits 10 n).reverse := (List.dropWhile_sublist _).subset h
  exact Nat.isDigit_of_mem_toDigits (by omega) (by omega) (List.mem_reverse.1 hc)

/-- Every layout of a number without an exponent has a digit before its point. -/
theorem exists_digit_of_positionalText (pointZero : Bool) {digits : List Char} (e : Int)
    (h : ∀ c ∈ digits, c.isDigit) : ∃ c ∈ positionalText pointZero digits e, c.isDigit := by
  unfold positionalText
  split
  · exact ⟨'0', by simp, by decide⟩
  · simp only
    cases digits with
    | nil => exact ⟨'0', by simp, by decide⟩
    | cons d ds =>
      have hd : d ∈ (d :: ds).take (e.toNat + 1) := by simp
      refine ⟨d, ?_, h d (by simp)⟩
      split
      · exact List.mem_append_left _ (List.mem_append_left _ hd)
      · exact List.mem_append_left _ hd

theorem exists_digit_of_magnitude (m : Nat) (q : Int) :
    ∃ c ∈ Layout.sql.magnitude m q, c.isDigit := by
  unfold Layout.magnitude
  split
  · exact ⟨'0', by simp [Layout.sql], by decide⟩
  · exact exists_digit_of_positionalText _ _ fun c => isDigit_of_mem_significantDigits

theorem allBlank_text (x : Float) : Text.allBlank (text x) = false := by
  unfold text Layout.text
  split
  · decide
  · split <;> decide
  · next m q _ =>
    obtain ⟨c, hc, hd⟩ := exists_digit_of_magnitude m q
    refine Text.allBlank_eq_false (c := c) ?_ (Text.isBlank_of_isDigit hd)
    rw [String.toList_ofList]
    split
    · exact List.mem_cons_of_mem _ hc
    · exact hc

end Decimal

namespace Value

theorem allBlank_quoted (s : String) : Text.allBlank (quoted s) = false := by
  have hquote : Text.allBlank "'" = false := by decide
  rw [quoted, Text.allBlank_append, hquote, Bool.and_false]

theorem allBlank_literal (v : Value) (type : ValueType) :
    Text.allBlank (v.literal type) = false := by
  have hquotedAs {s : String} (hs : Text.allBlank s = false) :
      Text.allBlank (quotedAs type s) = false := by
    unfold quotedAs
    split
    · exact allBlank_quoted s
    · exact hs
  have hcast (s : String) : Text.allBlank (castAsDate s) = false := by
    rw [castAsDate, Text.allBlank_append, Text.allBlank_append, allBlank_quoted, Bool.and_false,
      Bool.false_and]
  cases v with
  | null => simp only [literal]; decide
  | bool b => cases b <;> simp only [literal] <;> decide
  | int n => exact hquotedAs (allBlank_toString n.toInt)
  | decimal x =>
    simp only [literal]
    split
    · exact hquotedAs (Decimal.allBlank_text x)
    · decide
  | string s =>
    simp only [literal]
    split
    · exact hcast s
    · exact allBlank_quoted s
  | dateTime t => exact hcast t.text
  | list vs =>
    rw [literal, Text.allBlank_append]
    have hclose : Text.allBlank ")" = false := by decide
    rw [hclose, Bool.and_false]

end Value

/-- A part of the text of a node: a piece of its own, or an operand. -/
inductive Segment
  | piece (p : Piece)
  | operand (p : Predicate)
  deriving Repr

namespace Segment

def fragment (policy : ConvertPolicy) : Segment → Fragment
  | .piece p => [p]
  | .operand p => p.fragment policy

def text (s : String) : Segment := .piece (.text s)

def assemble (policy : ConvertPolicy) (segments : List Segment) : Fragment :=
  segments.flatMap (fragment policy)

end Segment

namespace Predicate

def membershipSegments (collection value : Predicate) : List Segment :=
  match collection with
  | .constant (.list []) _ => []
  | .constant (.list items) declared =>
    [.operand value, .text " IN (",
      .piece (.items items (elementType items (declared.getD .unknown))), .text ")"]
  | other => [.piece (.fault (.collection other.kind))]

/--
The text of a node, segment by segment. The constant true that a conjunction starts from is none.
-/
def segments (policy : ConvertPolicy) : Predicate → List Segment
  | .comparison op left right =>
    [.operand left, .text (" " ++ operator op right ++ " "), .operand right]
  | .logical op left right =>
    if op = .and ∧ left.isAlwaysTrue then [.text "(", .operand right, .text ")"]
    else [.text "(", .operand left, .text (" " ++ op.keyword ++ " "), .operand right, .text ")"]
  | .not operand => [.text "(NOT ", .operand operand, .text ")"]
  | .member path => [.text path]
  | .constant v declared => [.piece (.scalar v (declared.getD v.type))]
  | .conditional test ifTrue ifFalse =>
    [.text "(CASE WHEN ", .operand test, .text " THEN ", .operand ifTrue, .text " ELSE ",
      .operand ifFalse, .text " END)"]
  | .convert _ target =>
    match policy with
    | .reject => [.piece (.fault (.cast target))]
    | .drop => []
  | .parameter name => [.piece (.fault (.record name))]
  | .call method receiver args =>
    match Method.ofName? method, receiver, args with
    | some .equals, some left, [right] => [.operand left, .text " = ", .operand right]
    | some .equals, _, _ => [.piece (.fault .equalsOperands)]
    | some .containsAny, none, [collection, value] => membershipSegments collection value
    | some .containsAny, some collection, [value] => membershipSegments collection value
    | some .containsAny, _, _ => [.piece (.fault .membershipOperands)]
    | none, _, _ => [.piece (.fault (.method method))]

theorem membershipPieces_eq_assemble (policy : ConvertPolicy) (collection value : Predicate) :
    membershipPieces collection (value.fragment policy) =
      Segment.assemble policy (membershipSegments collection value) := by
  fun_cases membershipSegments collection value with
  | case1 => rfl
  | case2 items declared hne =>
    rw [membershipPieces]
    · simp [Segment.assemble, Segment.fragment, Segment.text]
    · exact hne
  | case3 other h₁ h₂ =>
    rw [membershipPieces]
    · rfl
    · exact h₁
    · exact h₂

theorem fragment_eq_assemble (policy : ConvertPolicy) (p : Predicate) :
    p.fragment policy = Segment.assemble policy (p.segments policy) := by
  fun_cases segments policy p <;>
    simp_all [fragment, membershipPieces_eq_assemble, Segment.assemble, Segment.fragment,
      Segment.text]

/-- A membership test in an empty collection, which has no text. -/
def vanishes : Predicate → Bool
  | .call method receiver args =>
    match Method.ofName? method, receiver, args with
    | some .containsAny, none, [.constant (.list []) _, _] => true
    | some .containsAny, some (.constant (.list []) _), [_] => true
    | _, _, _ => false
  | _ => false

/--
A slot of a condition: in its fragment the operand stands between what is before and what is after.
-/
inductive Slot (policy : ConvertPolicy) : Predicate → Fragment → Predicate → Fragment → Prop
  | own {p q : Predicate} {a b : List Segment} (h : p.segments policy = a ++ .operand q :: b) :
      Slot policy p (Segment.assemble policy a) q (Segment.assemble policy b)
  | within {p q r : Predicate} {a b : List Segment} {before after : Fragment}
      (h : p.segments policy = a ++ .operand q :: b) (hr : Slot policy q before r after) :
      Slot policy p (Segment.assemble policy a ++ before) r (after ++ Segment.assemble policy b)

variable {policy : ConvertPolicy} {p q : Predicate} {before after : Fragment}

theorem fragment_of_segments {a b : List Segment} (h : p.segments policy = a ++ .operand q :: b) :
    p.fragment policy =
      Segment.assemble policy a ++ q.fragment policy ++ Segment.assemble policy b := by
  rw [fragment_eq_assemble, h]
  simp [Segment.assemble, Segment.fragment]

theorem Slot.fragment_eq (h : Slot policy p before q after) :
    p.fragment policy = before ++ q.fragment policy ++ after := by
  induction h with
  | own h => exact fragment_of_segments h
  | within h _ ih =>
    rw [fragment_of_segments h, ih]
    simp only [List.append_assoc]

def PathsFilled (p : Predicate) : Prop := ∀ path ∈ p.paths, Text.allBlank path = false

instance (p : Predicate) : Decidable p.PathsFilled :=
  inferInstanceAs (Decidable (∀ path ∈ p.paths, Text.allBlank path = false))

theorem mem_membershipSegments {collection value : Predicate}
    (h : .operand q ∈ membershipSegments collection value) : q = value := by
  fun_cases membershipSegments collection value <;> simp_all [membershipSegments, Segment.text]

theorem mem_operands_of_mem_segments (h : .operand q ∈ p.segments policy) : q ∈ p.operands := by
  fun_cases segments policy p with
  | case3 _ op left right hbase =>
    rw [segments, if_neg hbase] at h
    simpa [operands, Segment.text] using h
  | case13 _ method collection value hm | case14 _ method collection value hm =>
    simp only [segments, hm] at h
    obtain rfl := mem_membershipSegments h
    simp [operands]
  | _ => simp_all [segments, operands, Segment.text]

theorem mem_paths_of_mem_segments (h : .operand q ∈ p.segments policy) {path : String}
    (hpath : path ∈ q.paths) : path ∈ p.paths :=
  mem_paths_of_mem_operands (mem_operands_of_mem_segments h) hpath

end Predicate

def Piece.isFilled : Piece → Bool
  | .text s => !Text.allBlank s
  | .scalar .. => true
  | .items .. | .fault _ => false

theorem allBlank_nameAt (stem : String) (i : Nat) :
    Text.allBlank ((Binder.empty stem).nameAt i) = false :=
  Text.allBlank_eq_false (c := '@') (by simp [Binder.nameAt]) (by decide)

namespace CompileOptions

theorem allBlank_write_singleton (o : CompileOptions) (i : Nat) {p : Piece} (h : p.isFilled) :
    Text.allBlank (o.write i [p]) = false := by
  cases p with
  | text s =>
    have hs : Text.allBlank s = false := by simpa [Piece.isFilled] using h
    unfold write
    cases o.literals <;>
      simp [Fragment.inlineText, Fragment.boundText, Piece.inlineText, Piece.boundText, hs]
  | scalar v type =>
    have hname := allBlank_nameAt o.stem i
    have hv := v.allBlank_literal type
    unfold write
    cases o.literals with
    | inline => simp [Fragment.inlineText, Piece.inlineText, hv]
    | bound =>
      simp only [Fragment.boundText, Piece.boundText, String.append_empty]
      split
      · exact hv
      · exact hname
  | items vs element | fault cause => cases h

theorem allBlank_write (o : CompileOptions) (i : Nat) {f : Fragment} {p : Piece} (hp : p ∈ f)
    (h : p.isFilled) : Text.allBlank (o.write i f) = false := by
  obtain ⟨a, b, rfl⟩ := List.append_of_mem hp
  rw [← List.singleton_append, write_append, write_append, Text.allBlank_append,
    Text.allBlank_append, o.allBlank_write_singleton _ h]
  simp

end CompileOptions

namespace Predicate

variable {p q : Predicate} {before after : Fragment}

theorem segments_of_vanishes (policy : ConvertPolicy) (h : p.vanishes) :
    p.segments policy = [] := by
  unfold vanishes at h
  split at h
  · split at h
    · next hm => simp only [segments, hm, membershipSegments]
    · next hm => simp only [segments, hm, membershipSegments]
    · cases h
  · cases h

theorem fragment_of_vanishes (policy : ConvertPolicy) (h : p.vanishes) :
    p.fragment policy = [] := by
  rw [fragment_eq_assemble, segments_of_vanishes policy h]
  rfl

theorem isEmpty_or_mem_membershipPieces {collection : Predicate} {f : Fragment}
    (h : (membershipPieces collection f).fault? = none) :
    (∃ declared, collection = .constant (.list []) declared) ∨
      .text " IN (" ∈ membershipPieces collection f := by
  fun_cases membershipPieces collection f with
  | case1 declared => exact .inl ⟨declared, rfl⟩
  | case2 items declared hne => exact .inr (by simp)
  | case3 other h₁ h₂ => simp_all [membershipPieces, Fragment.fault?, Piece.fault?]

/-- A node without a fault has text of its own, unless it is an empty membership test. -/
theorem exists_isFilled (hpaths : q.PathsFilled) (hfault : (q.fragment .reject).fault? = none)
    (hv : q.vanishes = false) : ∃ piece ∈ q.fragment .reject, piece.isFilled := by
  cases q with
  | comparison op left right =>
    refine ⟨.text (" " ++ operator op right ++ " "), by simp [fragment], ?_⟩
    unfold operator
    split <;> cases op <;> decide
  | logical op left right =>
    refine ⟨.text "(", ?_, by decide⟩
    rw [fragment]
    split <;> simp
  | not operand => exact ⟨.text "(NOT ", by simp [fragment], by decide⟩
  | member path =>
    have hpath := hpaths path (by simp [paths])
    exact ⟨.text path, by simp [fragment], by simp [Piece.isFilled, hpath]⟩
  | constant v declared => exact ⟨_, List.mem_singleton_self _, rfl⟩
  | conditional test ifTrue ifFalse => exact ⟨.text "(CASE WHEN ", by simp [fragment], by decide⟩
  | convert operand target => cases hfault
  | parameter name => cases hfault
  | call method receiver args =>
    have hin : (Piece.text " IN (").isFilled := by decide
    unfold fragment at hfault ⊢
    split at hfault
    · exact ⟨.text " = ", by simp, by decide⟩
    · cases hfault
    · next hm =>
      rcases isEmpty_or_mem_membershipPieces hfault with ⟨declared, rfl⟩ | hmem
      · simp [vanishes, hm] at hv
      · exact ⟨_, hmem, hin⟩
    · next hm =>
      rcases isEmpty_or_mem_membershipPieces hfault with ⟨declared, rfl⟩ | hmem
      · simp [vanishes, hm] at hv
      · exact ⟨_, hmem, hin⟩
    · cases hfault
    · cases hfault

theorem allBlank_write_fragment (o : CompileOptions) (i : Nat) (hpaths : q.PathsFilled)
    (hfault : (q.fragment .reject).fault? = none) :
    Text.allBlank (o.write i (q.fragment .reject)) = q.vanishes := by
  cases hv : q.vanishes with
  | true =>
    rw [fragment_of_vanishes _ hv, CompileOptions.write_nil]
    decide
  | false =>
    obtain ⟨piece, hmem, hfilled⟩ := exists_isFilled hpaths hfault hv
    exact o.allBlank_write i hmem hfilled

theorem mem_segments_of_eq_append {policy : ConvertPolicy} {a b : List Segment}
    (h : p.segments policy = a ++ .operand q :: b) : .operand q ∈ p.segments policy := by
  rw [h]
  exact List.mem_append_right _ List.mem_cons_self

theorem Slot.pathsFilled {policy : ConvertPolicy} (h : Slot policy p before q after)
    (hp : p.PathsFilled) : q.PathsFilled := by
  have hown {p q : Predicate} {a b : List Segment} (h : p.segments policy = a ++ .operand q :: b)
      (hp : p.PathsFilled) : q.PathsFilled := fun path hpath =>
    hp path (mem_paths_of_mem_segments (mem_segments_of_eq_append h) hpath)
  induction h with
  | own h => exact hown h hp
  | within h _ ih => exact ih (hown h hp)

/-- A node whose text has no operands has no slots. -/
theorem not_slot {policy : ConvertPolicy} (hp : ∀ q, .operand q ∉ p.segments policy) :
    ¬ Slot policy p before q after := by
  intro h
  cases h with
  | own h => exact hp _ (mem_segments_of_eq_append h)
  | within h _ => exact hp _ (mem_segments_of_eq_append h)

theorem exists_of_isAlwaysTrue (h : p.isAlwaysTrue) :
    ∃ declared, p = .constant (.bool true) declared := by
  unfold isAlwaysTrue at h
  split at h
  · exact ⟨_, rfl⟩
  · cases h

end Predicate

namespace CompileOptions
open Predicate

variable {o : CompileOptions} {p : Predicate} {c : CompiledFilter}

/-- A compilation is blank only if it is empty, and then the condition has no slots. -/
theorem sql_eq_empty_of_isEmpty (ho : o.convert = .reject) (hp : p.PathsFilled)
    (hc : o.compile p = .ok c) (h : c.isEmpty) :
    c.sql = "" ∧ ∀ before q after, ¬ Slot .reject p before q after := by
  obtain ⟨hfault, rfl⟩ := compile_eq_ok_iff.1 hc
  rw [ho] at hfault h ⊢
  unfold pieces at hfault h ⊢
  split at h
  · next htrue =>
    obtain ⟨declared, rfl⟩ := exists_of_isAlwaysTrue htrue
    exact ⟨by rw [if_pos htrue, write_nil], fun _ _ _ => not_slot (by simp [segments])⟩
  · next htrue =>
    rw [if_neg htrue] at hfault ⊢
    have hv : p.vanishes := by
      rw [← allBlank_write_fragment o 0 hp hfault]
      exact h
    refine ⟨by rw [fragment_of_vanishes _ hv, write_nil], fun _ _ _ => not_slot ?_⟩
    simp [segments_of_vanishes _ hv]

theorem isEmpty_of_sql_eq_empty (h : c.sql = "") : c.isEmpty := by
  rw [CompiledFilter.isEmpty, h]
  decide

/-- The text of a compiled condition around a slot, which is blank only for an empty test. -/
theorem sql_eq_of_slot (ho : o.convert = .reject) (hp : p.PathsFilled) (hc : o.compile p = .ok c)
    {before after : Fragment} {q : Predicate} (hs : Slot .reject p before q after) :
    c.sql = o.write 0 (before ++ q.fragment .reject ++ after) ∧
      Text.allBlank (o.write before.literals.length (q.fragment .reject)) = q.vanishes := by
  obtain ⟨hfault, rfl⟩ := compile_eq_ok_iff.1 hc
  have htrue : p.isAlwaysTrue = false := by
    cases h : p.isAlwaysTrue with
    | false => rfl
    | true =>
      obtain ⟨declared, rfl⟩ := exists_of_isAlwaysTrue h
      exact (not_slot (by simp [segments]) hs).elim
  have hpieces : p.pieces o.convert = before ++ q.fragment .reject ++ after := by
    rw [pieces, htrue, ho, ← hs.fragment_eq]
    rfl
  rw [hpieces, Fragment.fault?_append, Fragment.fault?_append, Option.or_eq_none_iff,
    Option.or_eq_none_iff] at hfault
  rw [hpieces]
  exact ⟨rfl, allBlank_write_fragment o _ (hs.pathsFilled hp) hfault.1.2⟩

/--
What stands in each slot of a compiled condition is blank exactly if its operand is a membership
test in an empty collection. So the text is empty or has all its slots filled exactly if no operand
is such a test.
-/
theorem compile_fills_slots (ho : o.convert = .reject) (hp : p.PathsFilled)
    (hc : o.compile p = .ok c) :
    (c.isEmpty ↔ c.sql = "") ∧
    (∀ before q after, Slot .reject p before q after →
      let i := before.literals.length
      let inside := q.fragment .reject
      c.sql = o.write 0 before ++ o.write i inside ++
        o.write (i + inside.literals.length) after ∧
      Text.allBlank (o.write i inside) = q.vanishes) ∧
    ((c.sql = "" ∨ ∀ before q after, Slot .reject p before q after →
        Text.allBlank (o.write before.literals.length (q.fragment .reject)) = false) ↔
      ∀ before q after, Slot .reject p before q after → q.vanishes = false) := by
  refine ⟨⟨fun h => (sql_eq_empty_of_isEmpty ho hp hc h).1, isEmpty_of_sql_eq_empty⟩, ?_, ?_⟩
  · intro before q after hs i inside
    obtain ⟨hsql, hblank⟩ := sql_eq_of_slot ho hp hc hs
    rw [hsql, write_append, write_append, Fragment.literals_append, List.length_append,
      Nat.zero_add, Nat.zero_add]
    exact ⟨rfl, hblank⟩
  · constructor
    · rintro (h | h) before q after hs
      · have hempty := isEmpty_of_sql_eq_empty h
        exact ((sql_eq_empty_of_isEmpty ho hp hc hempty).2 _ _ _ hs).elim
      · rw [← (sql_eq_of_slot ho hp hc hs).2, h before q after hs]
    · intro h
      refine .inr fun before q after hs => ?_
      rw [(sql_eq_of_slot ho hp hc hs).2, h before q after hs]

/-- Beside a bound comparison the slot of a membership test with items is filled. -/
theorem compile_fills_slots_bound :
    let o : CompileOptions := ⟨.bound, .reject, "p"⟩
    let age := Predicate.eq (.member "Age") (.lit (.int 30))
    let inside := Predicate.containsAny (.lit (.list [.int 1, .int 2])) (.member "Team")
    let p := Predicate.and age inside
    let before := Segment.assemble .reject [.text "(", .operand age, .text (" " ++ "AND" ++ " ")]
    o.convert = .reject ∧ p.PathsFilled ∧
    (∃ c, o.compile p = .ok c ∧ c.sql = "(Age = @p0 AND Team IN (@p1, @p2))" ∧
      c.sql = o.write 0 before ++ o.write 1 (inside.fragment .reject) ++ o.write 3 [.text ")"] ∧
      Text.allBlank (o.write 1 (inside.fragment .reject)) = false) := by
  intro o age inside p before
  have hslot : Slot .reject p before inside [.text ")"] := .own (b := [.text ")"]) rfl
  have hp : p.PathsFilled := by decide
  have hc : o.compile p = .ok ⟨"(Age = @p0 AND Team IN (@p1, @p2))",
      o.collect (p.pieces .reject)⟩ := by decide +kernel
  exact ⟨rfl, hp, _, hc, rfl, (compile_fills_slots rfl hp hc).2.1 _ _ _ hslot⟩

/--
A membership test in an empty collection that is not the whole condition leaves a hole: the text is
not empty, and the slot where the test stands is blank.
-/
theorem compile_leaves_hole :
    let inside := Predicate.containsAny (.lit (.list [])) (.member "A")
    let p := Predicate.and .always inside
    p.PathsFilled ∧ compile {} p = .ok ⟨"()", []⟩ ∧
      Slot .reject p [.text "("] inside [.text ")"] ∧
      Text.allBlank (write {} 0 (inside.fragment .reject)) = true := by
  intro inside p
  have hslot : Slot .reject p [.text "("] inside [.text ")"] :=
    .own (a := [.text "("]) (b := [.text ")"]) rfl
  exact ⟨by decide, by decide, hslot, by decide⟩

end CompileOptions

end SqlFilter
