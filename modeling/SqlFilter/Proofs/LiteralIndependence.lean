import SqlFilter.Proofs.Fragment
import SqlFilter.Proofs.Nodes

/-!
Bound compilations do not look into their literals. Conditions that are alike but for the numbers,
texts and dates in their constants have the same SQL, the same names of parameters and the same
faults, and each parameter has the value from its own place in its own condition.
-/
namespace SqlFilter

namespace Value

/-- Values that a bound compilation hands on without a look at them. -/
def isDatum : Value → Bool
  | .int _ | .string _ | .dateTime _ => true
  | .decimal x => x.isFinite
  | .null | .bool _ | .list _ => false

/-- Values that differ at most in their data, item by item in lists. -/
inductive Alike : Value → Value → Prop
  | same (v : Value) : Alike v v
  | datum {v w : Value} (hv : v.isDatum) (hw : w.isDatum) : Alike v w
  | list {vs ws : List Value} (h : List.Forall₂ Alike vs ws) : Alike (.list vs) (.list ws)

theorem not_staysInline_of_isDatum {v : Value} (h : v.isDatum) : v.staysInline = false := by
  cases v <;> simp_all [isDatum, staysInline, isSqlNull]

theorem literal_of_staysInline {v : Value} (h : v.staysInline) (s t : ValueType) :
    v.literal s = v.literal t := by
  cases v with
  | null | bool b => rfl
  | decimal x =>
    have hx : x.isFinite = false := by simpa [staysInline, isSqlNull] using h
    simp [literal, hx]
  | int n | string s | dateTime t | list vs => simp [staysInline, isSqlNull] at h

/-- Of two values that are alike both stay inline, and then they are equal, or none does. -/
theorem Alike.staysInline {v w : Value} (h : v.Alike w) :
    (v.staysInline ∧ v = w) ∨ (v.staysInline = false ∧ w.staysInline = false) := by
  cases h with
  | same v => cases v.staysInline <;> simp
  | datum hv hw => exact .inr ⟨not_staysInline_of_isDatum hv, not_staysInline_of_isDatum hw⟩
  | list h => exact .inr ⟨rfl, rfl⟩

end Value

namespace Predicate

/-- Conditions of the same structure whose constants are alike. -/
inductive Alike : Predicate → Predicate → Prop
  | comparison (op : ComparisonOp) {l l' r r' : Predicate} (hl : Alike l l') (hr : Alike r r') :
      Alike (.comparison op l r) (.comparison op l' r')
  | logical (op : LogicalOp) {l l' r r' : Predicate} (hl : Alike l l') (hr : Alike r r') :
      Alike (.logical op l r) (.logical op l' r')
  | not {p p' : Predicate} (h : Alike p p') : Alike (.not p) (.not p')
  | member (path : String) : Alike (.member path) (.member path)
  | constant {v w : Value} (h : v.Alike w) (declared : Option ValueType) :
      Alike (.constant v declared) (.constant w declared)
  | conditional {t t' a a' b b' : Predicate} (ht : Alike t t') (ha : Alike a a')
      (hb : Alike b b') : Alike (.conditional t a b) (.conditional t' a' b')
  | call (method : String) {receiver receiver' : Option Predicate} {args args' : List Predicate}
      (hr : Option.Rel Alike receiver receiver') (ha : List.Forall₂ Alike args args') :
      Alike (.call method receiver args) (.call method receiver' args')
  | convert {p p' : Predicate} (h : Alike p p') (target : ValueType) :
      Alike (.convert p target) (.convert p' target)
  | parameter (name : String) : Alike (.parameter name) (.parameter name)

end Predicate

inductive Piece.Alike : Piece → Piece → Prop
  | text (s : String) : Alike (.text s) (.text s)
  | scalar {v w : Value} (h : v.Alike w) (s t : ValueType) : Alike (.scalar v s) (.scalar w t)
  | items {vs ws : List Value} (h : List.Forall₂ Value.Alike vs ws) (s t : ValueType) :
      Alike (.items vs s) (.items ws t)
  | fault (cause : Unsupported) : Alike (.fault cause) (.fault cause)

namespace Piece.Alike

variable {p q : Piece}

theorem length_literals (h : p.Alike q) : p.literals.length = q.literals.length := by
  cases h with
  | text s | fault cause => rfl
  | scalar h s t =>
    obtain ⟨hv, rfl⟩ | ⟨hv, hw⟩ := h.staysInline
    · simp [literals, hv]
    · simp [literals, hv, hw]
  | items h s t => simp [literals, h.length_eq]

theorem boundText_eq (h : p.Alike q) (nameAt : Nat → String) (i : Nat) :
    p.boundText nameAt i = q.boundText nameAt i := by
  cases h with
  | text s | fault cause => rfl
  | scalar h s t =>
    obtain ⟨hv, rfl⟩ | ⟨hv, hw⟩ := h.staysInline
    · simp [boundText, hv, Value.literal_of_staysInline hv s t]
    · simp [boundText, hv, hw]
  | items h s t => simp [boundText, h.length_eq]

theorem fault?_eq (h : p.Alike q) : p.fault? = q.fault? := by
  cases h <;> rfl

end Piece.Alike

namespace Fragment

def values (f : Fragment) : List Value := f.literals.map Prod.fst

@[simp] theorem values_nil : values [] = [] := rfl

@[simp] theorem values_text (s : String) (f : Fragment) : values (.text s :: f) = f.values := rfl

@[simp] theorem values_append (f g : Fragment) : values (f ++ g) = f.values ++ g.values := by
  simp [values, literals]

variable {f g : Fragment}

theorem length_literals_eq (h : List.Forall₂ Piece.Alike f g) :
    f.literals.length = g.literals.length := by
  induction h with
  | nil => rfl
  | cons hp _ ih => simp_all [literals, hp.length_literals]

theorem boundText_eq_of_alike (h : List.Forall₂ Piece.Alike f g) (nameAt : Nat → String)
    (i : Nat) : boundText nameAt i f = boundText nameAt i g := by
  induction h generalizing i with
  | nil => rfl
  | cons hp _ ih => rw [boundText, boundText, hp.boundText_eq, hp.length_literals, ih]

theorem fault?_eq_of_alike (h : List.Forall₂ Piece.Alike f g) : f.fault? = g.fault? := by
  induction h with
  | nil => rfl
  | cons hp _ ih =>
    simp only [fault?] at ih
    simp only [fault?, List.findSome?_cons, hp.fault?_eq, ih]

end Fragment

/--
A place of a literal in a condition: the operands on the way to its constant, by number, and the
item of a list whose items are literals of their own.
-/
structure Place where
  path : List Nat := []
  item : Option Nat := none
  deriving DecidableEq, Repr

def Place.under (i : Nat) (place : Place) : Place := { place with path := i :: place.path }

namespace Predicate

def at? : Predicate → List Nat → Option Predicate
  | p, [] => some p
  | p, i :: path => p.operands[i]?.bind fun q => q.at? path

def valueAt? (p : Predicate) (place : Place) : Option Value :=
  match p.at? place.path, place.item with
  | some (.constant v _), none => some v
  | some (.constant (.list vs) _), some i => vs[i]?
  | _, _ => none

def membershipPlaces (collection : Predicate) (i : Nat) (value : List Place) : List Place :=
  match collection with
  | .constant (.list []) _ => []
  | .constant (.list vs) _ => value ++ (List.range vs.length).map fun k => ⟨[i], some k⟩
  | _ => []

def places : Predicate → List Place
  | .comparison _ l r => l.places.map (.under 0) ++ r.places.map (.under 1)
  | .logical op l r =>
    if op = .and ∧ l.isAlwaysTrue then r.places.map (.under 1)
    else l.places.map (.under 0) ++ r.places.map (.under 1)
  | .not p => p.places.map (.under 0)
  | .constant v _ => if v.staysInline then [] else [{}]
  | .conditional t a b =>
    t.places.map (.under 0) ++ a.places.map (.under 1) ++ b.places.map (.under 2)
  | .call method receiver args =>
    match Method.ofName? method, receiver, args with
    | some .equals, some left, [right] => left.places.map (.under 0) ++ right.places.map (.under 1)
    | some .equals, _, _ => []
    | some .containsAny, none, [collection, value] =>
      membershipPlaces collection 0 (value.places.map (.under 1))
    | some .containsAny, some collection, [value] =>
      membershipPlaces collection 0 (value.places.map (.under 1))
    | some .containsAny, _, _ => []
    | none, _, _ => []
  | .member _ | .convert .. | .parameter _ => []

theorem valueAt?_under {p q : Predicate} {i : Nat} (h : p.operands[i]? = some q) (place : Place) :
    p.valueAt? (place.under i) = q.valueAt? place := by
  simp [valueAt?, Place.under, at?, h]

theorem map_valueAt?_under {p q : Predicate} {i : Nat} (h : p.operands[i]? = some q)
    (ps : List Place) : (ps.map (.under i)).map p.valueAt? = ps.map q.valueAt? := by
  rw [List.map_map]
  exact List.map_congr_left fun place _ => valueAt?_under h place

theorem values_membershipPieces {p collection : Predicate} {i : Nat}
    (hc : p.operands[i]? = some collection) {ps : List Place} {f : Fragment}
    (h : ps.map p.valueAt? = f.values.map some) :
    (membershipPlaces collection i ps).map p.valueAt? =
      (membershipPieces collection f).values.map some := by
  fun_cases membershipPieces collection f with
  | case1 => rfl
  | case2 vs declared hne =>
    have hitems : (List.range vs.length).map (fun k => p.valueAt? ⟨[i], some k⟩) = vs.map some := by
      apply List.ext_getElem
      · simp
      · intro k hk hk'
        simp [valueAt?, at?, hc]
    have hvalues : Fragment.values [.text " IN (", .items vs
        (elementType vs (declared.getD .unknown)), .text ")"] = vs := by
      simp [Fragment.values, Fragment.literals, Piece.literals, Function.comp_def]
    rw [membershipPlaces, List.map_append, h, List.map_map, Fragment.values_append, hvalues,
      List.map_append]
    · exact congrArg _ hitems
    · exact hne
  | case3 other h₁ h₂ =>
    rw [membershipPlaces]
    · rfl
    · exact h₁
    · exact h₂

/-- At the places of a condition are the values that a binder takes from its fragment. -/
theorem map_valueAt?_places (policy : ConvertPolicy) (p : Predicate) :
    p.places.map p.valueAt? = (p.fragment policy).values.map some := by
  induction p using Predicate.fragment.induct policy with
  | case1 op left right ihl ihr =>
    rw [places, List.map_append, map_valueAt?_under rfl, map_valueAt?_under rfl, ihl, ihr]
    simp [Predicate.fragment]
  | case2 op left right hbase ih =>
    rw [places, if_pos hbase, map_valueAt?_under rfl, ih]
    simp [Predicate.fragment, hbase]
  | case3 op left right hbase ihl ihr =>
    rw [places, if_neg hbase, List.map_append, map_valueAt?_under rfl, map_valueAt?_under rfl,
      ihl, ihr]
    simp [Predicate.fragment, hbase]
  | case4 operand ih =>
    rw [places, map_valueAt?_under rfl, ih]
    simp [Predicate.fragment]
  | case6 v declared =>
    by_cases hv : v.staysInline
    · simp [places, Predicate.fragment, Fragment.values, Fragment.literals, Piece.literals, hv]
    · simp [places, Predicate.fragment, Fragment.values, Fragment.literals, Piece.literals, hv,
        valueAt?, at?]
  | case7 test ifTrue ifFalse iht iha ihb =>
    rw [places, List.map_append, List.map_append, map_valueAt?_under rfl, map_valueAt?_under rfl,
      map_valueAt?_under rfl, iht, iha, ihb]
    simp [Predicate.fragment]
  | case5 | case10 => rfl
  | case8 operand target h | case9 operand target h => subst h; rfl
  | case11 method left right hm ihl ihr =>
    simp only [places, hm, Predicate.fragment]
    rw [List.map_append, map_valueAt?_under rfl, map_valueAt?_under rfl, ihl, ihr]
    simp
  | case13 method collection value hm ih =>
    simp only [places, hm, Predicate.fragment]
    exact values_membershipPieces rfl ((map_valueAt?_under rfl _).trans ih)
  | case14 method collection value hm ih =>
    simp only [places, hm, Predicate.fragment]
    exact values_membershipPieces rfl ((map_valueAt?_under rfl _).trans ih)
  | case12 method receiver args hm hne =>
    simp only [places, hm, Predicate.fragment]
    rfl
  | case15 method receiver args hm hne hne' =>
    simp only [places, hm, Predicate.fragment]
    rfl
  | case16 method receiver args hm =>
    simp only [places, hm, Predicate.fragment]
    rfl

end Predicate

namespace Predicate

variable {p q : Predicate}

theorem isAlwaysTrue_of_isDatum {v : Value} (h : v.isDatum) (declared : Option ValueType) :
    (constant v declared).isAlwaysTrue = false := by
  cases v <;> first | rfl | cases h

theorem isNullLiteral_of_isDatum {v : Value} (h : v.isDatum) (declared : Option ValueType) :
    (constant v declared).isNullLiteral = false := by
  cases v <;> first | rfl | cases h

theorem Alike.isAlwaysTrue_eq (h : p.Alike q) : p.isAlwaysTrue = q.isAlwaysTrue := by
  cases h with
  | constant h declared =>
    cases h with
    | same | list => rfl
    | datum hv hw => rw [isAlwaysTrue_of_isDatum hv, isAlwaysTrue_of_isDatum hw]
  | _ => rfl

theorem Alike.isNullLiteral_eq (h : p.Alike q) : p.isNullLiteral = q.isNullLiteral := by
  cases h with
  | constant h declared =>
    cases h with
    | same | list => rfl
    | datum hv hw => rw [isNullLiteral_of_isDatum hv, isNullLiteral_of_isDatum hw]
  | _ => rfl

theorem Alike.operator_eq (h : p.Alike q) (op : ComparisonOp) : operator op p = operator op q := by
  rw [operator, operator, h.isNullLiteral_eq]

theorem membershipPlaces_of_isDatum {v : Value} (h : v.isDatum) (declared : Option ValueType)
    (i : Nat) (ps : List Place) : membershipPlaces (.constant v declared) i ps = [] := by
  cases v <;> first | rfl | cases h

theorem membershipPieces_of_isDatum {v : Value} (h : v.isDatum) (declared : Option ValueType)
    (f : Fragment) :
    membershipPieces (.constant v declared) f = [.fault (.collection .constant)] := by
  cases v <;> first | rfl | cases h

/-- A membership test looks at its collection only to see whether it is a list, and empty. -/
theorem membershipPieces_alike (h : p.Alike q) {f g : Fragment}
    (hf : List.Forall₂ Piece.Alike f g) :
    List.Forall₂ Piece.Alike (membershipPieces p f) (membershipPieces q g) := by
  cases h with
  | constant h declared =>
    have hlist : ∀ vs ws, List.Forall₂ Value.Alike vs ws →
        List.Forall₂ Piece.Alike (membershipPieces (.constant (.list vs) declared) f)
          (membershipPieces (.constant (.list ws) declared) g) := by
      intro vs ws hvs
      cases hvs with
      | nil => exact .nil
      | cons hv hvs =>
        exact List.rel_append hf (.cons (.text _) (.cons (.items (.cons hv hvs) _ _)
          (.cons (.text _) .nil)))
    cases h with
    | same =>
      rename_i v
      cases v with
      | list vs => exact hlist vs vs (List.forall₂_same.2 fun v _ => .same v)
      | _ => exact .cons (.fault _) .nil
    | datum hv hw =>
      rw [membershipPieces_of_isDatum hv, membershipPieces_of_isDatum hw]
      exact .cons (.fault _) .nil
    | list h => exact hlist _ _ h
  | _ => exact .cons (.fault _) .nil

theorem membershipPlaces_alike (h : p.Alike q) (i : Nat) (ps : List Place) :
    membershipPlaces p i ps = membershipPlaces q i ps := by
  cases h with
  | constant h declared =>
    cases h with
    | same => rfl
    | datum hv hw =>
      rw [membershipPlaces_of_isDatum hv, membershipPlaces_of_isDatum hw]
    | list h =>
      cases h with
      | nil => rfl
      | cons hv hvs => simp [membershipPlaces, hvs.length_eq]
  | _ => rfl

theorem Alike.fragment_places (policy : ConvertPolicy) (h : p.Alike q) :
    List.Forall₂ Piece.Alike (p.fragment policy) (q.fragment policy) ∧ p.places = q.places := by
  induction p using Predicate.fragment.induct policy generalizing q with
  | case1 op left right ihl ihr =>
    cases h with
    | comparison op hl hr =>
      obtain ⟨hfl, hpl⟩ := ihl hl
      obtain ⟨hfr, hpr⟩ := ihr hr
      simp only [Predicate.fragment, places, hr.operator_eq op, hpl, hpr]
      exact ⟨List.rel_append hfl (.cons (.text _) hfr), trivial⟩
  | case2 op left right hbase ih =>
    cases h with
    | logical op hl hr =>
      obtain ⟨hfr, hpr⟩ := ih hr
      have hbase' := hl.isAlwaysTrue_eq ▸ hbase
      simp only [Predicate.fragment, places, if_pos hbase, if_pos hbase', hpr]
      exact ⟨.cons (.text _) (List.rel_append hfr (.cons (.text _) .nil)), trivial⟩
  | case3 op left right hbase ihl ihr =>
    cases h with
    | logical op hl hr =>
      obtain ⟨hfl, hpl⟩ := ihl hl
      obtain ⟨hfr, hpr⟩ := ihr hr
      have hbase' := hl.isAlwaysTrue_eq ▸ hbase
      simp only [Predicate.fragment, places, if_neg hbase, if_neg hbase', hpl, hpr]
      exact ⟨.cons (.text _) (List.rel_append hfl (.cons (.text _)
        (List.rel_append hfr (.cons (.text _) .nil)))), trivial⟩
  | case4 operand ih =>
    cases h with
    | not h =>
      obtain ⟨hf, hp⟩ := ih h
      simp only [Predicate.fragment, places, hp]
      exact ⟨.cons (.text _) (List.rel_append hf (.cons (.text _) .nil)), trivial⟩
  | case5 path =>
    cases h with
    | member path => exact ⟨.cons (.text _) .nil, rfl⟩
  | case6 v declared =>
    cases h with
    | constant h declared =>
      refine ⟨.cons (.scalar h _ _) .nil, ?_⟩
      obtain ⟨_, rfl⟩ | ⟨hv, hw⟩ := h.staysInline
      · rfl
      · simp [places, hv, hw]
  | case7 test ifTrue ifFalse iht iha ihb =>
    cases h with
    | conditional ht ha hb =>
      obtain ⟨hft, hpt⟩ := iht ht
      obtain ⟨hfa, hpa⟩ := iha ha
      obtain ⟨hfb, hpb⟩ := ihb hb
      simp only [Predicate.fragment, places, hpt, hpa, hpb]
      exact ⟨.cons (.text _) (List.rel_append hft (.cons (.text _) (List.rel_append hfa
        (.cons (.text _) (List.rel_append hfb (.cons (.text _) .nil)))))), trivial⟩
  | case8 operand target hp =>
    cases h with
    | convert h target =>
      subst hp
      exact ⟨.cons (.fault _) .nil, rfl⟩
  | case9 operand target hp =>
    cases h with
    | convert h target =>
      subst hp
      exact ⟨.nil, rfl⟩
  | case10 name =>
    cases h with
    | parameter name => exact ⟨.cons (.fault _) .nil, rfl⟩
  | case11 method left right hm ihl ihr =>
    cases h with
    | call method hr ha =>
      obtain ⟨hl⟩ := hr
      obtain _ | ⟨hr, _ | _⟩ := ha
      obtain ⟨hfl, hpl⟩ := ihl hl
      obtain ⟨hfr, hpr⟩ := ihr hr
      simp only [Predicate.fragment, places, hm, hpl, hpr]
      exact ⟨List.rel_append hfl (.cons (.text _) hfr), trivial⟩
  | case12 method receiver args hm hne =>
    cases h with
    | call method hr ha =>
      -- Each other number of operands has the same fault on both sides.
      rcases hr with hr | _ <;> rcases ha with _ | ⟨h₁, _ | ⟨h₂, ha⟩⟩ <;>
        simp only [Predicate.fragment, places, hm]
      case some.cons.nil => exact (hne _ _ rfl rfl).elim
      all_goals exact ⟨.cons (.fault _) .nil, trivial⟩
  | case13 method collection value hm ih =>
    cases h with
    | call method hr ha =>
      obtain _ | _ := hr
      obtain _ | ⟨hc, _ | ⟨hv, _ | _⟩⟩ := ha
      obtain ⟨hf, hp⟩ := ih hv
      simp only [Predicate.fragment, places, hm, hp, membershipPlaces_alike hc]
      exact ⟨membershipPieces_alike hc hf, trivial⟩
  | case14 method collection value hm ih =>
    cases h with
    | call method hr ha =>
      obtain ⟨hc⟩ := hr
      obtain _ | ⟨hv, _ | _⟩ := ha
      obtain ⟨hf, hp⟩ := ih hv
      simp only [Predicate.fragment, places, hm, hp, membershipPlaces_alike hc]
      exact ⟨membershipPieces_alike hc hf, trivial⟩
  | case15 method receiver args hm hne hne' =>
    cases h with
    | call method hr ha =>
      rcases hr with hr | _ <;> rcases ha with _ | ⟨h₁, _ | ⟨h₂, _ | ⟨h₃, ha⟩⟩⟩ <;>
        simp only [Predicate.fragment, places, hm]
      case some.cons.nil => exact (hne' _ _ rfl rfl).elim
      case none.cons.cons.nil => exact (hne _ _ rfl rfl).elim
      all_goals exact ⟨.cons (.fault _) .nil, trivial⟩
  | case16 method receiver args hm =>
    cases h with
    | call method hr ha =>
      simp only [Predicate.fragment, places, hm]
      exact ⟨.cons (.fault _) .nil, trivial⟩

theorem Alike.pieces (policy : ConvertPolicy) (h : p.Alike q) :
    List.Forall₂ Piece.Alike (p.pieces policy) (q.pieces policy) := by
  unfold Predicate.pieces
  rw [h.isAlwaysTrue_eq]
  split
  · exact .nil
  · exact (h.fragment_places policy).1

theorem map_valueAt?_places_pieces (policy : ConvertPolicy) (p : Predicate) :
    p.places.map p.valueAt? = (p.pieces policy).values.map some := by
  unfold Predicate.pieces
  split
  · next h =>
    -- The bare constant true stays inline, so nothing is bound.
    obtain ⟨declared, rfl⟩ : ∃ declared, p = .constant (.bool true) declared := by
      unfold isAlwaysTrue at h
      split at h
      · exact ⟨_, rfl⟩
      · cases h
    rfl
  · exact map_valueAt?_places policy p

end Predicate

/--
No number, text or date of a condition has an influence on its SQL with placeholders. Of two
conditions that are alike both compilations fail, with the same fault, or both succeed with the
same SQL and the same names of parameters, whose values stand at the same places of the two
conditions.
-/
theorem CompileOptions.compile_bound_ignores_data (policy : ConvertPolicy) (stem : String)
    {p q : Predicate} (h : p.Alike q) :
    let o : CompileOptions := ⟨.bound, policy, stem⟩
    (∃ e, o.compile p = .error e ∧ o.compile q = .error e) ∨
    ∃ c d, o.compile p = .ok c ∧ o.compile q = .ok d ∧ c.sql = d.sql ∧
      c.params.map Parameter.name = d.params.map Parameter.name ∧
      p.places = q.places ∧
      c.params.map (fun r => some r.value) = p.places.map p.valueAt? ∧
      d.params.map (fun r => some r.value) = q.places.map q.valueAt? := by
  intro o
  have hf := h.pieces policy
  have hplaces : p.places = q.places := (h.fragment_places policy).2
  have hvalues (p : Predicate) : ((p.pieces policy).literals.map Prod.fst).map some = _ :=
    (p.map_valueAt?_places_pieces policy).symm
  rw [compile_bound policy stem p, compile_bound policy stem q, Fragment.fault?_eq_of_alike hf]
  cases (q.pieces policy).fault? with
  | some cause => exact .inl ⟨_, rfl, rfl⟩
  | none =>
    refine .inr ⟨_, _, rfl, rfl, Fragment.boundText_eq_of_alike hf _ 0, ?_, hplaces, ?_, ?_⟩
    · rw [Parameter.map_name_numbered, Parameter.map_name_numbered,
        Fragment.length_literals_eq hf]
    · rw [← hvalues, ← Parameter.map_value_numbered, List.map_map]
      rfl
    · rw [← hvalues, ← Parameter.map_value_numbered, List.map_map]
      rfl

/-- A quote that closes its literal, in a text that replaces another. -/
theorem CompileOptions.compile_bound_ignores_closing_quote :
    let p (name : String) (ids : List Value) : Predicate :=
      .logical .and (.eq (.member "Name") (.lit (.string name)))
        (.containsAny (.lit (.list ids)) (.member "Id"))
    let a := p "Ann" [.int 1, .null, .string "x"]
    let b := p "' OR 1=1 --" [.string "2) OR (1=1", .null, .int 7]
    let o : CompileOptions := ⟨.bound, .reject, "p"⟩
    a.Alike b ∧
    ∃ c d, o.compile a = .ok c ∧ o.compile b = .ok d ∧ c.sql = d.sql := by
  intro p a b o
  have h : a.Alike b :=
    .logical _ (.comparison _ (.member _) (.constant (.datum rfl rfl) _))
      (.call _ .none (.cons (.constant (.list (.cons (.datum rfl rfl) (.cons (.same _)
        (.cons (.datum rfl rfl) .nil)))) _) (.cons (.member _) .nil)))
  refine ⟨h, ?_⟩
  obtain ⟨e, he, _⟩ | ⟨c, d, hc, hd, hsql, _⟩ := compile_bound_ignores_data .reject "p" h
  · cases he
  · exact ⟨c, d, hc, hd, hsql⟩

end SqlFilter
