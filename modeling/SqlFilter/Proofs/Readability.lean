import SqlFilter.Proofs.Lexemes

/-!
Unique readability. From the lexemes of a bound compilation and the values of its parameters a
reader finds the sorted condition again, so that no grouping gets lost.
-/
namespace SqlFilter

/-- Takes a node of a role from the front, with the values of its holes. -/
abbrev Reader := Role → List Lexeme → List Value → Option (Predicate × List Lexeme × List Value)

namespace Lexeme

def isKeyword : Lexeme → Bool
  | .keyword _ => true
  | _ => false

/-- Operands start so, and no condition that is not of operands itself. -/
def startsOperand : List Lexeme → Bool
  | .field _ :: _ | .null :: _ | .bit _ :: _ | .hole :: _ => true
  | .opening :: .keyword .case :: _ => true
  | _ => false

/-- What follows does not make a comparison or a membership test of an operand. -/
def endsCondition : List Lexeme → Bool
  | .symbol _ :: _ | .keyword .is :: _ | .keyword .isIn :: _ => false
  | _ => true

def expect (l : Lexeme) : List Lexeme → Option (List Lexeme)
  | [] => none
  | k :: ls => if k = l then some ls else none

@[simp] theorem expect_cons (l : Lexeme) (ls : List Lexeme) : expect l (l :: ls) = some ls :=
  if_pos rfl

def readItems : List Lexeme → List Value → Option (List Value × List Lexeme × List Value)
  | .closing :: ls, vs => some ([], ls, vs)
  | .hole :: ls, v :: vs => do
    let (items, ls, vs) ← readItems ls vs
    return (v :: items, ls, vs)
  | _, _ => none

def readOperand (read : Reader) :
    List Lexeme → List Value → Option (Predicate × List Lexeme × List Value)
  | .field path :: ls, vs => some (.member path, ls, vs)
  | .null :: ls, vs => some (.lit .null, ls, vs)
  | .bit b :: ls, vs => some (.lit (.bool b), ls, vs)
  | .hole :: ls, v :: vs => some (.lit v, ls, vs)
  | .opening :: .keyword .case :: .keyword .when :: ls, vs => do
    let (test, ls, vs) ← read .condition ls vs
    let ls ← expect (.keyword .thenArm) ls
    let (ifTrue, ls, vs) ← read .operand ls vs
    let ls ← expect (.keyword .elseArm) ls
    let (ifFalse, ls, vs) ← read .operand ls vs
    let ls ← expect (.keyword .caseEnd) ls
    let ls ← expect .closing ls
    return (.conditional test ifTrue ifFalse, ls, vs)
  | _, _ => none

/-- The condition that an operand is the first part of, or the operand if it ends there. -/
def readAfter (read : Reader) (left : Predicate) :
    List Lexeme → List Value → Option (Predicate × List Lexeme × List Value)
  | .symbol op :: ls, vs => do
    let (right, ls, vs) ← read .operand ls vs
    return (.comparison op left right, ls, vs)
  | .keyword .is :: .keyword .not :: .null :: ls, vs =>
    some (.comparison .neq left (.lit .null), ls, vs)
  | .keyword .is :: .null :: ls, vs => some (.comparison .eq left (.lit .null), ls, vs)
  | .keyword .isIn :: .opening :: ls, vs => do
    let (items, ls, vs) ← readItems ls vs
    return (.containsAny (.lit (.list items)) left, ls, vs)
  | ls, vs => some (left, ls, vs)

/-- After an opening parenthesis: two conditions, or one behind the constant true. -/
def readGroup (read : Reader) (ls : List Lexeme) (vs : List Value) :
    Option (Predicate × List Lexeme × List Value) := do
  let (left, ls, vs) ← read .condition ls vs
  match ls with
  | .connective op :: ls =>
    let (right, ls, vs) ← read .condition ls vs
    let ls ← expect .closing ls
    return (.logical op left right, ls, vs)
  | ls =>
    let ls ← expect .closing ls
    return (.and .always left, ls, vs)

def readCondition (read : Reader) (ls : List Lexeme) (vs : List Value) :
    Option (Predicate × List Lexeme × List Value) :=
  if startsOperand ls then do
    let (left, ls, vs) ← read .operand ls vs
    readAfter read left ls vs
  else
    match ls with
    | .opening :: .keyword .not :: ls => do
      let (operand, ls, vs) ← read .condition ls vs
      let ls ← expect .closing ls
      return (.not operand, ls, vs)
    | .opening :: ls => readGroup read ls vs
    | _ => none

def read : Nat → Reader
  | 0, _, _, _ => none
  | n + 1, .operand, ls, vs => readOperand (read n) ls vs
  | n + 1, .condition, ls, vs => readCondition (read n) ls vs

theorem read_succ_condition (n : Nat) (ls : List Lexeme) (vs : List Value) :
    read (n + 1) .condition ls vs = readCondition (read n) ls vs := rfl

end Lexeme

namespace Predicate
open Lexeme Fragment

variable {policy : ConvertPolicy} {role : Role} {p q r : Predicate} {read : Reader}

/-- The reader finds a node again, whatever follows it. -/
def ReadBack (policy : ConvertPolicy) (read : Reader) (role : Role) (p : Predicate) : Prop :=
  ∀ ls vs, role = .operand ∨ endsCondition ls →
    read role (p.lexemes ++ ls) ((p.fragment policy).values ++ vs) = some (p, ls, vs)

theorem Sorted.head_lexemes (h : Sorted role p) :
    ∃ l ls, p.lexemes = l :: ls ∧ l.isKeyword = false := by
  induction h with
  | field h => exact ⟨_, _, rfl, rfl⟩
  | @constant v h => exact ⟨_, _, rfl, by cases v <;> rfl⟩
  | conditional ht ha hb => exact ⟨_, _, rfl, rfl⟩
  | comparison op hl hr ihl =>
    obtain ⟨l, ls, hls, hl⟩ := ihl
    exact ⟨l, _, by rw [lexemes, hls]; rfl, hl⟩
  | logical op hl hr =>
    rw [lexemes, if_neg (by simp [hl.isAlwaysTrue_eq_false])]
    exact ⟨_, _, rfl, rfl⟩
  | based hr => exact ⟨_, _, rfl, rfl⟩
  | not h => exact ⟨_, _, rfl, rfl⟩
  | membership hne hv ih =>
    obtain ⟨l, ls, hls, hl⟩ := ih
    exact ⟨l, _, by rw [containsAny, lit, lexemes, hls]; rfl, hl⟩

theorem Sorted.startsOperand (h : Sorted .operand p) (ls : List Lexeme) :
    startsOperand (p.lexemes ++ ls) := by
  cases h with
  | field h => rfl
  | @constant v h => cases v <;> rfl
  | conditional ht ha hb => rfl

theorem Sorted.eq_null (h : Sorted .operand p) (hp : p.isNullLiteral) : p = .lit .null := by
  cases h with
  | @constant v h =>
    cases v with
    | null => rfl
    | _ => cases hp
  | _ => cases hp

theorem values_items (items : List Value) (element : ValueType) :
    Fragment.values [.text " IN (", .items items element, .text ")"] = items := by
  simp [Fragment.values, Fragment.literals, Piece.literals, Function.comp_def]

theorem readItems_replicate (items : List Value) (ls : List Lexeme) (vs : List Value) :
    readItems (List.replicate items.length .hole ++ .closing :: ls) (items ++ vs) =
      some (items, ls, vs) := by
  induction items with
  | nil => rfl
  | cons v items ih => simp [readItems, List.replicate_succ, ih]

theorem readAfter_of_endsCondition {ls : List Lexeme} (h : endsCondition ls) (vs : List Value) :
    readAfter read p ls vs = some (p, ls, vs) := by
  unfold readAfter
  split <;> first | rfl | cases h

theorem readOperand_constant {v : Value} (h : v.isSqlNull → v = .null) (ls : List Lexeme)
    (vs : List Value) :
    readOperand read ((lit v).lexemes ++ ls) (((lit v).fragment policy).values ++ vs) =
      some (lit v, ls, vs) := by
  rcases Value.eq_null_or_eq_bool_or_hole h with rfl | ⟨b, rfl⟩ | ⟨hv, hhole⟩
  · rfl
  · rfl
  · have hlexemes : (lit v).lexemes = [.hole] := by rw [lit, lexemes, hhole]
    have hvalues : ((lit v).fragment policy).values = [v] := by
      simp [lit, fragment, Fragment.values, Fragment.literals, Piece.literals, hv]
    rw [hlexemes, hvalues]
    rfl

theorem readOperand_conditional (hp : p.ReadBack policy read .condition)
    (hq : q.ReadBack policy read .operand) (hr : r.ReadBack policy read .operand)
    (ls : List Lexeme) (vs : List Value) :
    readOperand read ((conditional p q r).lexemes ++ ls)
      (((conditional p q r).fragment policy).values ++ vs) = some (.conditional p q r, ls, vs) := by
  simp only [lexemes, fragment, Fragment.values_text, Fragment.values_append, Fragment.values_nil,
    List.cons_append, List.append_assoc, List.nil_append, List.append_nil, readOperand]
  rw [hp _ _ (.inr rfl)]
  simp only [Option.bind_eq_bind, Option.bind_some, expect_cons]
  rw [hq _ _ (.inl rfl)]
  simp only [Option.bind_some, expect_cons]
  rw [hr _ _ (.inl rfl)]
  simp only [Option.bind_some, expect_cons]
  rfl

theorem readAfter_comparison (op : ComparisonOp) (hq : q.ReadBack policy read .operand)
    (hnull : q.isNullLiteral → q = .lit .null) (ls : List Lexeme) (vs : List Value) :
    readAfter read p (operatorLexemes op q ++ (q.lexemes ++ ls))
      ((q.fragment policy).values ++ vs) = some (.comparison op p q, ls, vs) := by
  have hsymbol : readAfter read p (.symbol op :: (q.lexemes ++ ls))
      ((q.fragment policy).values ++ vs) = some (.comparison op p q, ls, vs) := by
    rw [readAfter, hq _ _ (.inl rfl)]
    rfl
  unfold operatorLexemes
  split
  · next h =>
    obtain rfl := hnull h
    cases op with
    | eq | neq => rfl
    | _ => exact hsymbol
  · exact hsymbol

theorem readAfter_membership (read : Reader) (items : List Value) (ls : List Lexeme)
    (vs : List Value) :
    readAfter read p
      (.keyword .isIn :: .opening :: (List.replicate items.length .hole ++ .closing :: ls))
      (items ++ vs) = some (.containsAny (.lit (.list items)) p, ls, vs) := by
  rw [readAfter, readItems_replicate]
  rfl

theorem readGroup_logical (op : LogicalOp) (hp : p.ReadBack policy read .condition)
    (hq : q.ReadBack policy read .condition) (ls : List Lexeme) (vs : List Value) :
    readGroup read (p.lexemes ++ .connective op :: (q.lexemes ++ .closing :: ls))
      ((p.fragment policy).values ++ ((q.fragment policy).values ++ vs)) =
      some (.logical op p q, ls, vs) := by
  rw [readGroup, hp _ _ (.inr rfl)]
  simp only [Option.bind_eq_bind, Option.bind_some]
  rw [hq _ _ (.inr rfl)]
  simp only [Option.bind_some, expect_cons]
  rfl

theorem readGroup_based (hp : p.ReadBack policy read .condition) (ls : List Lexeme)
    (vs : List Value) :
    readGroup read (p.lexemes ++ .closing :: ls) ((p.fragment policy).values ++ vs) =
      some (.and .always p, ls, vs) := by
  rw [readGroup, hp _ _ (.inr rfl)]
  simp only [Option.bind_eq_bind, Option.bind_some, expect_cons]
  rfl

/-- A condition behind a parenthesis is no mark of another node. -/
theorem readCondition_group (h : Sorted role p) (ls : List Lexeme) (vs : List Value) :
    readCondition read (.opening :: (p.lexemes ++ ls)) vs =
      readGroup read (p.lexemes ++ ls) vs := by
  obtain ⟨l, ks, hks, hl⟩ := h.head_lexemes
  rw [hks, List.cons_append]
  cases l with
  | keyword k => cases hl
  | _ => rfl

theorem readCondition_not (hp : p.ReadBack policy read .condition) (ls : List Lexeme)
    (vs : List Value) :
    readCondition read (.opening :: .keyword .not :: (p.lexemes ++ .closing :: ls))
      ((p.fragment policy).values ++ vs) = some (.not p, ls, vs) := by
  unfold readCondition
  rw [if_neg (by simp [Lexeme.startsOperand])]
  simp only
  rw [hp _ _ (.inr rfl)]
  simp only [Option.bind_eq_bind, Option.bind_some, expect_cons]
  rfl

/-- A condition that starts with an operand goes on after it. -/
theorem readCondition_operand (h : Sorted .operand p) (hp : p.ReadBack policy read .operand)
    (ls : List Lexeme) (vs : List Value) :
    readCondition read (p.lexemes ++ ls) ((p.fragment policy).values ++ vs) =
      readAfter read p ls vs := by
  unfold readCondition
  rw [if_pos (h.startsOperand ls), hp _ _ (.inl rfl)]
  rfl

/-- The reader finds every sorted tree again if it may go as deep as the tree does. -/
theorem Sorted.readBack (policy : ConvertPolicy) {n : Nat} (h : Sorted role p)
    (hn : 2 * p.nodeCount ≤ n) : p.ReadBack policy (Lexeme.read n) role := by
  induction n generalizing role p with
  | zero => exact absurd p.nodeCount_pos (by omega)
  | succ n ih =>
    intro ls vs hls
    cases h with
    | @field role path h =>
      cases role with
      | operand => rfl
      | condition =>
        -- A field is read as an operand first, which takes a step of its own.
        have hn : 1 ≤ n := by
          rw [nodeCount] at hn
          omega
        obtain ⟨n, rfl⟩ := Nat.exists_eq_add_of_le' hn
        rw [read_succ_condition]
        have hfield : (member path).ReadBack policy (Lexeme.read (n + 1)) .operand :=
          fun _ _ _ => rfl
        have hends := hls.resolve_left (by decide)
        rw [readCondition_operand (.field h) hfield, readAfter_of_endsCondition hends]
    | constant h => exact readOperand_constant h ls vs
    | conditional ht ha hb =>
      rw [nodeCount] at hn
      exact readOperand_conditional (ih ht (by omega)) (ih ha (by omega)) (ih hb (by omega)) ls vs
    | @comparison op left right hl hr =>
      rw [nodeCount] at hn
      have h := readAfter_comparison (p := left) op (ih hr (by omega)) hr.eq_null ls vs
      rw [← readCondition_operand hl (ih hl (by omega))] at h
      simpa [lexemes, fragment, read_succ_condition] using h
    | @logical op left right hl hr =>
      rw [nodeCount] at hn
      have h := readGroup_logical op (ih hl (by omega)) (ih hr (by omega)) ls vs
      rw [← readCondition_group hl] at h
      simpa [lexemes, fragment, hl.isAlwaysTrue_eq_false, read_succ_condition] using h
    | based hr =>
      rw [Predicate.and, nodeCount] at hn
      have h := readGroup_based (ih hr (by omega)) ls vs
      rw [← readCondition_group hr] at h
      simpa [Predicate.and, always, isAlwaysTrue, lexemes, fragment, read_succ_condition] using h
    | not h =>
      rw [nodeCount] at hn
      have h := readCondition_not (ih h (by omega)) ls vs
      simpa [lexemes, fragment, read_succ_condition] using h
    | @membership items hne value hv =>
      rw [containsAny, nodeCount, nodeCounts, nodeCounts] at hn
      have h := readAfter_membership (p := value) (Lexeme.read n) items ls vs
      rw [← readCondition_operand hv (ih hv (by omega))] at h
      rw [fragment_containsAny hne, Fragment.values_append, values_items]
      simpa [containsAny, lit, lexemes, read_succ_condition] using h

theorem Sorted.fault?_eq_none (policy : ConvertPolicy) (h : Sorted role p) :
    (p.fragment policy).fault? = none := by
  have hclose : fault? [.text ")"] = none := rfl
  induction h with
  | field h => rfl
  | constant h => rfl
  | conditional ht ha hb iht iha ihb =>
    have hend : fault? [.text " END)"] = none := rfl
    rw [fragment, fault?_cons rfl, fault?_append, iht, fault?_cons rfl, fault?_append, iha,
      fault?_cons rfl, fault?_append, ihb, hend]
    rfl
  | comparison op hl hr ihl ihr =>
    rw [fragment, fault?_append, ihl, fault?_cons rfl, ihr]
    rfl
  | logical op hl hr ihl ihr =>
    rw [fragment, if_neg (by simp [hl.isAlwaysTrue_eq_false]), fault?_cons rfl, fault?_append, ihl,
      fault?_cons rfl, fault?_append, ihr, hclose]
    rfl
  | based hr ih =>
    rw [Predicate.and, fragment, if_pos ⟨rfl, rfl⟩, fault?_cons rfl, fault?_append, ih, hclose]
    rfl
  | not h ih =>
    rw [fragment, fault?_cons rfl, fault?_append, ih, hclose]
    rfl
  | membership hne hv ih =>
    rw [fragment_containsAny hne, fault?_append, ih]
    rfl

end Predicate

namespace CompileOptions
open Lexeme Predicate

variable {stem : String} {p q : Predicate}

theorem compile_sorted (policy : ConvertPolicy) (stem : String) (h : Sorted .condition p) :
    ∃ c, compile ⟨.bound, policy, stem⟩ p = .ok c ∧
      c.sql = write ⟨.bound, policy, stem⟩ 0 (p.fragment policy) ∧
      c.params.map Parameter.value = (p.fragment policy).values := by
  have hpieces : p.pieces policy = p.fragment policy := by
    rw [pieces, h.isAlwaysTrue_eq_false]
    rfl
  refine ⟨_, compile_eq_ok_iff.2 ⟨?_, rfl⟩, ?_, ?_⟩
  · exact hpieces ▸ h.fault?_eq_none policy
  · rw [← hpieces]
  · rw [← hpieces]
    exact Parameter.map_value_numbered _ _ _

/--
The text of a bound compilation loses no grouping. Two sorted conditions compile, and where they
have the same text and the same parameters they are the same.
-/
theorem compile_bound_sorted_injective (policy : ConvertPolicy) (hstem : Text.isWordText stem)
    (hp : Sorted .condition p) (hq : Sorted .condition q) :
    let o : CompileOptions := ⟨.bound, policy, stem⟩
    ∃ c d, o.compile p = .ok c ∧ o.compile q = .ok d ∧
      (c.sql = d.sql → c.params = d.params → p = q) := by
  intro o
  obtain ⟨c, hc, hcsql, hcvalues⟩ := compile_sorted policy stem hp
  obtain ⟨d, hd, hdsql, hdvalues⟩ := compile_sorted policy stem hq
  refine ⟨c, d, hc, hd, fun hsql hparams => ?_⟩
  have hlexemes : p.lexemes = q.lexemes := by
    calc
      p.lexemes = lex c.sql := by rw [hcsql, lex_write_fragment hstem hp]
      _ = lex d.sql := by rw [hsql]
      _ = q.lexemes := by rw [hdsql, lex_write_fragment hstem hq]
  have hvalues : (p.fragment policy).values = (q.fragment policy).values := by
    rw [← hcvalues, ← hdvalues, hparams]
  -- One reader that may go deep enough for both.
  let n := 2 * p.nodeCount + 2 * q.nodeCount
  have hreadp := hp.readBack policy (n := n) (by omega) [] [] (.inr rfl)
  have hreadq := hq.readBack policy (n := n) (by omega) [] [] (.inr rfl)
  rw [hlexemes, hvalues, hreadq] at hreadp
  simpa using hreadp.symm

/-- The parameters of both are the same here, so the texts are not. -/
theorem compile_bound_sorted_injective_regrouped :
    let a := Predicate.eq (.member "A") (.lit (.int 1))
    let b := Predicate.isNull "B"
    let c := Predicate.containsAny (.lit (.list [.int 2])) (.member "C.D")
    let p := (a.or b).and c
    let q := a.or (b.and c)
    let o : CompileOptions := ⟨.bound, .reject, "p"⟩
    Text.isWordText "p" ∧ p.Sorted .condition ∧ q.Sorted .condition ∧
    ∃ x y, o.compile p = .ok x ∧ o.compile q = .ok y ∧ ¬ (x.sql = y.sql ∧ x.params = y.params) := by
  intro a b c p q o
  have ha : a.Sorted .condition := .comparison _ (.field (by decide)) (.constant nofun)
  have hb : b.Sorted .condition := .comparison _ (.field (by decide)) (.constant fun _ => rfl)
  have hc : c.Sorted .condition := .membership (by simp) (.field (by decide))
  have hp : p.Sorted .condition := .logical _ (.logical _ ha hb) hc
  have hq : q.Sorted .condition := .logical _ ha (.logical _ hb hc)
  have hstem : Text.isWordText "p" := by decide
  obtain ⟨x, y, hx, hy, h⟩ := compile_bound_sorted_injective .reject hstem hp hq
  refine ⟨hstem, hp, hq, x, y, hx, hy, fun ⟨hsql, hparams⟩ => ?_⟩
  injection h hsql hparams with hop
  cases hop

end CompileOptions

end SqlFilter
