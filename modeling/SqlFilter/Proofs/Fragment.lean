import SqlFilter.Compiler
import Mathlib.Tactic

/-!
Fragments: the SQL of a condition as fixed text with holes for its literals. The fragment of a
condition does not depend on the channel, and each channel fills its holes from left to right.
-/
namespace SqlFilter

inductive Piece
  | text (s : String)
  | scalar (v : Value) (type : ValueType)
  | items (vs : List Value) (element : ValueType)
  | fault (cause : Unsupported)
  deriving DecidableEq, Repr

abbrev Fragment := List Piece

namespace Predicate

def membershipPieces (collection : Predicate) (value : Fragment) : Fragment :=
  match collection with
  | .constant (.list []) _ => []
  | .constant (.list items) declared =>
    value ++ [.text " IN (", .items items (elementType items (declared.getD .unknown)), .text ")"]
  | other => [.fault (.collection other.kind)]

def fragment (policy : ConvertPolicy) : Predicate → Fragment
  | .comparison op left right =>
    left.fragment policy ++ .text (" " ++ operator op right ++ " ") :: right.fragment policy
  | .logical op left right =>
    if op = .and ∧ left.isAlwaysTrue then .text "(" :: (right.fragment policy ++ [.text ")"])
    else
      .text "(" :: (left.fragment policy ++ .text (" " ++ op.keyword ++ " ") ::
        (right.fragment policy ++ [.text ")"]))
  | .not operand => .text "(NOT " :: (operand.fragment policy ++ [.text ")"])
  | .member path => [.text path]
  | .constant v declared => [.scalar v (declared.getD v.type)]
  | .conditional test ifTrue ifFalse =>
    .text "(CASE WHEN " :: (test.fragment policy ++ .text " THEN " ::
      (ifTrue.fragment policy ++ .text " ELSE " :: (ifFalse.fragment policy ++ [.text " END)"])))
  | .convert _ target =>
    match policy with
    | .reject => [.fault (.cast target)]
    | .drop => []
  | .parameter name => [.fault (.record name)]
  | .call method receiver args =>
    match Method.ofName? method, receiver, args with
    | some .equals, some left, [right] =>
      left.fragment policy ++ .text " = " :: right.fragment policy
    | some .equals, _, _ => [.fault .equalsOperands]
    | some .containsAny, none, [collection, value] =>
      membershipPieces collection (value.fragment policy)
    | some .containsAny, some collection, [value] =>
      membershipPieces collection (value.fragment policy)
    | some .containsAny, _, _ => [.fault .membershipOperands]
    | none, _, _ => [.fault (.method method)]

end Predicate

def Piece.walk : Piece → Walk String
  | .text s => return s
  | .scalar v type => modifyGet (·.scalar v type)
  | .items vs element => modifyGet (·.items vs element)
  | .fault cause => throw cause

def Fragment.walk : Fragment → Walk String
  | [] => return ""
  | p :: f => do
    let s ← p.walk
    let t ← Fragment.walk f
    return s ++ t

namespace Fragment

theorem walk_append (f g : Fragment) :
    walk (f ++ g) = do
      let s ← walk f
      let t ← walk g
      return s ++ t := by
  induction f with
  | nil => simp only [List.nil_append, walk, pure_bind, String.empty_append, bind_pure]
  | cons p f ih =>
    simp only [List.cons_append, walk, ih, bind_assoc, pure_bind, String.append_assoc]

theorem walk_text (s : String) (f : Fragment) :
    walk (.text s :: f) = do
      let t ← walk f
      return s ++ t := by
  simp only [walk, Piece.walk, pure_bind]

theorem walk_singleton (p : Piece) : walk [p] = p.walk := by
  simp only [walk, pure_bind, String.append_empty, bind_pure]

end Fragment

namespace Predicate
open Fragment

theorem membership_eq_walk (collection : Predicate) (value : Fragment) :
    membership collection (walk value) = walk (membershipPieces collection value) := by
  fun_cases membershipPieces collection value with
  | case1 => rfl
  | case2 items declared h =>
    rw [membership, walk_append]
    · simp only [walk, Piece.walk, bind_assoc, pure_bind, String.append_assoc, String.append_empty]
    · exact h
  | case3 other h1 h2 => rw [membership]; rfl; exact h1; exact h2

theorem equality_eq_scalar (path : String) (v : Value) (type : ValueType) :
    (modifyGet (·.equality path v type) : Walk String) = do
      let s ← modifyGet (·.scalar v type)
      return path ++ " = " ++ s := by
  funext c
  rw [show (fun c : Channel => c.equality path v type) = _ from
    funext fun c => c.equality_eq_scalar path v type]
  rfl

/-- The visit of a condition writes its fragment, whatever the channel. -/
theorem visit_eq_walk (policy : ConvertPolicy) (p : Predicate) :
    p.visit policy = walk (p.fragment policy) := by
  fun_induction visit policy p with
  | case1 op left right ihl ihr =>
    simp only [fragment, ihl, ihr, walk_append, walk_text, bind_assoc, pure_bind,
      String.append_assoc]
  | case2 op left right h ih =>
    simp only [fragment, if_pos h, ih, walk_append, walk_text, walk_singleton, Piece.walk,
      bind_assoc, pure_bind, String.append_assoc]
  | case3 op left right h ihl ihr =>
    simp only [fragment, if_neg h, ihl, ihr, walk_append, walk_text, walk_singleton, Piece.walk,
      bind_assoc, pure_bind, String.append_assoc]
  | case4 operand ih =>
    simp only [fragment, ih, walk_append, walk_text, walk_singleton, Piece.walk, bind_assoc,
      pure_bind, String.append_assoc]
  | case5 path => simp only [fragment, walk_singleton, Piece.walk]
  | case6 v declared => simp only [fragment, walk_singleton, Piece.walk]
  | case7 test ifTrue ifFalse iht iha ihb =>
    simp only [fragment, iht, iha, ihb, walk_append, walk_text, walk_singleton, Piece.walk,
      bind_assoc, pure_bind, String.append_assoc]
  | case8 operand target h => subst h; rfl
  | case9 operand target h => subst h; rfl
  | case10 name => rfl
  | case11 method path v declared hm =>
    -- The short form for a field and a constant writes what the general form would.
    simp only [fragment, hm, equality_eq_scalar, List.singleton_append, walk_text,
      walk_singleton, Piece.walk, bind_assoc, pure_bind, String.append_assoc]
  | case12 method left right _ hm ihl ihr =>
    simp only [fragment, hm, ihl, ihr, walk_append, walk_text, bind_assoc, pure_bind,
      String.append_assoc]
  | case14 method collection value hm ih | case15 method collection value hm ih =>
    simp only [fragment, hm, ih, membership_eq_walk]
  | case13 method receiver args hm | case16 method receiver args hm
  | case17 method receiver args hm =>
    simp only [fragment, hm, walk_singleton, Piece.walk]

end Predicate

namespace Piece

def fault? : Piece → Option Unsupported
  | .fault cause => some cause
  | _ => none

def inlineText : Piece → String
  | .text s => s
  | .scalar v type => v.literal type
  | .items vs element => Value.inList vs element
  | .fault _ => ""

/-- The literals of a piece that a binder takes, each with its type. -/
def literals : Piece → List (Value × ValueType)
  | .scalar v type => if v.staysInline then [] else [(v, type)]
  | .items vs element => vs.map (·, element)
  | .text _ | .fault _ => []

def boundText (nameAt : Nat → String) (i : Nat) : Piece → String
  | .text s => s
  | .scalar v type => if v.staysInline then v.literal type else nameAt i
  | .items vs _ => ", ".intercalate ((List.range' i vs.length).map nameAt)
  | .fault _ => ""

end Piece

namespace Fragment

def fault? (f : Fragment) : Option Unsupported := f.findSome? Piece.fault?

def reached (f : Fragment) : Fragment := f.takeWhile (·.fault?.isNone)

def inlineText (f : Fragment) : String := String.join (f.map Piece.inlineText)

def literals (f : Fragment) : List (Value × ValueType) := f.flatMap Piece.literals

def boundText (nameAt : Nat → String) (i : Nat) : Fragment → String
  | [] => ""
  | p :: f => p.boundText nameAt i ++ boundText nameAt (i + p.literals.length) f

def outcome (f : Fragment) (s : String) : Except Unsupported String :=
  match f.fault? with
  | some cause => .error cause
  | none => .ok s

end Fragment

def Parameter.numbered (nameAt : Nat → String) (i : Nat) :
    List (Value × ValueType) → List Parameter
  | [] => []
  | (v, type) :: ls => ⟨nameAt i, v, SqlType.ofValue v type⟩ :: numbered nameAt (i + 1) ls

theorem Parameter.numbered_append (nameAt : Nat → String) (i : Nat)
    (ls ms : List (Value × ValueType)) :
    numbered nameAt i (ls ++ ms) =
      numbered nameAt i ls ++ numbered nameAt (i + ls.length) ms := by
  induction ls generalizing i with
  | nil => rfl
  | cons l ls ih =>
    simp only [List.cons_append, numbered, ih, List.length_cons, Nat.add_assoc, Nat.add_comm 1]

@[simp] theorem Parameter.length_numbered (nameAt : Nat → String) (i : Nat)
    (ls : List (Value × ValueType)) : (numbered nameAt i ls).length = ls.length := by
  induction ls generalizing i with
  | nil => rfl
  | cons l ls ih => simp [numbered, ih]

theorem Parameter.map_name_numbered (nameAt : Nat → String) (i : Nat)
    (ls : List (Value × ValueType)) :
    (numbered nameAt i ls).map Parameter.name = (List.range' i ls.length).map nameAt := by
  induction ls generalizing i with
  | nil => rfl
  | cons l ls ih => simp [numbered, ih, List.range'_succ]

theorem Parameter.map_value_numbered (nameAt : Nat → String) (i : Nat)
    (ls : List (Value × ValueType)) :
    (numbered nameAt i ls).map Parameter.value = ls.map Prod.fst := by
  induction ls generalizing i with
  | nil => rfl
  | cons l ls ih => simp [numbered, ih]

namespace Binder

def extend (b : Binder) (ls : List (Value × ValueType)) : Binder :=
  { b with
    index := b.index + ls.length
    params := b.params ++ Parameter.numbered b.nameAt b.index ls }

@[simp] theorem extend_nil (b : Binder) : b.extend [] = b := by simp [extend, Parameter.numbered]

theorem extend_append (b : Binder) (ls ms : List (Value × ValueType)) :
    b.extend (ls ++ ms) = (b.extend ls).extend ms := by
  simp only [extend, Parameter.numbered_append, List.length_append, List.append_assoc,
    Nat.add_assoc]
  rfl

theorem bind_eq (b : Binder) (v : Value) (type : ValueType) :
    b.bind v type = (b.nameAt b.index, b.extend [(v, type)]) := rfl

theorem bindAll_eq (b : Binder) (vs : List Value) (type : ValueType) :
    b.bindAll vs type =
      ((List.range' b.index vs.length).map b.nameAt, b.extend (vs.map (·, type))) := by
  induction vs generalizing b with
  | nil => simp [bindAll]
  | cons v vs ih =>
    have hb : (b.extend [(v, type)]).index = b.index + 1 := rfl
    have he := extend_append b [(v, type)] (vs.map (·, type))
    rw [bindAll, bind_eq]
    simp only [ih, hb, List.map_cons, List.length_cons, List.range'_succ]
    rw [← he]
    rfl

end Binder

namespace Fragment

theorem run_walk_cons {p : Piece} {f : Fragment} {c d : Channel} {s : String}
    (h : p.walk.run.run c = (.ok s, d)) :
    (walk (p :: f)).run.run c =
      (((walk f).run.run d).1.map (s ++ ·), ((walk f).run.run d).2) := by
  simp only [walk, ExceptT.run_bind, StateT.run_bind, h]
  change StateT.run (ExceptT.run (do let t ← walk f; return s ++ t : Walk String)) d = _
  simp only [ExceptT.run_bind, StateT.run_bind]
  cases hr : (walk f).run.run d with
  | mk r d => cases r <;> rfl

theorem fault?_cons {p : Piece} (hp : p.fault? = none) (f : Fragment) :
    fault? (p :: f) = f.fault? := by
  simp [fault?, hp]

theorem reached_cons {p : Piece} (hp : p.fault? = none) (f : Fragment) :
    reached (p :: f) = p :: f.reached := by
  simp [reached, hp]

theorem reached_of_fault?_eq_none {f : Fragment} (h : f.fault? = none) : f.reached = f := by
  induction f with
  | nil => rfl
  | cons p f ih =>
    have hp : p.fault? = none := by simp_all [fault?]
    rw [fault?_cons hp] at h
    rw [reached_cons hp, ih h]

theorem outcome_cons {p : Piece} (hp : p.fault? = none) (f : Fragment) (s t : String) :
    outcome (p :: f) (s ++ t) = (f.outcome t).map (s ++ ·) := by
  unfold outcome
  rw [fault?_cons hp]
  cases f.fault? <;> rfl

theorem run_walk_inline (f : Fragment) :
    (walk f).run.run .inline = (f.outcome f.inlineText, .inline) := by
  induction f with
  | nil => rfl
  | cons p f ih =>
    cases hp : p.fault? with
    | some cause =>
      cases p <;> cases hp
      rfl
    | none =>
      have hw : p.walk.run.run .inline = (.ok p.inlineText, .inline) := by
        cases p <;> first | rfl | cases hp
      rw [run_walk_cons hw, ih, ← outcome_cons hp]
      simp only [inlineText, List.map_cons, String.join_cons]

theorem run_walk_bound_piece {p : Piece} (hp : p.fault? = none) (b : Binder) :
    p.walk.run.run (.bound b) =
      (.ok (p.boundText b.nameAt b.index), .bound (b.extend p.literals)) := by
  cases p with
  | text s => simp [Piece.walk, Piece.boundText, Piece.literals]; rfl
  | scalar v type =>
    change (let r := (Channel.bound b).scalar v type; (Except.ok r.1, r.2)) = _
    by_cases hv : v.staysInline
    · simp [Channel.scalar, Piece.boundText, Piece.literals, hv]
    · simp [Channel.scalar, Piece.boundText, Piece.literals, hv, Binder.bind_eq]
  | items vs element =>
    change (let r := (Channel.bound b).items vs element; (Except.ok r.1, r.2)) = _
    simp [Channel.items, Piece.boundText, Piece.literals, Binder.bindAll_eq]
  | fault cause => cases hp

/-- A binder takes the literals in the order of the text, up to the first fault. -/
theorem run_walk_bound (f : Fragment) (b : Binder) :
    (walk f).run.run (.bound b) =
      (f.outcome (boundText b.nameAt b.index f), .bound (b.extend f.reached.literals)) := by
  induction f generalizing b with
  | nil => simp [literals, reached]; rfl
  | cons p f ih =>
    cases hp : p.fault? with
    | some cause =>
      cases p <;> cases hp
      simp [literals, reached, Piece.fault?]
      rfl
    | none =>
      have hl : (b.extend p.literals).index = b.index + p.literals.length := rfl
      rw [run_walk_cons (run_walk_bound_piece hp b), ih, hl, ← outcome_cons hp, reached_cons hp]
      simp only [literals, List.flatMap_cons, Binder.extend_append]
      rfl

end Fragment

namespace Predicate

/--
What a compilation writes: the fragment of the condition. The bare constant that a conjunction of
nothing leaves writes nothing.
-/
def pieces (policy : ConvertPolicy) (p : Predicate) : Fragment :=
  if p.isAlwaysTrue then [] else p.fragment policy

theorem compileInto_eq_walk (policy : ConvertPolicy) (p : Predicate) (c : Channel) :
    p.compileInto policy c = (Fragment.walk (p.pieces policy)).run.run c := by
  unfold compileInto pieces
  split
  · rfl
  · rw [visit_eq_walk]

/--
Both channels fill the holes of the same pieces. Inline, every hole has its literal. Bound, a hole
whose value stays inline has that literal, and every other has the next placeholders, whose
parameters are the literals in the order of the text. A compilation fails exactly if there is a
fault among the pieces, with the first one, so that both channels fail alike.
-/
theorem compileInto_fills_pieces (policy : ConvertPolicy) (p : Predicate) (b : Binder) :
    let f := p.pieces policy
    p.compileInto policy .inline = (f.outcome f.inlineText, .inline) ∧
    p.compileInto policy (.bound b) =
      (f.outcome (Fragment.boundText b.nameAt b.index f),
        .bound { b with
          index := b.index + f.reached.literals.length
          params := b.params ++ Parameter.numbered b.nameAt b.index f.reached.literals }) ∧
    ∀ cause, (p.compileInto policy .inline).1 = .error cause ↔
      (p.compileInto policy (.bound b)).1 = .error cause := by
  have hi : p.compileInto policy .inline = _ :=
    (compileInto_eq_walk policy p .inline).trans (Fragment.run_walk_inline _)
  have hb : p.compileInto policy (.bound b) = _ :=
    (compileInto_eq_walk policy p (.bound b)).trans (Fragment.run_walk_bound _ b)
  refine ⟨hi, hb, fun cause => ?_⟩
  rw [hi, hb]
  unfold Fragment.outcome
  cases (p.pieces policy).fault? <;> simp

end Predicate

theorem CompileOptions.compile_inline (policy : ConvertPolicy) (stem : String) (p : Predicate) :
    let f := p.pieces policy
    compile ⟨.inline, policy, stem⟩ p =
      match f.fault? with
      | some cause => .error (.unsupported cause)
      | none => .ok ⟨f.inlineText, []⟩ := by
  intro f
  have h : p.compileInto policy .inline = _ :=
    (p.compileInto_eq_walk policy _).trans (Fragment.run_walk_inline f)
  simp only [compile, channel, h, Fragment.outcome]
  cases f.fault? <;> rfl

theorem CompileOptions.compile_bound (policy : ConvertPolicy) (stem : String) (p : Predicate) :
    let f := p.pieces policy
    let nameAt := (Binder.empty stem).nameAt
    compile ⟨.bound, policy, stem⟩ p =
      match f.fault? with
      | some cause => .error (.unsupported cause)
      | none => .ok ⟨Fragment.boundText nameAt 0 f, Parameter.numbered nameAt 0 f.literals⟩ := by
  intro f nameAt
  have h : p.compileInto policy (.bound (.empty stem)) = _ :=
    (p.compileInto_eq_walk policy _).trans (Fragment.run_walk_bound f (.empty stem))
  simp only [compile, channel, h, Fragment.outcome]
  cases hf : f.fault? with
  | some cause => rfl
  | none =>
    rw [Fragment.reached_of_fault?_eq_none hf]
    rfl

theorem CompileOptions.names_compile {o : CompileOptions} {p : Predicate} {c : CompiledFilter}
    (h : o.compile p = .ok c) :
    c.params.map Parameter.name =
      (List.range' 0 c.params.length).map (Binder.empty o.stem).nameAt := by
  obtain ⟨mode, policy, stem⟩ := o
  cases mode with
  | inline =>
    rw [compile_inline] at h
    split at h
    · cases h
    · cases h
      rfl
  | bound =>
    rw [compile_bound] at h
    split at h
    · cases h
    · cases h
      rw [Parameter.map_name_numbered, Parameter.length_numbered]

end SqlFilter
