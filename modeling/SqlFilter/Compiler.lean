import SqlFilter.Channel
import SqlFilter.Text.Blank

/-! From a condition to its SQL. -/
namespace SqlFilter

inductive LiteralMode
  | inline
  | bound
  deriving DecidableEq, Repr

inductive ConvertPolicy
  | reject
  /-- A cast and its operand are written as nothing. -/
  | drop
  deriving DecidableEq, Repr

structure CompileOptions where
  literals : LiteralMode := .inline
  convert : ConvertPolicy := .reject
  /-- The placeholders of bound literals are `@` with the stem and a number. -/
  stem : String := "p"
  deriving DecidableEq, Repr

structure CompiledFilter where
  sql : String
  params : List Parameter := []
  deriving DecidableEq, Repr

/-- A blank text is no constraint. -/
def CompiledFilter.isEmpty (c : CompiledFilter) : Bool := Text.allBlank c.sql

/--
A step of a compilation: its text or the first fault, and the channel after it. What was bound
before a fault stays bound.
-/
abbrev Walk := ExceptT Unsupported (StateM Channel)

namespace Predicate

def operator (op : ComparisonOp) (right : Predicate) : String :=
  if right.isNullLiteral then op.nullKeyword?.getD op.symbol else op.symbol

def membership (collection : Predicate) (value : Walk String) : Walk String :=
  match collection with
  | .constant (.list []) _ => return ""
  | .constant (.list items) declared => do
    let target ← value
    let inside ← modifyGet (·.items items (elementType items (declared.getD .unknown)))
    return target ++ " IN (" ++ inside ++ ")"
  | other => throw (.collection other.kind)

def visit (policy : ConvertPolicy) : Predicate → Walk String
  | .comparison op left right => do
    let l ← left.visit policy
    let r ← right.visit policy
    return l ++ " " ++ operator op right ++ " " ++ r
  | .logical op left right =>
    -- The constant true that conjunctions start from leaves no text.
    if op = .and ∧ left.isAlwaysTrue then do
      let r ← right.visit policy
      return "(" ++ r ++ ")"
    else do
      let l ← left.visit policy
      let r ← right.visit policy
      return "(" ++ l ++ " " ++ op.keyword ++ " " ++ r ++ ")"
  | .not operand => do
    let s ← operand.visit policy
    return "(NOT " ++ s ++ ")"
  | .member path => return path
  | .constant v declared => modifyGet (·.scalar v (declared.getD v.type))
  | .conditional test ifTrue ifFalse => do
    let t ← test.visit policy
    let a ← ifTrue.visit policy
    let b ← ifFalse.visit policy
    return "(CASE WHEN " ++ t ++ " THEN " ++ a ++ " ELSE " ++ b ++ " END)"
  | .convert _ target =>
    match policy with
    | .reject => throw (.cast target)
    | .drop => return ""
  | .parameter name => throw (.record name)
  | .call method receiver args =>
    match Method.ofName? method, receiver, args with
    | some .equals, some (.member path), [.constant v declared] =>
      modifyGet (·.equality path v (declared.getD v.type))
    | some .equals, some left, [right] => do
      let l ← left.visit policy
      let r ← right.visit policy
      return l ++ " = " ++ r
    | some .equals, _, _ => throw .equalsOperands
    | some .containsAny, none, [collection, value] => membership collection (value.visit policy)
    | some .containsAny, some collection, [value] => membership collection (value.visit policy)
    | some .containsAny, _, _ => throw .membershipOperands
    | none, _, _ => throw (.method method)

/--
Compiles a condition into a channel. The bare constant that a conjunction of nothing leaves is no
constraint.
-/
def compileInto (policy : ConvertPolicy) (p : Predicate) (c : Channel) :
    Except Unsupported String × Channel :=
  if p.isAlwaysTrue then (.ok "", c) else (p.visit policy).run.run c

end Predicate

namespace CompileOptions

def channel (o : CompileOptions) : Channel :=
  match o.literals with
  | .inline => .inline
  | .bound => .bound (.empty o.stem)

def compile (o : CompileOptions) (p : Predicate) : Except Error CompiledFilter :=
  match p.compileInto o.convert o.channel with
  | (.ok sql, c) => .ok ⟨sql, c.params⟩
  | (.error cause, _) => .error (.unsupported cause)

end CompileOptions

def Binder.compile (o : CompileOptions) (b : Binder) (p : Predicate) :
    Except Error String × Binder :=
  match p.compileInto o.convert (.bound b) with
  | (r, .bound b) => (r.mapError .unsupported, b)
  | (r, .inline) => (r.mapError .unsupported, b)

def Predicate.toSql (p : Predicate) : Except Error String :=
  (CompileOptions.compile {} p).map CompiledFilter.sql

example :
    (Predicate.and .always (.eq (.member "Active") (.lit (.bool true)))).toSql.toOption =
      some "(Active = 1)" := by
  decide

end SqlFilter
