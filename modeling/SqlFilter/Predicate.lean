import SqlFilter.Value

/-! Conditions on the fields of a record, as trees. -/
namespace SqlFilter

inductive ComparisonOp
  | eq
  | neq
  | lt
  | lte
  | gt
  | gte
  deriving DecidableEq, Repr

namespace ComparisonOp

def symbol : ComparisonOp → String
  | .eq => "="
  | .neq => "<>"
  | .lt => "<"
  | .lte => "<="
  | .gt => ">"
  | .gte => ">="

/-- The keyword that replaces the symbol in front of `NULL`. -/
def nullKeyword? : ComparisonOp → Option String
  | .eq => some "IS"
  | .neq => some "IS NOT"
  | _ => none

end ComparisonOp

inductive LogicalOp
  | and
  | or
  deriving DecidableEq, Repr

def LogicalOp.keyword : LogicalOp → String
  | .and => "AND"
  | .or => "OR"

inductive Method
  | equals
  | containsAny
  deriving DecidableEq, Repr

namespace Method

def name : Method → String
  | .equals => "equals"
  | .containsAny => "containsAny"

/-- The method of a name; membership has two spellings. -/
def ofName? : String → Option Method
  | "equals" => some .equals
  | "containsAny" | "contains_any" => some .containsAny
  | _ => none

theorem ofName?_name (m : Method) : ofName? m.name = some m := by cases m <;> rfl

end Method

inductive Predicate
  | comparison (op : ComparisonOp) (left right : Predicate)
  | logical (op : LogicalOp) (left right : Predicate)
  | not (operand : Predicate)
  | member (path : String)
  /-- A literal; without a declared type it has the type that its value shows. -/
  | constant (value : Value) (declared : Option ValueType)
  | conditional (test ifTrue ifFalse : Predicate)
  | call (method : String) (receiver : Option Predicate) (args : List Predicate)
  | convert (operand : Predicate) (target : ValueType)
  | parameter (name : String)
  deriving Repr

inductive NodeKind
  | comparison
  | logical
  | not
  | memberAccess
  | constant
  | conditional
  | call
  | convert
  | parameter
  deriving DecidableEq, Repr

def NodeKind.name : NodeKind → String
  | .comparison => "Comparison"
  | .logical => "Logical"
  | .not => "Not"
  | .memberAccess => "MemberAccess"
  | .constant => "Constant"
  | .conditional => "Conditional"
  | .call => "Call"
  | .convert => "Convert"
  | .parameter => "Parameter"

namespace Predicate

def kind : Predicate → NodeKind
  | .comparison .. => .comparison
  | .logical .. => .logical
  | .not .. => .not
  | .member .. => .memberAccess
  | .constant .. => .constant
  | .conditional .. => .conditional
  | .call .. => .call
  | .convert .. => .convert
  | .parameter .. => .parameter

def always : Predicate := .constant (.bool true) (some .boolean)

/-- A constant with the value true, whatever its declared type. -/
def isAlwaysTrue : Predicate → Bool
  | .constant (.bool true) _ => true
  | _ => false

def isNullLiteral : Predicate → Bool
  | .constant .null _ => true
  | _ => false

def and (left right : Predicate) : Predicate := .logical .and left right

def or (left right : Predicate) : Predicate := .logical .or left right

def lit (value : Value) : Predicate := .constant value none

def listOf (element : ValueType) (items : List Value) : Predicate :=
  .constant (.list items) (some (.list element))

def eq (left right : Predicate) : Predicate := .comparison .eq left right

def isNull (path : String) : Predicate := eq (.member path) (lit .null)

def isNotNull (path : String) : Predicate := .comparison .neq (.member path) (lit .null)

def equals (receiver arg : Predicate) : Predicate := .call Method.equals.name (some receiver) [arg]

def containsAny (collection value : Predicate) : Predicate :=
  .call Method.containsAny.name none [collection, value]

mutual

def nodeCount : Predicate → Nat
  | .comparison _ l r | .logical _ l r => 1 + l.nodeCount + r.nodeCount
  | .not p | .convert p _ => 1 + p.nodeCount
  | .conditional t a b => 1 + t.nodeCount + a.nodeCount + b.nodeCount
  | .call _ none args => 1 + nodeCounts args
  | .call _ (some r) args => 1 + r.nodeCount + nodeCounts args
  | .member _ | .constant .. | .parameter _ => 1

def nodeCounts : List Predicate → Nat
  | [] => 0
  | p :: ps => p.nodeCount + nodeCounts ps

end

theorem nodeCounts_eq_foldr (ps : List Predicate) :
    nodeCounts ps = ps.foldr (fun p n => p.nodeCount + n) 0 := by
  induction ps with
  | nil => rfl
  | cons p ps ih => simp [nodeCounts, ih]

theorem nodeCount_pos (p : Predicate) : 0 < p.nodeCount := by
  fun_cases nodeCount p <;> omega

end Predicate

end SqlFilter
