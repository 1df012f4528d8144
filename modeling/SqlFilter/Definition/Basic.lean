import SqlFilter.Select.Basic
import SqlFilter.Toml.Parameter

/-!
Statements described as data. A definition is composed clause by clause, and fails with the first
fault in the order condition, ordering, parameters.
-/
namespace SqlFilter

/-- An entry of the ordering: a column, or a case expression with the column behind it. -/
structure OrderDefinition where
  column : Option String := none
  case : Option String := none
  default : Option String := none
  direction : SortOrder := .asc
  deriving DecidableEq, Repr

structure ParameterDefinition where
  name : String
  value : Toml.Value
  type : Option SqlType := none
  deriving Repr

structure QueryDefinition where
  select : Option String := none
  columns : List String := []
  rowCount : Bool := false
  from? : Option String := none
  ctes : List Cte := []
  joins : List Source := []
  conditions : List Condition := []
  predicate : Option Predicate := none
  groupBy : Option String := none
  having : Option String := none
  order : List OrderDefinition := []
  page : Option Pagination := none
  parameters : List ParameterDefinition := []
  deriving Repr

def OrderDefinition.item (d : OrderDefinition) : Except Error OrderItem :=
  match d.column, d.case, d.default with
  | some column, none, _ => .ok (.column column d.direction)
  | none, some branches, some column => .ok (.case branches column d.direction)
  | none, some _, none => .error (.config .caseWithoutDefault)
  | _, _, _ => .error (.config .columnOrCase)

/-- The parameter that an entry describes. Without a type it has the one that fits its value. -/
def ParameterDefinition.parameter (d : ParameterDefinition) : Except Error Parameter := do
  let v ← d.value.toValue
  .ok (.named d.name v (d.type.getD (SqlType.inferred v)))

namespace QueryDefinition

/-- The statement with the clauses that need no compilation and come before the condition. -/
def base (d : QueryDefinition) (o : QueryOptions) : Select :=
  let s : Select := ({} : Select).withOptions o
  let s := d.ctes.foldl Select.addCte s
  let s := (d.select.map s.select).getD s
  let s := d.columns.foldl Select.addColumn s
  let s := if d.rowCount then s.addRowCount else s
  let s := (d.from?.map fun table => s.addSource (.table table)).getD s
  let s := d.joins.foldl Select.addSource s
  d.conditions.foldl (fun s c => s.addCondition c.combinator c.text) s

def group (d : QueryDefinition) (s : Select) : Select :=
  let s := (d.groupBy.map fun columns => s.addGrouping (.groupBy columns)).getD s
  (d.having.map fun condition => s.addGrouping (.having condition)).getD s

def compose (d : QueryDefinition) (compiler : CompileOptions) (o : QueryOptions) :
    Except Error Select := do
  let s := d.base o
  let s ← match d.predicate with
    | some p => s.filterPredicate compiler p
    | none => .ok s
  let items ← d.order.mapM OrderDefinition.item
  let s := items.foldl Select.addOrder (d.group s)
  let s := (d.page.map s.setPage).getD s
  let ps ← d.parameters.mapM ParameterDefinition.parameter
  .ok (s.addParameters ps)

end QueryDefinition

end SqlFilter
