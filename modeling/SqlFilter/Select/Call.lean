import SqlFilter.Select.Basic

/-! The calls that compose a statement, as data, and what a run of them makes. -/
namespace SqlFilter

namespace Select

inductive ColumnTest
  | isIn (values : String)
  | notIn (values : String)
  | between (least greatest : String)
  | compare (op : ComparisonOp) (value : String)
  | isNull
  | isNotNull
  deriving DecidableEq, Repr

def ColumnTest.text (column : String) : ColumnTest → String
  | .isIn values => column ++ " IN (" ++ values ++ ")"
  | .notIn values => column ++ " NOT IN (" ++ values ++ ")"
  | .between least greatest => column ++ " BETWEEN " ++ least ++ " AND " ++ greatest
  | .compare op value => column ++ " " ++ op.symbol ++ " " ++ value
  | .isNull => column ++ " IS NULL"
  | .isNotNull => column ++ " IS NOT NULL"

inductive Call
  | select (columns : String)
  | addColumn (column : String)
  | addRowCount
  | source (s : Source)
  | condition (combinator : Combinator) (text : String)
  | columnTest (column : String) (test : ColumnTest)
  | addFilter (condition name : String) (v : Value)
  | filter (c : CompiledFilter)
  | filterPredicate (o : CompileOptions) (p : Predicate)
  | grouping (g : Grouping)
  | order (item : OrderItem)
  | page (page : Pagination)
  | cte (c : Cte)
  | addParameter (name : String) (v : Value) (type : SqlType)
  | bindParameters (b : Binder)
  | options (o : QueryOptions)
  deriving Repr

/-- A statement after one more call. Only the compilation of a condition fails. -/
def apply (s : Select) (call : Call) : Except Error Select :=
  match call with
  | .select columns => .ok (s.select columns)
  | .addColumn column => .ok (s.addColumn column)
  | .addRowCount => .ok s.addRowCount
  | .source source => .ok (s.addSource source)
  | .condition combinator text => .ok (s.addCondition combinator text)
  | .columnTest column test => .ok (s.addCondition .and (test.text column))
  | .addFilter condition name v => .ok (s.addFilter condition name v)
  | .filter c => .ok (s.filter c)
  | .filterPredicate o p => s.filterPredicate o p
  | .grouping g => .ok (s.addGrouping g)
  | .order item => .ok (s.addOrder item)
  | .page page => .ok (s.setPage page)
  | .cte c => .ok (s.addCte c)
  | .addParameter name v type => .ok (s.addParameter (.named name v type))
  | .bindParameters b => .ok (s.addParameters b.params)
  | .options o => .ok (s.withOptions o)

def applyAll (s : Select) (calls : List Call) : Except Error Select := calls.foldlM apply s

end Select

end SqlFilter
