import SqlFilter.Compiler
import SqlFilter.Data.Basic
import SqlFilter.Select.Clause

/-! The names under which operators, types and kinds stand in JSON and TOML texts. -/
namespace SqlFilter

def spelled {α : Type} (name : α → String) (all : List α) : List (String × α) :=
  all.map fun x => (name x, x)

def ComparisonOp.key : ComparisonOp → String
  | .eq => "eq"
  | .neq => "neq"
  | .lt => "lt"
  | .lte => "lte"
  | .gt => "gt"
  | .gte => "gte"

def ComparisonOp.keys : List (String × ComparisonOp) :=
  spelled key [.eq, .neq, .lt, .lte, .gt, .gte]

def LogicalOp.key : LogicalOp → String
  | .and => "and"
  | .or => "or"

def LogicalOp.keys : List (String × LogicalOp) := spelled key [.and, .or]

def SqlType.key : SqlType → String
  | .bit => "bit"
  | .tinyInt => "tiny_int"
  | .smallInt => "small_int"
  | .int => "int"
  | .bigInt => "big_int"
  | .decimal => "decimal"
  | .float => "float"
  | .money => "money"
  | .char => "char"
  | .varChar => "var_char"
  | .nChar => "n_char"
  | .nVarChar => "n_var_char"
  | .text => "text"
  | .date => "date"
  | .dateTime => "date_time"
  | .dateTime2 => "date_time2"
  | .time => "time"
  | .uniqueIdentifier => "unique_identifier"
  | .varBinary => "var_binary"

def SqlType.keys : List (String × SqlType) :=
  spelled key [.bit, .tinyInt, .smallInt, .int, .bigInt, .decimal, .float, .money, .char, .varChar,
    .nChar, .nVarChar, .text, .date, .dateTime, .dateTime2, .time, .uniqueIdentifier, .varBinary]

def JoinKind.key : JoinKind → String
  | .inner => "inner"
  | .left => "left"
  | .right => "right"
  | .leftOuter => "left_outer"
  | .rightOuter => "right_outer"

def JoinKind.keys : List (String × JoinKind) :=
  spelled key [.inner, .left, .right, .leftOuter, .rightOuter]

def Combinator.key : Combinator → String
  | .first => "first"
  | .and => "and"
  | .or => "or"
  | .andNot => "and_not"

def Combinator.keys : List (String × Combinator) := spelled key [.first, .and, .or, .andNot]

/-- Directions are read in upper and lower case. -/
def SortOrder.keys : List (String × SortOrder) :=
  [("ASC", .asc), ("asc", .asc), ("DESC", .desc), ("desc", .desc)]

def LiteralMode.key : LiteralMode → String
  | .inline => "inline"
  | .bound => "bound"

def LiteralMode.keys : List (String × LiteralMode) := spelled key [.inline, .bound]

def ConvertPolicy.key : ConvertPolicy → String
  | .reject => "reject"
  | .drop => "drop"

def ConvertPolicy.keys : List (String × ConvertPolicy) := spelled key [.reject, .drop]

def ValueType.keys : List (String × ValueType) :=
  [("boolean", .boolean), ("string", .string), ("integer", .integer), ("decimal", .decimal),
    ("date_time", .dateTime), ("null", .null), ("unknown", .unknown)]

end SqlFilter
