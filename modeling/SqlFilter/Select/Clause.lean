import SqlFilter.Text.Blank

/-! The clauses of a SELECT statement, each with its text. -/
namespace SqlFilter

structure Cte where
  name : String
  query : String
  deriving DecidableEq, Repr

def Cte.text (c : Cte) : String := c.name ++ " AS (" ++ c.query ++ ")"

inductive JoinKind
  | inner
  | left
  | right
  | leftOuter
  | rightOuter
  deriving DecidableEq, Repr

def JoinKind.keyword : JoinKind → String
  | .inner => "INNER JOIN"
  | .left => "LEFT JOIN"
  | .right => "RIGHT JOIN"
  | .leftOuter => "LEFT OUTER JOIN"
  | .rightOuter => "RIGHT OUTER JOIN"

inductive Source
  | table (name : String)
  | join (kind : JoinKind) (table shortName on : String)
  deriving DecidableEq, Repr

def Source.text : Source → String
  | .table name => "FROM " ++ name
  | .join kind name shortName on =>
    kind.keyword ++ " " ++ name ++ " AS " ++ shortName ++ " ON " ++ on

inductive Combinator
  | first
  | and
  | or
  | andNot
  deriving DecidableEq, Repr

namespace Combinator

def leading? : Combinator → Option String
  | .andNot => some "NOT"
  | _ => none

def joiner : Combinator → String
  | .first | .and => "AND"
  | .or => "OR"
  | .andNot => "AND NOT"

end Combinator

structure Condition where
  combinator : Combinator
  text : String
  deriving DecidableEq, Repr

namespace Condition

/-- A negated condition stands in parentheses. -/
def body (c : Condition) : String :=
  if c.combinator = .andNot then "(" ++ c.text ++ ")" else c.text

def opening (c : Condition) : String :=
  match c.combinator.leading? with
  | some keyword => keyword ++ " " ++ c.body
  | none => c.body

def following (c : Condition) : String := c.combinator.joiner ++ " " ++ c.body

end Condition

inductive Grouping
  | groupBy (columns : String)
  | having (condition : String)
  deriving DecidableEq, Repr

def Grouping.text : Grouping → String
  | .groupBy columns => "GROUP BY " ++ columns
  | .having condition => "HAVING " ++ condition

inductive SortOrder
  | asc
  | desc
  deriving DecidableEq, Repr

namespace SortOrder

def text : SortOrder → String
  | .asc => "ASC"
  | .desc => "DESC"

/-- A text without the blanks around it and with the letters `a` to `z` in upper case. -/
def normalized (s : String) : String := .ofList ((Text.trim s).toList.map Char.toUpper)

def ofText? (s : String) : Option SortOrder :=
  match normalized s with
  | "ASC" => some .asc
  | "DESC" => some .desc
  | _ => none

def unknownMessage (s : String) : String :=
  "unknown sort direction '" ++ normalized s ++ "'"

end SortOrder

inductive OrderItem
  | column (name : String) (direction : SortOrder)
  /-- The branches of a case expression, and the column that decides among equals. -/
  | case (branches column : String) (direction : SortOrder)
  deriving DecidableEq, Repr

def OrderItem.text : OrderItem → String
  | .column name direction => name ++ " " ++ direction.text
  | .case branches name direction =>
    "CASE " ++ branches ++ " END " ++ direction.text ++ ", " ++ name ++ " " ++ direction.text

structure Pagination where
  offset : UInt64
  pageSize : UInt64
  deriving DecidableEq, Repr

def Pagination.text (p : Pagination) : String :=
  "OFFSET " ++ toString p.offset.toNat ++ " ROWS FETCH NEXT " ++ toString p.pageSize.toNat ++
    " ROWS ONLY"

end SqlFilter
