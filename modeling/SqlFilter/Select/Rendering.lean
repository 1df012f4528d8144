import SqlFilter.Select.Basic

/-! The text of a statement: one line for each clause, in a fixed order. -/
namespace SqlFilter.Select

def rowCountColumn : String := "COUNT(*) OVER() AS TotalRowCount"

def recompileText : String := "OPTION (RECOMPILE)"

def withLine (ctes : List Cte) : List String :=
  if ctes.isEmpty then [] else ["WITH " ++ ", ".intercalate (ctes.map Cte.text)]

def selectLine (columns : List String) (rowCount : Bool) : String :=
  let items := if columns.isEmpty then ["*"] else columns
  "SELECT " ++ ", ".intercalate (if rowCount then items ++ [rowCountColumn] else items)

def whereLine : List Condition → List String
  | [] => []
  | c :: cs => ["WHERE " ++ " ".intercalate (c.opening :: cs.map Condition.following)]

def orderLine (order : List OrderItem) : List String :=
  if order.isEmpty then [] else ["ORDER BY " ++ ", ".intercalate (order.map OrderItem.text)]

def pageLine (page : Option Pagination) (o : QueryOptions) : List String :=
  match page with
  | none => []
  | some page => [if o.recompileHint then page.text ++ " " ++ recompileText else page.text]

def lines (s : Select) : List String :=
  withLine s.ctes ++ [selectLine s.columns s.rowCount] ++ s.sources.map Source.text ++
    whereLine s.conditions ++ s.grouping.map Grouping.text ++ orderLine s.order ++
    pageLine s.page s.options

def sql (s : Select) : String := "\n".intercalate s.lines

def build (s : Select) : PreparedQuery := ⟨s.sql, s.params⟩

example :
    ((((({} : Select).select "Id,Name").addSource (.table "Users")).addCondition .first
      "Active = 1").addOrder (.column "Name" .asc)).sql =
      "SELECT Id, Name\nFROM Users\nWHERE Active = 1\nORDER BY Name ASC" := by
  decide +kernel

end SqlFilter.Select
