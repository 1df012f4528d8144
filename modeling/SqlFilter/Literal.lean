import SqlFilter.Value

/-!
Values as SQL literals. String and date text stands between single quotes as it is: a quote inside
it is not doubled, so text from outside belongs into parameters.
-/
namespace SqlFilter

/-- The type of a list's items: the declared one, else the type that the first item shows. -/
def elementType (items : List Value) (declared : ValueType) : ValueType :=
  match declared.element? with
  | some .unknown | none => (items.head?.map Value.type).getD .unknown
  | some element => element

namespace Value

def quoted (s : String) : String := "'" ++ s ++ "'"

def castAsDate (s : String) : String := "CAST(" ++ quoted s ++ " AS DATE)"

def quotedAs (type : ValueType) (s : String) : String := if type = .string then quoted s else s

mutual

def literal : Value → ValueType → String
  | .null, _ => "NULL"
  | .bool b, _ => if b then "1" else "0"
  | .int n, type => quotedAs type (toString n.toInt)
  | .decimal x, type => if x.isFinite then quotedAs type (Decimal.text x) else "NULL"
  | .string s, type => if type = .dateTime then castAsDate s else quoted s
  | .dateTime t, _ => castAsDate t.text
  | .list items, type => "(" ++ ", ".intercalate (literals items (elementType items type)) ++ ")"

def literals : List Value → ValueType → List String
  | [], _ => []
  | v :: vs, type => v.literal type :: literals vs type

end

@[simp] theorem literals_eq_map (vs : List Value) (type : ValueType) :
    literals vs type = vs.map (·.literal type) := by
  induction vs with
  | nil => rfl
  | cons v vs ih => simp [literals, ih]

theorem literal_of_isSqlNull {v : Value} (h : v.isSqlNull) (type : ValueType) :
    v.literal type = "NULL" := by
  cases v <;> simp_all [isSqlNull, literal]

/--
The inside of an `IN` list. Items of a quoted type share one pair of quotes around their plain
texts, with `',' ` between them; all others are literals with a comma between them.
-/
def inList (items : List Value) (element : ValueType) : String :=
  if element.isQuoted then quoted ("',' ".intercalate (items.map text))
  else ",".intercalate (items.map (·.literal element))

def equality (field : String) (v : Value) (type : ValueType) : String :=
  field ++ " = " ++ v.literal type

example : (int 7).literal .string = "'7'" := by decide
example : (string "2024-03-09").literal .dateTime = "CAST('2024-03-09' AS DATE)" := by decide
example : inList [.string "a", .string "b"] .string = "'a',' b'" := by decide
example : (list [.decimal 1.5, .decimal (0 / 0)]).literal .unknown = "(1.5, NULL)" := by
  decide +kernel

end Value

end SqlFilter
