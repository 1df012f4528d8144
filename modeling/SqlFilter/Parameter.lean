import SqlFilter.Value

/-! Named and typed parameters, and the binder that collects them while a condition is compiled. -/
namespace SqlFilter

inductive SqlType
  | bit
  | tinyInt
  | smallInt
  | int
  | bigInt
  | decimal
  | float
  | money
  | char
  | varChar
  | nChar
  | nVarChar
  | text
  | date
  | dateTime
  | dateTime2
  | time
  | uniqueIdentifier
  | varBinary
  deriving DecidableEq, Repr

namespace SqlType

def name : SqlType → String
  | .bit => "BIT"
  | .tinyInt => "TINYINT"
  | .smallInt => "SMALLINT"
  | .int => "INT"
  | .bigInt => "BIGINT"
  | .decimal => "DECIMAL"
  | .float => "FLOAT"
  | .money => "MONEY"
  | .char => "CHAR"
  | .varChar => "VARCHAR"
  | .nChar => "NCHAR"
  | .nVarChar => "NVARCHAR"
  | .text => "TEXT"
  | .date => "DATE"
  | .dateTime => "DATETIME"
  | .dateTime2 => "DATETIME2"
  | .time => "TIME"
  | .uniqueIdentifier => "UNIQUEIDENTIFIER"
  | .varBinary => "VARBINARY"

def ofKind : Value → SqlType
  | .bool _ => .bit
  | .int _ => .bigInt
  | .decimal _ => .decimal
  | .dateTime _ => .dateTime2
  | .null | .string _ | .list _ => .nVarChar

/-- The type for a value of a declared type. A scalar type decides; otherwise the value does. -/
def ofValue (v : Value) : ValueType → SqlType
  | .boolean => .bit
  | .string => .nVarChar
  | .integer => .bigInt
  | .decimal => .decimal
  | .dateTime => .dateTime2
  | .null | .list _ | .unknown => ofKind v

def inferred (v : Value) : SqlType := ofValue v v.type

theorem inferred_eq_ofKind (v : Value) : inferred v = ofKind v := by
  match v with
  | .list [] | .list (_ :: _) => rfl
  | .null | .bool _ | .int _ | .decimal _ | .string _ | .dateTime _ => rfl

end SqlType

/-- A name without the `@` signs in front of it. -/
def bareName (name : String) : String := .ofList (name.toList.dropWhile (· == '@'))

/-- A name with exactly one `@` in front of it. -/
def placeholder (name : String) : String := "@" ++ bareName name

structure Parameter where
  /-- The placeholder, with its `@`. -/
  name : String
  value : Value
  type : SqlType
  deriving DecidableEq, Repr

namespace Parameter

/-- A parameter under a name with any number of `@` signs in front of it. -/
def named (name : String) (value : Value) (type : SqlType) : Parameter :=
  ⟨placeholder name, value, type⟩

def inferred (name : String) (value : Value) : Parameter :=
  named name value (SqlType.inferred value)

def text (p : Parameter) : String := p.name ++ " " ++ p.type.name ++ " = " ++ p.value.text

end Parameter

/-- Hands out the placeholders `@stem0`, `@stem1`, … and keeps what they stand for. -/
structure Binder where
  stem : String := "p"
  /-- The number of the next placeholder. -/
  index : Nat := 0
  params : List Parameter := []
  deriving DecidableEq, Repr

namespace Binder

abbrev empty (stem : String) : Binder := ⟨stem, 0, []⟩

def nameAt (b : Binder) (i : Nat) : String := "@" ++ b.stem ++ toString i

/-- Adds a value of a declared type; the result names it. -/
def bind (b : Binder) (v : Value) (type : ValueType) : String × Binder :=
  let name := b.nameAt b.index
  (name, { b with
    index := b.index + 1
    params := b.params ++ [⟨name, v, SqlType.ofValue v type⟩] })

def bindAll (b : Binder) (vs : List Value) (type : ValueType) : List String × Binder :=
  match vs with
  | [] => ([], b)
  | v :: vs =>
    let (name, b) := b.bind v type
    let (names, b) := b.bindAll vs type
    (name :: names, b)

@[simp] theorem bind_stem (b : Binder) (v : Value) (type : ValueType) :
    (b.bind v type).2.stem = b.stem := rfl

@[simp] theorem bind_name (b : Binder) (v : Value) (type : ValueType) :
    (b.bind v type).1 = b.nameAt b.index := rfl

@[simp] theorem bind_index (b : Binder) (v : Value) (type : ValueType) :
    (b.bind v type).2.index = b.index + 1 := rfl

@[simp] theorem bind_params (b : Binder) (v : Value) (type : ValueType) :
    (b.bind v type).2.params =
      b.params ++ [⟨b.nameAt b.index, v, SqlType.ofValue v type⟩] := rfl

end Binder

end SqlFilter
