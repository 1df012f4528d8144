import SqlFilter.DateTime
import SqlFilter.Decimal.Layout

/-! Values that a condition compares with, and the types that a caller may declare for them. -/
namespace SqlFilter

inductive ValueType
  | boolean
  | string
  | integer
  | decimal
  | dateTime
  | null
  | list (element : ValueType)
  | unknown
  deriving DecidableEq, Repr

namespace ValueType

def element? : ValueType → Option ValueType
  | .list element => some element
  | _ => none

/-- Items of these types stand between quotes in an `IN` list. -/
def isQuoted : ValueType → Bool
  | .string | .dateTime => true
  | _ => false

def text : ValueType → String
  | .boolean => "boolean"
  | .string => "string"
  | .integer => "integer"
  | .decimal => "decimal"
  | .dateTime => "datetime"
  | .null => "null"
  | .list element => "list<" ++ element.text ++ ">"
  | .unknown => "unknown"

end ValueType

inductive Value
  | null
  | bool (b : Bool)
  | int (n : Int64)
  | decimal (x : Float)
  | string (s : String)
  | dateTime (t : DateTime)
  | list (items : List Value)
  deriving Repr

namespace Value

mutual

def decEq : (a b : Value) → Decidable (a = b)
  | .null, .null => isTrue rfl
  | .bool a, .bool b => if h : a = b then isTrue (by rw [h]) else isFalse (by simp [h])
  | .int a, .int b => if h : a = b then isTrue (by rw [h]) else isFalse (by simp [h])
  | .decimal a, .decimal b => if h : a = b then isTrue (by rw [h]) else isFalse (by simp [h])
  | .string a, .string b => if h : a = b then isTrue (by rw [h]) else isFalse (by simp [h])
  | .dateTime a, .dateTime b => if h : a = b then isTrue (by rw [h]) else isFalse (by simp [h])
  | .list as, .list bs =>
    match decEqList as bs with
    | isTrue h => isTrue (by rw [h])
    | isFalse h => isFalse (by simp [h])
  | .null, .bool _ | .null, .int _ | .null, .decimal _ | .null, .string _ | .null, .dateTime _
  | .null, .list _ | .bool _, .null | .bool _, .int _ | .bool _, .decimal _ | .bool _, .string _
  | .bool _, .dateTime _ | .bool _, .list _ | .int _, .null | .int _, .bool _ | .int _, .decimal _
  | .int _, .string _ | .int _, .dateTime _ | .int _, .list _ | .decimal _, .null
  | .decimal _, .bool _ | .decimal _, .int _ | .decimal _, .string _ | .decimal _, .dateTime _
  | .decimal _, .list _ | .string _, .null | .string _, .bool _ | .string _, .int _
  | .string _, .decimal _ | .string _, .dateTime _ | .string _, .list _ | .dateTime _, .null
  | .dateTime _, .bool _ | .dateTime _, .int _ | .dateTime _, .decimal _ | .dateTime _, .string _
  | .dateTime _, .list _ | .list _, .null | .list _, .bool _ | .list _, .int _ | .list _, .decimal _
  | .list _, .string _ | .list _, .dateTime _ => isFalse nofun

def decEqList : (as bs : List Value) → Decidable (as = bs)
  | [], [] => isTrue rfl
  | [], _ :: _ | _ :: _, [] => isFalse nofun
  | a :: as, b :: bs =>
    match decEq a b, decEqList as bs with
    | isTrue h, isTrue hs => isTrue (by rw [h, hs])
    | isFalse h, _ => isFalse (by simp [h])
    | _, isFalse hs => isFalse (by simp [hs])

end

instance : DecidableEq Value := decEq

/-- The type that a value shows. A list has the type of its first item. -/
def type : Value → ValueType
  | .null => .null
  | .bool _ => .boolean
  | .int _ => .integer
  | .decimal _ => .decimal
  | .string _ => .string
  | .dateTime _ => .dateTime
  | .list [] => .list .unknown
  | .list (v :: _) => .list v.type

/-- Values that SQL can only write as `NULL`: null itself, and decimals that are not finite. -/
def isSqlNull : Value → Bool
  | .null => true
  | .decimal x => !x.isFinite
  | _ => false

mutual

/-- The plain text of a value, without the marks of a literal. -/
def text : Value → String
  | .null => "NULL"
  | .bool b => if b then "true" else "false"
  | .int n => toString n.toInt
  | .decimal x => Decimal.text x
  | .string s => s
  | .dateTime t => t.text
  | .list items => ",".intercalate (texts items)

def texts : List Value → List String
  | [] => []
  | v :: vs => v.text :: texts vs

end

@[simp] theorem texts_eq_map (vs : List Value) : texts vs = vs.map text := by
  induction vs with
  | nil => rfl
  | cons v vs ih => simp [texts, ih]

example : (Value.list [.int 1, .string "O'Brien", .null]).text = "1,O'Brien,NULL" := by decide
example : (Value.list [.int 1, .null]).type = .list .integer := by decide

end Value

end SqlFilter
