import SqlFilter.Error
import SqlFilter.Literal
import SqlFilter.Parameter

/-!
Channels: where the literals of a condition go, either into the text or to a binder, which leaves
placeholders in the text.
-/
namespace SqlFilter

inductive Channel
  | inline
  | bound (binder : Binder)
  deriving DecidableEq, Repr

/-- Values that stay in the text although others are bound. -/
def Value.staysInline (v : Value) : Bool :=
  v.isSqlNull || match v with
    | .bool _ => true
    | _ => false

namespace Channel

def params : Channel → List Parameter
  | .inline => []
  | .bound b => b.params

def scalar (c : Channel) (v : Value) (type : ValueType) : String × Channel :=
  match c with
  | .inline => (v.literal type, c)
  | .bound b =>
    if v.staysInline then (v.literal type, c)
    else
      let (name, b) := b.bind v type
      (name, .bound b)

/-- The text for the inside of an `IN` list. Bound lists have a placeholder for every item. -/
def items (c : Channel) (vs : List Value) (element : ValueType) : String × Channel :=
  match c with
  | .inline => (Value.inList vs element, c)
  | .bound b =>
    let (names, b) := b.bindAll vs element
    (", ".intercalate names, .bound b)

def equality (c : Channel) (field : String) (v : Value) (type : ValueType) : String × Channel :=
  match c with
  | .inline => (Value.equality field v type, c)
  | .bound _ =>
    let (s, c) := c.scalar v type
    (field ++ " = " ++ s, c)

@[simp] theorem scalar_inline (v : Value) (type : ValueType) :
    inline.scalar v type = (v.literal type, inline) := rfl

@[simp] theorem items_inline (vs : List Value) (element : ValueType) :
    inline.items vs element = (Value.inList vs element, inline) := rfl

theorem equality_eq_scalar (c : Channel) (field : String) (v : Value) (type : ValueType) :
    c.equality field v type =
      (field ++ " = " ++ (c.scalar v type).1, (c.scalar v type).2) := by
  cases c <;> rfl

end Channel

end SqlFilter
