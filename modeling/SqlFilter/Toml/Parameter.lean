import SqlFilter.Error
import SqlFilter.Toml.Value

/-! Values of TOML texts as values of parameters. Dates and times have to stand together. -/
namespace SqlFilter.Toml

/-- The point of time that a date with a time denotes; fractions and offsets are refused. -/
def Stamp.dateTime? (s : Stamp) : Except DateTimeFault DateTime :=
  match s with
  | ⟨some d, some c, none⟩ =>
    match c.time? with
    | some t => if c.nano = 0 then .ok ⟨d, t⟩ else .error .strayCharacters
    | none => .error .strayCharacters
  | ⟨some _, none, none⟩ => .error .endsEarly
  | _ => .error .strayCharacters

mutual

def Value.toValue : Value → Except Error SqlFilter.Value
  | .string s => .ok (.string s)
  | .integer n => .ok (.int n)
  | .float x => .ok (.decimal x)
  | .boolean b => .ok (.bool b)
  | .dateTime s =>
    match s.dateTime? with
    | .ok t => .ok (.dateTime t)
    | .error fault => .error (.config (.badDateTime s.text fault))
  | .array items => (Value.toValues items).map .list
  | .table _ => .error (.config .tableValue)

def Value.toValues : List Value → Except Error (List SqlFilter.Value)
  | [] => .ok []
  | v :: vs => do
    let v ← v.toValue
    let vs ← Value.toValues vs
    .ok (v :: vs)

end

end SqlFilter.Toml
