import SqlFilter.Predicate

/-! What can go wrong, by cause, and the wording of each report. -/
namespace SqlFilter

inductive Unsupported
  | cast (target : ValueType)
  /-- The record itself, under its name. -/
  | record (name : String)
  | method (name : String)
  /-- `equals` without a receiver, or with other than one argument. -/
  | equalsOperands
  /-- A membership test without a collection and a value. -/
  | membershipOperands
  /-- A membership test whose collection is no list constant. -/
  | collection (found : NodeKind)
  deriving DecidableEq, Repr

namespace Unsupported

def kind : Unsupported → NodeKind
  | .cast _ => .convert
  | .record _ => .parameter
  | .method _ | .equalsOperands | .membershipOperands | .collection _ => .call

def detail : Unsupported → String
  | .cast target => "cast to " ++ target.text ++ " is not translated"
  | .record name => "record parameter '" ++ name ++ "' has no SQL form"
  | .method name => "method '" ++ name ++ "' is not whitelisted"
  | .equalsOperands => Method.equals.name ++ " expects a receiver and one argument"
  | .membershipOperands => Method.containsAny.name ++ " expects a collection and a value"
  | .collection found =>
    Method.containsAny.name ++ " expects a constant collection, got " ++ found.name

end Unsupported

inductive DateTimeFault
  | endsEarly
  | strayCharacters
  deriving DecidableEq, Repr

def DateTimeFault.reason : DateTimeFault → String
  | .endsEarly => "premature end of input"
  | .strayCharacters => "input contains invalid characters"

inductive ConfigFault
  | stemNotAWord (stem : String)
  | caseWithoutDefault
  | columnOrCase
  | badDateTime (text : String) (fault : DateTimeFault)
  | tableValue
  deriving DecidableEq, Repr

def ConfigFault.detail : ConfigFault → String
  | .stemNotAWord stem => "parameter_prefix must be a non-empty word, got '" ++ stem ++ "'"
  | .caseWithoutDefault => "order entry with `case` needs a `default`"
  | .columnOrCase => "order entry needs exactly one of `column` or `case`"
  | .badDateTime text fault => "bad datetime '" ++ text ++ "': " ++ fault.reason
  | .tableValue => "parameter values must be scalars or arrays"

inductive Error
  | unsupported (cause : Unsupported)
  | parameterCount (expected found : Nat)
  | execution (reason : String)
  | config (fault : ConfigFault)
  | file (reason : String)
  | json
  | toml
  deriving DecidableEq, Repr

/-- The report of a failure. Faults of JSON and TOML texts are not worded. -/
def Error.message : Error → String
  | .unsupported cause =>
    "Unsupported expression: " ++ cause.kind.name ++ " (" ++ cause.detail ++ ")"
  | .parameterCount expected found =>
    "Parameter count mismatch: statement expects " ++ toString expected ++ ", got " ++
      toString found
  | .execution reason => "Execution error: " ++ reason
  | .config fault => "Configuration error: " ++ fault.detail
  | .file reason => "IO error: " ++ reason
  | .json => "JSON error"
  | .toml => "TOML error"

theorem bind_eq_ok {ε α β : Type} {x : Except ε α} {f : α → Except ε β} {b : β} :
    x >>= f = .ok b ↔ ∃ a, x = .ok a ∧ f a = .ok b := by
  cases x with
  | error e => simp [bind, Except.bind]
  | ok a => simp [bind, Except.bind]

theorem exists_of_map_toOption {ε α β : Type} {x : Except ε α} {f : α → β} {b : β}
    (h : x.toOption.map f = some b) : ∃ a, x = .ok a ∧ f a = b := by
  cases x with
  | error e => cases h
  | ok a => exact ⟨a, rfl, Option.some.inj h⟩

end SqlFilter
