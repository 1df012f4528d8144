import SqlFilter.Compiler
import SqlFilter.Placeholder
import SqlFilter.Select.Clause

/-!
SELECT statements, composed one call at a time. No call rejects its arguments: texts are taken as
they are, and only the compilation of a condition can fail.
-/
namespace SqlFilter

structure QueryOptions where
  recompileHint : Bool := true
  deriving DecidableEq, Repr

structure PreparedQuery where
  sql : String
  params : List Parameter := []
  deriving DecidableEq, Repr

/-- The first parameter of a name, with or without `@`. -/
def PreparedQuery.param? (q : PreparedQuery) (name : String) : Option Parameter :=
  q.params.find? (·.name == placeholder name)

structure Select where
  columns : List String := []
  rowCount : Bool := false
  ctes : List Cte := []
  sources : List Source := []
  conditions : List Condition := []
  grouping : List Grouping := []
  order : List OrderItem := []
  page : Option Pagination := none
  params : List Parameter := []
  options : QueryOptions := {}
  deriving DecidableEq, Repr

namespace Select

def columnNames (s : String) : List String :=
  ((s.toList.splitOn ',').map fun cs => Text.trim (.ofList cs)).filter (!·.isEmpty)

/-- Replaces the columns. A blank list and `*` leave them. -/
def select (s : Select) (columns : String) : Select :=
  let columns := Text.trim columns
  if columns.isEmpty ∨ columns = "*" then s else { s with columns := columnNames columns }

def addColumn (s : Select) (column : String) : Select :=
  if column ∈ s.columns then s else { s with columns := s.columns ++ [column] }

def addRowCount (s : Select) : Select := { s with rowCount := true }

def addSource (s : Select) (source : Source) : Select :=
  { s with sources := s.sources ++ [source] }

def addCondition (s : Select) (combinator : Combinator) (text : String) : Select :=
  if Text.allBlank text then s else { s with conditions := s.conditions ++ [⟨combinator, text⟩] }

/-- Adds a parameter. A name may be bound twice. -/
def addParameter (s : Select) (p : Parameter) : Select := { s with params := s.params ++ [p] }

def addParameters (s : Select) (ps : List Parameter) : Select :=
  { s with params := s.params ++ ps }

@[simp] theorem params_addCondition (s : Select) (combinator : Combinator) (text : String) :
    (s.addCondition combinator text).params = s.params := by
  unfold addCondition
  split <;> rfl

theorem conditions_addCondition (s : Select) (combinator : Combinator) (text : String) :
    (s.addCondition combinator text).conditions =
      s.conditions ++ if Text.allBlank text then [] else [⟨combinator, text⟩] := by
  unfold addCondition
  split <;> simp

@[simp] theorem params_addParameters (s : Select) (ps : List Parameter) :
    (s.addParameters ps).params = s.params ++ ps := rfl

@[simp] theorem conditions_addParameters (s : Select) (ps : List Parameter) :
    (s.addParameters ps).conditions = s.conditions := rfl

/--
Adds the condition that ends in the placeholder of a new parameter, unless the condition or the
name is blank.
-/
def addFilter (s : Select) (condition name : String) (v : Value) : Select :=
  if Text.allBlank condition ∨ Text.allBlank name then s
  else
    let p := Parameter.inferred name v
    (s.addCondition .and (Text.trim condition ++ " " ++ p.name)).addParameter p

/-- A name without its leading `@` signs and its last digits. -/
def nameStem (name : String) : String :=
  .ofList (Text.dropLastWhile Char.isDigit (bareName name).toList)

def numbered (stem : String) (i : Nat) : String := "@" ++ stem ++ toString i

/--
The first of `@stem0`, `@stem1`, … that is not taken, for the stem of a name. Among one more
candidates than there are taken names one is free.
-/
def nextFreeName (name : String) (taken : List String) : String :=
  let candidates := (List.range (taken.length + 1)).map (numbered (nameStem name))
  (candidates.find? (· ∉ taken)).getD (numbered (nameStem name) 0)

/-- What renumbering has seen: bound names, names in use, and new names by their old ones. -/
structure Renumbering where
  bound : List String
  taken : List String
  renames : List (String × String) := []

namespace Renumbering

def step (r : Renumbering) (p : Parameter) : Parameter × Renumbering :=
  if p.name ∈ r.bound then
    let fresh := nextFreeName p.name r.taken
    ({ p with name := fresh },
      ⟨fresh :: r.bound, fresh :: r.taken, (bareName p.name, fresh) :: r.renames⟩)
  else (p, { r with bound := p.name :: r.bound })

def run (r : Renumbering) : List Parameter → List Parameter × Renumbering
  | [] => ([], r)
  | p :: ps =>
    let (p, r) := r.step p
    let (ps, r) := r.run ps
    (p :: ps, r)

/-- The new name of a placeholder, both without `@`. -/
def rename (r : Renumbering) (name : String) : Option String :=
  (r.renames.lookup name).map bareName

end Renumbering

/--
Adds a compiled condition with its parameters. Compilations number their parameters from zero
each, so a parameter whose name is bound here gets the next free number, also in the text.
-/
def filter (s : Select) (c : CompiledFilter) : Select :=
  let names := s.params.map Parameter.name
  let (params, r) := Renumbering.run ⟨names, names ++ c.params.map Parameter.name, []⟩ c.params
  (s.addCondition .and (Placeholder.rename r.rename c.sql)).addParameters params

def filterPredicate (s : Select) (o : CompileOptions) (p : Predicate) : Except Error Select :=
  (o.compile p).map s.filter

def addGrouping (s : Select) (g : Grouping) : Select := { s with grouping := s.grouping ++ [g] }

def addOrder (s : Select) (item : OrderItem) : Select := { s with order := s.order ++ [item] }

def setPage (s : Select) (page : Pagination) : Select := { s with page := some page }

def addCte (s : Select) (c : Cte) : Select := { s with ctes := s.ctes ++ [c] }

def withOptions (s : Select) (o : QueryOptions) : Select := { s with options := o }

end Select

end SqlFilter
