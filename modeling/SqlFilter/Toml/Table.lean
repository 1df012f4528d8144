import SqlFilter.Toml.Value

/-!
Tables that grow while a text is read. A table is opened once, by a header or by the keys with
points that go through it, and a key has one value.
-/
namespace SqlFilter.Toml

inductive Origin
  /-- A header of its own. -/
  | header
  | implied
  /-- A key with points. -/
  | dotted
  deriving DecidableEq, Repr

inductive Node
  | value (v : Value)
  | table (origin : Origin) (entries : List (String × Node))
  /-- The tables that headers in double brackets opened, the last one first. -/
  | tables (items : List (List (String × Node)))
  deriving Repr

abbrev Entries := List (String × Node)

def Entries.set (entries : Entries) (key : String) (node : Node) : Entries :=
  if entries.any (·.1 == key) then entries.map fun e => if e.1 == key then (key, node) else e
  else entries ++ [(key, node)]

/--
Changes the table at a path. Tables on the way are made where they are missing; of several tables
under one key the last is meant. Keys with points do not go into tables that have a header.
-/
def Entries.update (byKey : Bool) (change : Origin → Entries → Option Entries) :
    List String → Origin → Entries → Option Entries
  | [], origin, entries => change origin entries
  | key :: path, _, entries =>
    match entries.lookup key with
    | none => do
      let origin := if byKey then .dotted else .implied
      some (entries.set key (.table origin (← update byKey change path origin [])))
    | some (.value _) => none
    | some (.table origin inner) =>
      if byKey ∧ origin = .header then none
      else do some (entries.set key (.table origin (← update byKey change path origin inner)))
    | some (.tables []) => none
    | some (.tables (last :: items)) => do
      some (entries.set key (.tables ((← update byKey change path .header last) :: items)))

def Entries.addValue (origin : Origin) (entries : Entries) (path : List String) (key : String)
    (v : Value) : Option Entries :=
  let insert (origin : Origin) (inner : Entries) : Option Entries :=
    if (origin == .dotted) == path.isEmpty then none
    else if (inner.lookup key).isSome then none
    else some (inner ++ [(key, .value v)])
  entries.update true insert path origin

/--
Opens the table of a header. A table that only lower headers have implied is opened by it, and
moves to the end.
-/
def Entries.openTable (entries : Entries) (path : List String) (key : String) : Option Entries :=
  let insert (_ : Origin) (inner : Entries) : Option Entries :=
    match inner.lookup key with
    | none => some (inner.set key (.table .header []))
    | some (.table .implied below) =>
      some (inner.filter (·.1 != key) ++ [(key, .table .header below)])
    | some _ => none
  entries.update false insert path .header

def Entries.openItem (entries : Entries) (path : List String) (key : String) : Option Entries :=
  let insert (_ : Origin) (inner : Entries) : Option Entries :=
    match inner.lookup key with
    | none => some (inner.set key (.tables [[]]))
    | some (.tables items) => some (inner.set key (.tables ([] :: items)))
    | some _ => none
  entries.update false insert path .header

mutual

def Node.toValue : Node → Value
  | .value v => v
  | .table _ entries => .table (Node.toEntries entries)
  | .tables items => .array (Node.toTables items).reverse

def Node.toEntries : List (String × Node) → List (String × Value)
  | [] => []
  | (key, node) :: entries => (key, node.toValue) :: Node.toEntries entries

def Node.toTables : List (List (String × Node)) → List Value
  | [] => []
  | entries :: items => .table (Node.toEntries entries) :: Node.toTables items

end

end SqlFilter.Toml
