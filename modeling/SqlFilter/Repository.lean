import SqlFilter.Config
import SqlFilter.Conjunction
import SqlFilter.Digest
import SqlFilter.Select.Rendering

/-! Statements on one table: look-ups by key or by criteria, and statements written by hand. -/
namespace SqlFilter

structure Table where
  name : String
  key : String := "ID"
  deriving DecidableEq, Repr

structure EntityQuery where
  criteria : List Predicate := []
  columns : List String := []
  order : Option (String × SortOrder) := none
  deriving Repr

namespace EntityQuery

def add (q : EntityQuery) (p : Predicate) : EntityQuery := { q with criteria := q.criteria ++ [p] }

def addColumn (q : EntityQuery) (column : String) : EntityQuery :=
  { q with columns := q.columns ++ [column] }

/-- Orders by a column, in place of any ordering before. -/
def orderBy (q : EntityQuery) (column : String) (direction : SortOrder) : EntityQuery :=
  { q with order := some (column, direction) }

def condition? (q : EntityQuery) : Option Predicate :=
  if q.criteria.isEmpty then none else some (combine q.criteria)

end EntityQuery

structure Repository where
  table : Table
  config : Config := {}
  deriving DecidableEq, Repr

namespace Repository

def start (r : Repository) : Select :=
  (({} : Select).withOptions r.config.query).addSource (.table r.table.name)

def getAll (r : Repository) : PreparedQuery := r.start.build

def find (r : Repository) (q : EntityQuery) : Except Error PreparedQuery := do
  let s := q.columns.foldl Select.addColumn r.start
  let s ← match q.condition? with
    | some p => s.filterPredicate r.config.compiler p
    | none => .ok s
  .ok (q.order.elim s fun o => s.addOrder (.column o.1 o.2)).build

def getById (r : Repository) (id : Int64) : Except Error PreparedQuery :=
  r.find (({} : EntityQuery).add (.eq (.member r.table.key) (.lit (.int id))))

/-- A statement composed elsewhere, under the settings of the repository. -/
def prepare (r : Repository) (s : Select) : PreparedQuery := (s.withOptions r.config.query).build

/-- A statement written by hand, with values for its placeholders in order of first appearance. -/
def raw (sql : String) (values : List Value) : Except Error PreparedQuery :=
  let names := Placeholder.names sql
  if names.length = values.length then
    .ok ⟨sql, List.zipWith Parameter.inferred names values⟩
  else .error (.parameterCount names.length values.length)

/-- What tells queries apart: the text, and each parameter on a line of its own. -/
def fingerprint (q : PreparedQuery) : String :=
  q.sql ++ .join (q.params.map fun p => "\n" ++ p.text)

/-- A name for the result of a query: table, operation, and the first bytes of a digest. -/
def cacheKey (r : Repository) (operation : String) (q : PreparedQuery) : String :=
  let digest := Digest.sha256 (fingerprint q).toUTF8.toList
  r.table.name ++ ":" ++ operation ++ ":" ++ Digest.hex (digest.take 8)

def fetch {Rows : Type} (store : PreparedQuery → Except String Rows) (q : PreparedQuery) :
    Except Error Rows :=
  (store q).mapError .execution

end Repository

end SqlFilter
