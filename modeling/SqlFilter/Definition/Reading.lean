import SqlFilter.Data.Record
import SqlFilter.Definition.Basic
import SqlFilter.Toml.Reader

/-! Definitions in TOML texts, with a key for each clause. Keys of no clause are refused. -/
namespace SqlFilter.QueryDefinition

/-- A join; without a kind it is an inner join. -/
def join? (d : Data) : Option Source := do
  let keys := ["kind", "table", "alias", "on"]
  let fields : Fields ← d.fields? keys 4
  if fields.onlyKeys keys then
    some (.join (← fields.withDefault "kind" .inner (Data.choice? .toml JoinKind.keys))
      (← fields.required "table" Data.text?) (← fields.required "alias" Data.text?)
      (← fields.required "on" Data.text?))
  else none

def condition? (d : Data) : Option Condition := do
  let keys := ["op", "condition"]
  let fields : Fields ← d.fields? keys 2
  if fields.onlyKeys keys then
    some ⟨← fields.withDefault "op" .first (Data.choice? .toml Combinator.keys),
      ← fields.required "condition" Data.text?⟩
  else none

def order? (d : Data) : Option OrderDefinition := do
  let keys := ["column", "case", "default", "direction"]
  let fields : Fields ← d.fields? keys 3
  if fields.onlyKeys keys then
    some {
      column := ← fields.optional "column" Data.text?
      case := ← fields.optional "case" Data.text?
      default := ← fields.optional "default" Data.text?
      direction := ← fields.withDefault "direction" .asc (Data.choice? .toml SortOrder.keys) }
  else none

def rawValue? (keys : List String) (key : String) : Toml.Value → Option Toml.Value
  | .table entries => entries.lookup key
  | .array items => (keys.zip items).lookup key
  | _ => none

def parameter? (v : Toml.Value) : Option ParameterDefinition := do
  let keys := ["name", "value", "type"]
  let fields : Fields ← v.toData.fields? keys 3
  if fields.onlyKeys keys then
    some {
      name := ← fields.required "name" Data.text?
      value := ← (← rawValue? keys "value" v).withStamps?
      type := ← fields.optional "type" (Data.choice? .toml SqlType.keys) }
  else none

def keys : List String :=
  ["select", "columns", "row_count", "from", "cte", "join", "where", "predicate", "group_by",
    "having", "order", "page", "parameter"]

/-- A list under a key, each item read alike; an absent list is empty. -/
def listOf? {α : Type} (fields : Fields) (key : String) (read : Data → Option α) :
    Option (List α) :=
  fields.withDefault key [] fun d => do (← d.list?).mapM read

def items? : Toml.Value → Option (List Toml.Value)
  | .array items => some items
  | _ => none

def ofTable? (entries : List (String × Toml.Value)) : Option QueryDefinition := do
  let fields : Fields := Toml.Value.toFields entries
  if fields.onlyKeys keys then
    some {
      select := ← fields.optional "select" Data.text?
      columns := ← listOf? fields "columns" Data.text?
      rowCount := ← fields.withDefault "row_count" false Data.bool?
      from? := ← fields.optional "from" Data.text?
      ctes := ← listOf? fields "cte" Cte.ofData?
      joins := ← listOf? fields "join" join?
      conditions := ← listOf? fields "where" condition?
      predicate := ← fields.optional "predicate" (Predicate.ofData? .toml)
      groupBy := ← fields.optional "group_by" Data.text?
      having := ← fields.optional "having" Data.text?
      order := ← listOf? fields "order" order?
      page := ← fields.optional "page" Pagination.ofData?
      parameters := ← match entries.lookup "parameter" with
        | none => some []
        | some v => (items? v).bind (List.mapM parameter?) }
  else none

def ofToml (s : String) : Except Error QueryDefinition :=
  match (Toml.read? s).bind ofTable? with
  | some d => .ok d
  | none => .error .toml

end SqlFilter.QueryDefinition
