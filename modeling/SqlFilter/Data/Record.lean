import SqlFilter.Config
import SqlFilter.Data.Predicate

/-! Parameters, queries, clauses and settings as records. -/
namespace SqlFilter

def Parameter.ofData? (f : Format) (d : Data) : Option Parameter := do
  let fields : Fields ← d.fields? ["name", "value", "sql_type"] 3
  some {
    name := ← fields.required "name" Data.text?
    value := ← fields.required "value" (Value.ofData? f)
    type := ← fields.required "sql_type" (Data.choice? f SqlType.keys) }

def Parameter.toData (p : Parameter) : Data :=
  .record [("name", .text p.name), ("value", p.value.toData), ("sql_type", .text p.type.key)]

def PreparedQuery.ofData? (f : Format) (d : Data) : Option PreparedQuery := do
  let fields : Fields ← d.fields? ["sql", "params"] 2
  some {
    sql := ← fields.required "sql" Data.text?
    params := ← (← fields.required "params" Data.list?).mapM (Parameter.ofData? f) }

def PreparedQuery.toData (q : PreparedQuery) : Data :=
  .record [("sql", .text q.sql), ("params", .list (q.params.map Parameter.toData))]

def Cte.ofData? (d : Data) : Option Cte := do
  let fields : Fields ← d.fields? ["name", "query"] 2
  some ⟨← fields.required "name" Data.text?, ← fields.required "query" Data.text?⟩

def Cte.toData (c : Cte) : Data := .record [("name", .text c.name), ("query", .text c.query)]

def Pagination.ofData? (d : Data) : Option Pagination := do
  let fields : Fields ← d.fields? ["offset", "page_size"] 2
  some ⟨← fields.required "offset" Data.uint64?, ← fields.required "page_size" Data.uint64?⟩

def Pagination.toData (p : Pagination) : Data :=
  .record [("offset", .integer p.offset.toNat), ("page_size", .integer p.pageSize.toNat)]

def CompileOptions.ofData? (f : Format) (d : Data) : Option CompileOptions := do
  let fields : Fields ← d.fields? ["literals", "convert", "parameter_prefix"] 0
  let default : CompileOptions := {}
  some {
    literals := ← fields.withDefault "literals" default.literals (Data.choice? f LiteralMode.keys)
    convert := ← fields.withDefault "convert" default.convert (Data.choice? f ConvertPolicy.keys)
    stem := ← fields.withDefault "parameter_prefix" default.stem Data.text? }

def CompileOptions.toData (o : CompileOptions) : Data :=
  .record [("literals", .text o.literals.key), ("convert", .text o.convert.key),
    ("parameter_prefix", .text o.stem)]

def QueryOptions.ofData? (d : Data) : Option QueryOptions := do
  let fields : Fields ← d.fields? ["recompile_hint"] 0
  let default : QueryOptions := {}
  some ⟨← fields.withDefault "recompile_hint" default.recompileHint Data.bool?⟩

def QueryOptions.toData (o : QueryOptions) : Data :=
  .record [("recompile_hint", .bool o.recompileHint)]

/-- A configuration has no keys but its sections; within a section other keys are ignored. -/
def Config.ofData? (f : Format) (d : Data) : Option Config := do
  let keys := ["compiler", "query"]
  let fields : Fields ← d.fields? keys 0
  if fields.onlyKeys keys then
    some {
      compiler := ← fields.withDefault "compiler" {} (CompileOptions.ofData? f)
      query := ← fields.withDefault "query" {} QueryOptions.ofData? }
  else none

def Config.toData (c : Config) : Data :=
  .record [("compiler", c.compiler.toData), ("query", c.query.toData)]

end SqlFilter
