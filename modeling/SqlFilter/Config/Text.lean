import SqlFilter.Data.Record
import SqlFilter.Toml.Reader

/-! Configurations as TOML texts. -/
namespace SqlFilter.Config

def ofToml (s : String) : Except Error Config :=
  let data? := (Toml.read? s).map fun entries => Data.record (Toml.Value.toFields entries)
  match data?.bind (ofData? .toml) with
  | some c => c.validate
  | none => .error .toml

/-- A configuration as a TOML text. Its stem is a word and needs no escapes. -/
def toToml (c : Config) : String :=
  "[compiler]\nliterals = \"" ++ c.compiler.literals.key ++ "\"\nconvert = \"" ++
    c.compiler.convert.key ++ "\"\nparameter_prefix = \"" ++ c.compiler.stem ++
    "\"\n\n[query]\nrecompile_hint = " ++ (if c.query.recompileHint then "true" else "false") ++
    "\n"

end SqlFilter.Config
