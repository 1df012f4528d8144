import SqlFilter.Select.Basic

/-! The configuration: how conditions are compiled and how statements are rendered. -/
namespace SqlFilter

structure Config where
  compiler : CompileOptions := {}
  query : QueryOptions := {}
  deriving DecidableEq, Repr

namespace Config

/-- The stem of placeholders has to be a word, or else they would not be read as one name. -/
def validate (c : Config) : Except Error Config :=
  if Text.isWordText c.compiler.stem then .ok c
  else .error (.config (.stemNotAWord c.compiler.stem))

end Config

end SqlFilter
