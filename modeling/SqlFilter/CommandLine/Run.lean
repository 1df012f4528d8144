import SqlFilter.CommandLine.Arguments
import SqlFilter.CommandLine.Style
import SqlFilter.Config.Text
import SqlFilter.Definition.Reading
import SqlFilter.Json.Reader
import SqlFilter.Json.Writer
import SqlFilter.Select.Rendering

/-!
The program: it reads a condition or a query definition and writes the statement. What surrounds
it is given by the operations that it may use.
-/
namespace SqlFilter.CommandLine

structure Surroundings (m : Type → Type) where
  load : String → m (Except String String)
  isPresent : String → m Bool
  input : m (Except String String)
  userConfig : Option String
  defaultConfig : Option String
  colors : Bool

structure Outcome where
  exit : UInt8
  output : String := ""
  report : Option String := none
  deriving DecidableEq, Repr

def Outcome.errorText (colors : Bool) (o : Outcome) : String :=
  (o.report.map fun report => Style.boldRed.paint colors "Error:" ++ " " ++ report ++ "\n").getD ""

/--
The path of the user's configuration below the directory of configurations, which a relative path
does not name, or else below the home.
-/
def userConfigPath (directory home : Option String) : Option String :=
  let base := (directory.filter (·.startsWith "/")) <|> home.map (· ++ "/.config")
  base.map (· ++ "/predsql/config.toml")

def programVersion : String := "predsql 0.1.0\n"

def localConfig : String := "predsql.toml"

/-- The report of an error. That of an unreadable file names its reason twice. -/
def errorReport : Error → String
  | .file reason => Error.message (.file reason) ++ ": " ++ reason
  | e => e.message

abbrev Step (m : Type → Type) := ExceptT String m

variable {m : Type → Type} [Monad m]

def loadConfig (w : Surroundings m) (context path : String) : Step m Config :=
  .mk do
    let text ← w.load path
    let config := (text.mapError Error.file).bind Config.ofToml
    return config.mapError fun e => context ++ errorReport e

/--
The configuration: that of the given path, else that of the working directory, else that of the
user, else the default one.
-/
def findConfig (w : Surroundings m) (path : Option String) : Step m Config := do
  match path with
  | some path => loadConfig w ("loading config from " ++ path ++ ": ") path
  | none =>
    if ← w.isPresent localConfig then loadConfig w "" localConfig
    else
      match w.userConfig with
      | some path => if ← w.isPresent path then loadConfig w "" path else return {}
      | none => return {}

def readNamed (w : Surroundings m) (path : String) : Step m String :=
  .mk ((·.mapError ("reading " ++ path ++ ": " ++ ·)) <$> w.load path)

def readOperand (w : Surroundings m) (path : String) : Step m String :=
  if path = "-" then .mk w.input else readNamed w path

/-- The lines on parameters, behind an empty line; no parameters have none. -/
def paramsText (colors : Bool) (ps : List Parameter) : String :=
  if ps.isEmpty then ""
  else
    "\n" ++ Style.cyan.paint colors "Parameters:" ++ "\n" ++ .join (ps.map fun p =>
      "  " ++ Style.yellow.paint colors p.name ++ " " ++
        Style.dimmed.paint colors p.type.name ++ " = " ++ p.value.text ++ "\n")

def queryJson (q : PreparedQuery) : String := Json.write .pretty q.toData ++ "\n"

def filterText (colors : Bool) (format : OutputFormat) (c : CompiledFilter) : String :=
  match format with
  | .json => queryJson ⟨c.sql, c.params⟩
  | .text =>
    (if c.isEmpty then Style.dimmed.paint colors "(no constraint)"
      else Style.white.paint colors c.sql) ++ "\n" ++ paramsText colors c.params

def queryText (colors : Bool) (format : OutputFormat) (q : PreparedQuery) : String :=
  match format with
  | .json => queryJson q
  | .text =>
    Style.boldGreen.paint colors "Generated SQL:" ++ "\n" ++ Style.white.paint colors q.sql ++
      "\n" ++ paramsText colors q.params

def namesText (colors : Bool) (names : List String) : String :=
  if names.isEmpty then Style.dimmed.paint colors "No placeholders." ++ "\n"
  else
    .join (names.mapIdx fun i name =>
      "  " ++ Style.dimmed.paint colors (toString (i + 1) ++ ".") ++ " @" ++
        Style.yellow.paint colors name ++ "\n")

def perform (w : Surroundings m) (config : Config) : Command → Step m String
  | .compile input bound format => do
    let some p := (Json.read? (← readOperand w input)).bind (Predicate.ofData? .json)
      | throw "parsing predicate JSON"
    let options := if bound then { config.compiler with literals := .bound } else config.compiler
    match options.compile p with
    | .ok c => return filterText w.colors format c
    | .error e => throw (errorReport e)
  | .query file format => do
    let text ← readNamed w file
    match (QueryDefinition.ofToml text).bind (·.compose config.compiler config.query) with
    | .ok s => return queryText w.colors format s.build
    | .error e => throw (errorReport e)
  | .params sql => return namesText w.colors (Placeholder.names sql)
  | .config => return config.toToml

def run (w : Surroundings m) (args : List String) : m Outcome := do
  match readRequest w.defaultConfig args with
  | .error .help => return { exit := 0 }
  | .error .version => return { exit := 0, output := programVersion }
  | .error .usage => return { exit := 2 }
  | .ok request =>
    let step : Step m String := do perform w (← findConfig w request.config) request.command
    match ← step.run with
    | .ok output => return { exit := 0, output }
    | .error report => return { exit := 1, report := some report }

end SqlFilter.CommandLine
