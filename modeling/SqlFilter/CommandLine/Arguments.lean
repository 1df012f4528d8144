/-!
The arguments of the command line. They are read from left to right; a request for help or for the
version ends the reading, and so does the first argument that does not fit.
-/
namespace SqlFilter.CommandLine

inductive OutputFormat
  | text
  | json
  deriving DecidableEq, Repr

inductive Command
  | compile (input : String) (bound : Bool) (format : OutputFormat)
  | query (file : String) (format : OutputFormat)
  | params (sql : String)
  | config
  deriving DecidableEq, Repr

inductive Flag
  | config
  | verbose
  | help
  | version
  | bound
  | format
  deriving DecidableEq, Repr

namespace Flag

def takesValue : Flag → Bool
  | .config | .format => true
  | _ => false

def letter : Flag → Char
  | .config => 'c'
  | .verbose => 'v'
  | .help => 'h'
  | .version => 'V'
  | .bound => 'b'
  | .format => 'f'

def name : Flag → String
  | .config => "config"
  | .verbose => "verbose"
  | .help => "help"
  | .version => "version"
  | .bound => "bound"
  | .format => "format"

end Flag

inductive Stop
  | help
  | version
  | usage
  deriving DecidableEq, Repr

/-- What was read so far in front of a subcommand, or behind it. -/
structure Seen where
  config : Option String := none
  verbose : Bool := false
  bound : Bool := false
  format : Option OutputFormat := none
  operands : List String := []
  deriving DecidableEq, Repr

namespace Seen

/-- Notes an option without a value. No option may be given twice. -/
def flag (s : Seen) : Flag → Except Stop Seen
  | .help => .error .help
  | .version => .error .version
  | .verbose => if s.verbose then .error .usage else .ok { s with verbose := true }
  | .bound => if s.bound then .error .usage else .ok { s with bound := true }
  | .config | .format => .error .usage

def option (s : Seen) (f : Flag) (value : String) : Except Stop Seen :=
  match f with
  | .config =>
    if s.config.isSome ∨ value.isEmpty then .error .usage else .ok { s with config := some value }
  | .format =>
    match s.format, value with
    | none, "text" => .ok { s with format := some .text }
    | none, "json" => .ok { s with format := some .json }
    | _, _ => .error .usage
  | _ => .error .usage

def letters (known : List Flag) (s : Seen) : List Char → Except Stop (Seen × Option Flag)
  | [] => .ok (s, none)
  | c :: cs =>
    match known.find? (·.letter == c) with
    | none => .error .usage
    | some f =>
      if f.takesValue then
        match cs with
        | [] => .ok (s, some f)
        | '=' :: value => (s.option f (.ofList value)).map (·, none)
        | value => (s.option f (.ofList value)).map (·, none)
      else do letters known (← s.flag f) cs

def named (known : List Flag) (s : Seen) (cs : List Char) : Except Stop (Seen × Option Flag) :=
  let name := cs.takeWhile (· != '=')
  match known.find? (·.name == .ofList name), cs.drop name.length with
  | none, _ => .error .usage
  | some f, [] => if f.takesValue then .ok (s, some f) else (s.flag f).map (·, none)
  | some f, _ :: value =>
    if f.takesValue then (s.option f (.ofList value)).map (·, none) else .error .usage

end Seen

/-- Whether an argument is an option; a lone dash is none. -/
def isOption (arg : String) : Bool :=
  match arg.toList with
  | '-' :: _ :: _ => true
  | _ => false

def noteOption (known : List Flag) (s : Seen) (arg : String) : Except Stop (Seen × Option Flag) :=
  match arg.toList with
  | '-' :: '-' :: cs => s.named known cs
  | _ :: cs => s.letters known cs
  | [] => .error .usage

/--
Reads options and at most `operands` arguments that are none. Behind `--` there are no options.
-/
def readArgs (known : List Flag) (operands : Nat) (s : Seen) : List String → Except Stop Seen
  | [] => .ok s
  | arg :: rest =>
    if arg = "--" then
      if operands < s.operands.length + rest.length then .error .usage
      else .ok { s with operands := s.operands ++ rest }
    else if isOption arg then do
      let (s, pending) ← noteOption known s arg
      match pending, rest with
      | none, rest => readArgs known operands s rest
      | some f, value :: rest =>
        if isOption value then .error .usage
        else readArgs known operands (← s.option f value) rest
      | some _, [] => .error .usage
    else if s.operands.length < operands then
      readArgs known operands { s with operands := s.operands ++ [arg] } rest
    else .error .usage

def readFront (known : List Flag) (s : Seen) : List String → Except Stop (Seen × List String)
  | [] => .ok (s, [])
  | arg :: rest =>
    if arg = "--" then .error .usage
    else if isOption arg then do
      let (s, pending) ← noteOption known s arg
      match pending, rest with
      | none, rest => readFront known s rest
      | some f, value :: rest =>
        if isOption value then .error .usage else readFront known (← s.option f value) rest
      | some _, [] => .error .usage
    else .ok (s, arg :: rest)

def subcommands : List String := ["compile", "query", "params", "config"]

/-- Whether there is help on a run of names: on the whole program, or on one subcommand. -/
def hasHelp : List String → Bool
  | [] | ["help"] => true
  | [name] => name ∈ subcommands
  | _ => false

structure Request where
  config : Option String
  verbose : Bool
  command : Command
  deriving DecidableEq, Repr

def readCommand (name : String) (args : List String) : Except Stop (Command × Seen) := do
  let common := [Flag.config, .verbose, .help]
  match name with
  | "compile" =>
    let s ← readArgs (common ++ [.bound, .format]) 1 {} args
    let [input] := s.operands | .error .usage
    .ok (.compile input s.bound (s.format.getD .text), s)
  | "query" =>
    let s ← readArgs (common ++ [.format]) 1 {} args
    let [file] := s.operands | .error .usage
    if file.isEmpty then .error .usage
    .ok (.query file (s.format.getD .text), s)
  | "params" =>
    let s ← readArgs common 1 {} args
    let [sql] := s.operands | .error .usage
    .ok (.params sql, s)
  | "config" =>
    let s ← readArgs common 0 {} args
    .ok (.config, s)
  | "help" => .error (if hasHelp args then .help else .usage)
  | _ => .error .usage

/--
What the arguments ask for. The path of the configuration may stand in front of the subcommand or
behind it, and the latter counts; `fallback` is used where it stands at neither place, and may not
be empty where it stands at one of them only.
-/
def readRequest (fallback : Option String) (args : List String) : Except Stop Request := do
  let (front, rest) ← readFront [.config, .verbose, .help, .version] {} args
  let name :: args := rest | .error .usage
  let (command, back) ← readCommand name args
  if fallback = some "" ∧ (front.config.isNone ∨ back.config.isNone) then .error .usage
  .ok ⟨back.config <|> front.config <|> fallback, front.verbose || back.verbose, command⟩

end SqlFilter.CommandLine
