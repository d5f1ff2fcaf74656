/-! The command line: two commands, each with its options. Options may come in any order, a value
may follow its option or be attached to it, and short options may be run together. -/
namespace WindowHost

inductive Command where
  /-- Check a configuration. -/
  | validate (config : Option String)
  /-- Run the demo. -/
  | demo (config : Option String) (json : Bool)
  deriving DecidableEq, Repr

namespace Command

/-- Why a command line gives no command. -/
inductive Refusal where
  | help
  | version
  /-- Nothing is asked for. -/
  | nothing
  | unknownArgument
  | unknownCommand
  /-- An option lacks its value. -/
  | missingValue
  /-- An option is given twice. -/
  | repeated
  /-- A value is attached to an option that takes none. -/
  | unwantedValue
  deriving DecidableEq, Repr

/-- An option whose value is still open. -/
inductive Pending where
  | none
  /-- The value has to come next. -/
  | awaited
  /-- The value came; it is checked before the next option takes effect. -/
  | value (v : String)
  deriving DecidableEq, Repr

/-- The options of a command so far. -/
structure Options where
  /-- Whether the command has the switch for structured output. -/
  takesJson : Bool
  config : Option String := .none
  json : Bool := false
  pending : Pending := .none

namespace Options

/-- Sets the configuration file. A second one is refused before an empty one is. -/
def setConfig (o : Options) (v : String) : Except Refusal Options :=
  if o.config.isSome then .error .repeated
  else if v.isEmpty then .error .missingValue
  else .ok { o with config := some v, pending := .none }

/-- Checks the value that is still open. -/
def settle (o : Options) : Except Refusal Options :=
  match o.pending with
  | .none => .ok o
  | .awaited => .error .missingValue
  | .value v => o.setConfig v

def await (o : Options) : Except Refusal Options := do
  return { ← o.settle with pending := .awaited }

def attach (o : Options) (v : String) : Except Refusal Options := do
  (← o.settle).setConfig v

def setJson (o : Options) : Except Refusal Options := do
  let o ← o.settle
  if o.json then throw .repeated
  return { o with json := true }

def help (o : Options) : Except Refusal Options := do
  let _ ← o.settle
  throw .help

/-- Takes a long option, without its dashes, and the value after its equals sign. -/
def long (o : Options) (name : String) (value : Option String) : Except Refusal Options :=
  match name, value with
  | "config", some v => o.attach v
  | "config", none => o.await
  | "json", some _ => .error (if o.takesJson then .unwantedValue else .unknownArgument)
  | "json", none => if o.takesJson then o.setJson else .error .unknownArgument
  | "help", some _ => .error .unwantedValue
  | "help", none => o.help
  | _, _ => .error .unknownArgument

/-- Takes short options that are run together, without their dash. What follows the option for
the configuration file is its value, an equals sign in between left aside. -/
def short (o : Options) : List Char → Except Refusal Options
  | [] => .ok o
  | 'c' :: [] => o.await
  | 'c' :: '=' :: v => o.attach (String.ofList v)
  | 'c' :: v => o.attach (String.ofList v)
  | 'h' :: _ => o.help
  | 'j' :: rest =>
    if o.takesJson then do
      (← o.setJson).short rest
    else .error .unknownArgument
  | _ :: _ => .error .unknownArgument

/-- Takes an argument that is no option: it can only be a value that is awaited. -/
def plain (o : Options) (arg : String) : Except Refusal Options :=
  if o.pending = .awaited then .ok { o with pending := .value arg }
  else .error .unknownArgument

/-- Takes one argument other than `--`. A single dash is no option. -/
def take (o : Options) (arg : String) : Except Refusal Options :=
  match arg.toList with
  | '-' :: '-' :: rest =>
    let name := rest.takeWhile (· != '=')
    let value := (rest.drop name.length).tail?
    o.long (String.ofList name) (value.map String.ofList)
  | '-' :: c :: rest => o.short (c :: rest)
  | _ => o.plain arg

/-- Takes all arguments of a command. Nothing may follow `--`. -/
def takeAll (o : Options) : List String → Except Refusal Options
  | [] => o.settle
  | "--" :: rest => if rest.isEmpty then o.settle else .error .unknownArgument
  | arg :: rest => do
    (← o.take arg).takeAll rest

end Options

/-- The names of the commands, the one for help among them. -/
def names : List String := ["validate", "demo", "help"]

/-- What is asked of the command for help: the program or one of the commands. -/
def helpFor : List String → Refusal
  | [] => .help
  | [name] => if names.contains name then .help else .unknownCommand
  | _ => .unknownCommand

/-- A long option ahead of any command. -/
def leadingLong (rest : List Char) : Refusal :=
  let name := String.ofList (rest.takeWhile (· != '='))
  let hasValue := rest.contains '='
  if name = "help" then if hasValue then .unwantedValue else .help
  else if name = "version" then if hasValue then .unwantedValue else .version
  else .unknownArgument

/-- Reads a command line, the name of the program left out. -/
def ofArguments : List String → Except Refusal Command
  | [] => .error .nothing
  | ["--"] => .error .nothing
  | "--" :: arg :: _ =>
    .error (if names.contains arg then .unknownArgument else .unknownCommand)
  | "validate" :: rest => do
    return .validate (← Options.takeAll { takesJson := false } rest).config
  | "demo" :: rest => do
    let o ← Options.takeAll { takesJson := true } rest
    return .demo o.config o.json
  | "help" :: rest => .error (helpFor rest)
  | arg :: _ =>
    match arg.toList with
    | '-' :: '-' :: rest => .error (leadingLong rest)
    | '-' :: 'h' :: _ => .error .help
    | '-' :: 'V' :: _ => .error .version
    | '-' :: _ :: _ => .error .unknownArgument
    | _ => .error .unknownCommand

end Command
end WindowHost
