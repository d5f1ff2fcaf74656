import WindowHost.CommandLine
import WindowHost.Demo

/-! The program: it reads its command line and configuration file, and prints what they ask
for. -/
namespace WindowHost

def usage : String :=
  "Launch resolution and visibility propagation for a task-based window host\n\n" ++
  "Usage: windowhost <COMMAND>\n\n" ++
  "Commands:\n" ++
  "  validate  Validate the config file\n" ++
  "  demo      Run a scripted launch scenario and print the results\n" ++
  "  help      Print this message\n\n" ++
  "Options of the commands:\n" ++
  "  -c, --config <CONFIG>  Path to config file (default: built-in defaults)\n" ++
  "  -j, --json             Print the results as JSON (demo only)\n"

def readConfig : Option String → IO (Except ConfigError Config)
  | none => return .ok {}
  | some path => do
    match ← (IO.FS.readBinFile path).toBaseIO with
    | .ok contents => return Config.load (.file contents)
    | .error _ => return Config.load .missingFile

def complain (message : String) (code : UInt32) : IO UInt32 := do
  IO.eprintln ("error: " ++ message)
  return code

def runCommand : Command → IO UInt32
  | .validate path => do
    match ← readConfig path with
    | .ok _ => return 0
    | .error e => complain e.message 1
  | .demo path json => do
    match ← readConfig path with
    | .error e => complain e.message 1
    | .ok config =>
      match Demo.output config json with
      | .ok text => IO.print text; return 0
      | .error message => complain message 1

end WindowHost

open WindowHost in
def main (args : List String) : IO UInt32 := do
  match Command.ofArguments args with
  | .ok command => runCommand command
  | .error .help => IO.print usage; return 0
  | .error .version => IO.println "windowhost 0.3.0"; return 0
  | .error .nothing => IO.eprint usage; return 2
  | .error .unknownArgument => complain "unexpected argument" 2
  | .error .unknownCommand => complain "unrecognized subcommand" 2
  | .error .missingValue => complain "a value is required for '--config <CONFIG>'" 2
  | .error .repeated => complain "an option is given more than once" 2
  | .error .unwantedValue => complain "unexpected value for an option" 2
