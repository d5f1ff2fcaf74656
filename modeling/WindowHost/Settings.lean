import WindowHost.Kdl.Document

/-! The settings of a host: the configuration as its file gives it, and the switches that follow
from it. -/
namespace WindowHost

structure Config where
  allowBackgroundStarts : Bool := false
  logStarts : Bool := false
  /-- How long the order of the recent tasks stays frozen, in milliseconds. -/
  freezeTimeout : Nat := 5000
  maxTasks : Nat := 50
  traceVisibility : Bool := false
  deriving DecidableEq

inductive ConfigError where
  /-- The file cannot be read. -/
  | unreadable
  /-- The file holds no text. -/
  | notText
  | malformed
  | unexpectedNode (name : String)
  | repeatedNode (name : String)
  | unexpectedType (node : String)
  | unexpectedArgument (node : String)
  | unexpectedProperty (node : String)
  | missingNumber (node : String)
  deriving DecidableEq

def ConfigError.message : ConfigError → String
  | .unreadable => "the file cannot be read"
  | .notText => "the file is not text"
  | .malformed => "the text is not well formed"
  | .unexpectedNode name => "unexpected node " ++ name
  | .repeatedNode name => "repeated node " ++ name
  | .unexpectedType node => "unexpected type in " ++ node
  | .unexpectedArgument node => "unexpected argument of " ++ node
  | .unexpectedProperty node => "unexpected property of " ++ node
  | .missingNumber node => "missing number in " ++ node

namespace Kdl.Node

/-- Checks that a node has neither arguments nor properties. -/
def checkBare (n : Node) : Except ConfigError Unit := do
  if !n.arguments.isEmpty then throw (.unexpectedArgument n.name)
  if !n.properties.isEmpty then throw (.unexpectedProperty n.name)

/-- Checks that a node holds no other. -/
def checkLeaf (n : Node) : Except ConfigError Unit :=
  match n.children with
  | [] => .ok ()
  | child :: _ => .error (.unexpectedNode child.name)

/-- Reads a node that says something by being there, whatever its type. -/
def flag (n : Node) : Except ConfigError Bool := do
  n.checkBare
  n.checkLeaf
  return true

/-- Reads a node that gives a 64-bit number. Its value may be marked with the types in `types`;
the type of the node itself plays no part. -/
def number (n : Node) (types : List String) : Except ConfigError Nat := do
  n.checkLeaf
  if !n.properties.isEmpty then throw (.unexpectedProperty n.name)
  match n.arguments with
  | [] => throw (.missingNumber n.name)
  | [v] =>
    if v.type.any (!types.contains ·) then throw (.unexpectedType n.name)
    match v.literal with
    | .integer false magnitude =>
      if magnitude < UInt64.size then return magnitude else throw (.missingNumber n.name)
    | _ => throw (.missingNumber n.name)
  | _ => throw (.unexpectedArgument n.name)

end Kdl.Node

namespace Config

/-- The first node whose name was there before. -/
def repeated? : List Kdl.Node → Option String
  | [] => none
  | n :: ns => if ns.any (·.name == n.name) then some n.name else repeated? ns

def checkUnique (ns : List Kdl.Node) : Except ConfigError Unit :=
  match repeated? ns with
  | some name => .error (.repeatedNode name)
  | none => .ok ()

def readRecents (c : Config) (n : Kdl.Node) : Except ConfigError Config := do
  match n.name with
  | "freeze-timeout-ms" => return { c with freezeTimeout := ← n.number ["u64"] }
  | "max-tasks" => return { c with maxTasks := ← n.number [] }
  | name => throw (.unexpectedNode name)

def readDebug (c : Config) (n : Kdl.Node) : Except ConfigError Config := do
  match n.name with
  | "trace-visibility" => return { c with traceVisibility := ← n.flag }
  | name => throw (.unexpectedNode name)

/-- Reads a node that holds others, each by `read` and none twice. It takes no type. -/
def readSection (read : Config → Kdl.Node → Except ConfigError Config) (c : Config) (n : Kdl.Node) :
    Except ConfigError Config := do
  if n.type.isSome then throw (.unexpectedType n.name)
  n.checkBare
  checkUnique n.children
  n.children.foldlM read c

def readNode (c : Config) (n : Kdl.Node) : Except ConfigError Config := do
  match n.name with
  | "allow-background-activity-starts" => return { c with allowBackgroundStarts := ← n.flag }
  | "log-activity-starts" => return { c with logStarts := ← n.flag }
  | "recents" => readSection readRecents c n
  | "debug" => readSection readDebug c n
  | name => throw (.unexpectedNode name)

/-- Reads the text of a configuration. What it does not set is as by default. -/
def ofText (text : String) : Except ConfigError Config := do
  match Kdl.document? text with
  | none => throw .malformed
  | some ns =>
    checkUnique ns
    ns.foldlM readNode {}

/-- Where a configuration comes from. -/
inductive Source where
  | builtIn
  | missingFile
  | file (contents : ByteArray)

def load : Source → Except ConfigError Config
  | .builtIn => .ok {}
  | .missingFile => .error .unreadable
  | .file contents =>
    match String.fromUTF8? contents with
    | some text => ofText text
    | none => .error .notText

end Config

/-- The switches of a host. -/
structure Options where
  backgroundStarts : Bool := false
  logsStarts : Bool := false
  freezeTimeout : Nat := 5000
  maxTasks : Nat := 50
  tracesVisibility : Bool := false

/-- The list of recent tasks holds at least one. -/
def Options.ofConfig (c : Config) : Options where
  backgroundStarts := c.allowBackgroundStarts
  logsStarts := c.logStarts
  freezeTimeout := c.freezeTimeout
  maxTasks := max c.maxTasks 1
  tracesVisibility := c.traceVisibility

end WindowHost
