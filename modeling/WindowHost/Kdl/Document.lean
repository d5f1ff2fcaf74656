import WindowHost.Kdl.Text

/-! Documents of the language KDL, version 1, without what was dropped by a slash and a dash. -/
namespace WindowHost.Kdl

structure Value where
  type : Option String := none
  literal : Literal
  deriving DecidableEq

inductive Node where
  | node (type : Option String) (name : String) (arguments : List Value)
      (properties : List (String × Value)) (children : List Node)

namespace Node

def type : Node → Option String
  | .node type .. => type

def name : Node → String
  | .node _ name .. => name

def arguments : Node → List Value
  | .node _ _ arguments .. => arguments

def properties : Node → List (String × Value)
  | .node _ _ _ properties _ => properties

def children : Node → List Node
  | .node _ _ _ _ children => children

end Node

/-- One item behind the name of a node. -/
inductive Item where
  | argument (v : Value)
  | property (name : String) (v : Value)

def typeName : Reader String := do
  char '('
  let name ← name
  char ')'
  return name

def typedValue : Reader Value := do
  return { type := some (← typeName), literal := ← literal }

def value : Reader Value := typedValue <|> do
  return { literal := ← literal }

/-- An item that starts with a literal: a property if an equals sign follows, which only text may
be the name of. -/
def literalItem : Reader Item := do
  let l ← literal
  match ← maybe (do char '='; value), l with
  | none, l => return .argument { literal := l }
  | some v, .text name => return .property name v
  | some _, _ => failure

def bareProperty : Reader Item := do
  let name ← bareName
  char '='
  return .property name (← value)

def item : Reader Item := literalItem <|> bareProperty <|> Item.argument <$> typedValue

/-- The mark that drops what follows it. -/
def dropMark : Reader Unit := do
  word "/-"
  let _ ← many gap

/-- An item, or nothing for one that is dropped. -/
def itemOrDropped : Reader (Option Item) :=
  (do dropMark; let _ ← item; return none) <|> some <$> item

def terminator : Reader Unit := lineEnd <|> lineComment <|> char ';' <|> atEnd

/-- A node, given how to read the nodes in its braces. -/
def node (inner : Reader (List Node)) : Reader Node := do
  let type ← maybe typeName
  let name ← name
  let items ← many do
    let _ ← many1 gap
    itemOrDropped
  let children ← maybe do
    let _ ← many gap
    let dropped ← maybe dropMark
    char '{'
    let children ← inner
    char '}'
    return if dropped.isSome then [] else children
  let _ ← many gap
  terminator
  let arguments := items.filterMap fun
    | some (.argument v) => some v
    | _ => none
  let properties := items.filterMap fun
    | some (.property name v) => some (name, v)
    | _ => none
  return .node type name arguments properties (children.getD [])

/-- Nodes and what stands between them, in at most `depth` braces. -/
def nodes : Nat → Reader (List Node)
  | 0 => failure
  | depth + 1 => do
    let _ ← many nodeGap
    let found ← many do
      let dropped ← maybe dropMark
      let n ← node (nodes depth)
      let _ ← many nodeGap
      return if dropped.isSome then none else some n
    return found.filterMap id

/-- Reads a whole text. -/
def document? (text : String) : Option (List Node) :=
  let cs := text.toList
  ((do let ns ← nodes (cs.length + 1); atEnd; return ns : Reader (List Node)) cs).map Prod.fst

end WindowHost.Kdl
