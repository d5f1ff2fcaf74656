import WindowHost.Hierarchy.Navigation

/-! The hierarchy as indented text, one node a line, the topmost child last. The nodes on the way
to the focus are marked. -/
namespace WindowHost

namespace Hierarchy

/-- The rank of a fragment among its siblings. -/
def rank (h : Hierarchy) (k : NodeId) : Nat :=
  ((h.parent? k).bind fun parent => (h.children parent).findIdx? (· == k)).getD 0

/-- The short text by which a node is referred to. -/
def label (h : Hierarchy) (k : NodeId) : String :=
  match h.data? k with
  | some (.task t) => t.id.toText
  | some (.fragment _) =>
    match (h.taskOf? k).bind h.task? with
    | some t => t.id.toText ++ ":" ++ toString (h.rank k)
    | none => "fragment " ++ toString (h.rank k)
  | some (.activity r) => r.component.toText
  | _ => "?"

def adjacentNote (h : Hierarchy) (adjacent : Option NodeId) : String :=
  match adjacent with
  | some k => " adjacent=" ++ h.label k
  | none => ""

/-- The line of one node, without indentation. -/
def outlineLine (h : Hierarchy) (focused : List NodeId) (k : NodeId) : String :=
  let mark := if focused.contains k then " *" else ""
  match h.data? k with
  | some (.display d) => "Display " ++ toString d.id.value.toNat ++ mark
  | some (.area a) => a.name
  | some (.task t) =>
    let head :=
      if h.isRootTask k then "RootTask " ++ t.id.toText ++ " " ++ t.mode.name
      else "Task " ++ t.id.toText
    let type :=
      if t.type = .standard ∨ t.type = .undefined then "" else " " ++ t.type.label
    head ++ type ++ h.adjacentNote t.adjacent ++ mark
  | some (.fragment f) => "TaskFragment " ++ h.label k ++ h.adjacentNote f.adjacent ++ mark
  | some (.activity r) =>
    r.component.toText ++ " " ++ r.state.label
      ++ (if r.visibleRequested then " visible" else "")
      ++ (if r.finishing then " finishing" else "") ++ mark
  | none => "(missing)"

/-- The lines of a stack, lowest node first. -/
def outlineOf (h : Hierarchy) (focused : List NodeId) (indent : String) : Layers → String
  | .nil => ""
  | .node k inside below =>
    h.outlineOf focused indent below ++ indent ++ h.outlineLine focused k ++ "\n"
      ++ h.outlineOf focused (indent ++ "  ") inside

/-- The whole text. -/
def outline (h : Hierarchy) : String :=
  if h.displays.isEmpty then "(empty)\n"
  else
    let focused := h.focusPath
    String.join (h.displays.map fun display => h.outlineOf focused "" (h.subtree display))

end Hierarchy
end WindowHost
