import WindowHost.Hierarchy.Basic

/-! Z-stacks of nodes. A stack lists nodes topmost first, each with the stack of what it holds,
so that every walk over a part of the hierarchy is a plain recursion. The two functions here that
follow links, down to the children and up to the parents, take at most as many steps as keys were
ever issued, which a hierarchy without cycles never reaches. -/
namespace WindowHost

inductive Layers where
  | nil
  /-- A node, what it holds, and what lies below it in the same stack. -/
  | node (id : NodeId) (inside below : Layers)

namespace Layers

/-- Every node of a stack, each before what it holds, topmost first. -/
def ids : Layers → List NodeId
  | .nil => []
  | .node id inside below => id :: (inside.ids ++ below.ids)

/-- Every node of a stack, each before what it holds, lowest first. -/
def rising : Layers → List NodeId
  | .nil => []
  | .node id inside below => below.rising ++ id :: inside.rising

end Layers

namespace Hierarchy

/-- Stacks up nodes, given topmost first, down to `depth` levels. -/
def stack (h : Hierarchy) : Nat → List NodeId → Layers
  | 0, _ => .nil
  | depth + 1, ks =>
    ks.foldr (fun k below => .node k (h.stack depth (h.children k).reverse) below) .nil

/-- What lies in a node. -/
def contents (h : Hierarchy) (k : NodeId) : Layers :=
  h.stack h.nodes.next (h.children k).reverse

/-- A node and what lies in it; nothing for a stale key. -/
def subtree (h : Hierarchy) (k : NodeId) : Layers :=
  if h.contains k then .node k (h.contents k) .nil else .nil

/-- All nodes on the displays, lowest first, each before what it holds. -/
def attached (h : Hierarchy) : List NodeId :=
  h.displays.flatMap fun display => (h.subtree display).rising

/-- Strict ancestors, nearest first, as far as `steps` links reach. -/
def ancestorsWithin (h : Hierarchy) : Nat → NodeId → List NodeId
  | 0, _ => []
  | steps + 1, k =>
    match h.parent? k with
    | none => []
    | some p => p :: h.ancestorsWithin steps p

/-- Strict ancestors, nearest first. -/
def ancestors (h : Hierarchy) (k : NodeId) : List NodeId := h.ancestorsWithin h.nodes.next k

/-- A node and its ancestors, nearest first; nothing for a stale key. -/
def lineage (h : Hierarchy) (k : NodeId) : List NodeId :=
  if h.contains k then k :: h.ancestors k else []

end Hierarchy
end WindowHost
