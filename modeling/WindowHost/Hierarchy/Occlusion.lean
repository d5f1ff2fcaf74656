import WindowHost.Hierarchy.Navigation

/-! What covers what. A task or task fragment is to be seen when it has something to show and, at
no level up to its root task, lies below an opaque sibling that fills their parent or below an
opaque adjacent pair. Root tasks lie below fullscreen root tasks and split pairs only. All
questions are asked for an optional activity that is about to start. -/
namespace WindowHost.Hierarchy

/-- Nothing in a container is an opaque activity that runs or is about to start. -/
def isTranslucent (h : Hierarchy) (k : NodeId) (starting : Option NodeId) : Bool :=
  !(h.activities k).any fun j =>
    h.activityHas (fun r => (r.isRunning || some j == starting) && r.occludesParent) j

/-- A container that runs something and does not let through what lies below. -/
def isOpaque (h : Hierarchy) (k : NodeId) (starting : Option NodeId) : Bool :=
  h.hasRunningActivity k && !h.isTranslucent k starting

/-- The siblings above a child, topmost first. -/
def siblingsAbove (h : Hierarchy) (parent child : NodeId) : List NodeId :=
  ((h.children parent).dropWhile (· != child)).tail.reverse

/-- Scans siblings, topmost first, for a cover of all of `bounds`: an opaque activity, an opaque
container with these bounds, or the second one of an opaque adjacent pair. `partners` are the
partners of the opaque containers so far. -/
def coversAll (h : Hierarchy) (starting : Option NodeId) (bounds : Rect) :
    List NodeId → List NodeId → Bool
  | _, [] => false
  | partners, k :: below =>
    match h.activity? k with
    | some r => (r.isRunning && r.occludesParent) || h.coversAll starting bounds partners below
    | none =>
      if h.isOpaque k starting then
        h.bounds k == bounds || partners.contains k
          || h.coversAll starting bounds ((h.adjacent? k).toList ++ partners) below
      else h.coversAll starting bounds partners below

/-- Whether the siblings above a child of a task or fragment cover it. -/
def isCoveredBySiblings (h : Hierarchy) (parent child : NodeId) (starting : Option NodeId) :
    Bool :=
  h.coversAll starting (h.bounds parent) [] (h.siblingsAbove parent child)

/-- Scans root tasks, topmost first, for a cover: an opaque fullscreen one, or the second one of
an opaque adjacent pair of split ones. -/
def coversRoots (h : Hierarchy) (starting : Option NodeId) : List NodeId → List NodeId → Bool
  | _, [] => false
  | partners, k :: below =>
    if h.isOpaque k starting then
      let mode := h.mode k
      if mode = .fullscreen then true
      else if mode.isSplit then
        partners.contains k || h.coversRoots starting ((h.adjacent? k).toList ++ partners) below
      else h.coversRoots starting partners below
    else h.coversRoots starting partners below

/-- Whether no root task above covers a root task. Nothing covers a pinned one. -/
def isRootTaskUncovered (h : Hierarchy) (root : NodeId) (starting : Option NodeId) : Bool :=
  h.mode root == .pinned ||
    match h.parent? root with
    | none => false
    | some area => !h.coversRoots starting [] (h.siblingsAbove area root)

/-- Whether a node is uncovered at every level, given its ancestors. -/
def isUncovered (h : Hierarchy) (starting : Option NodeId) (k : NodeId) : List NodeId → Bool
  | [] => false
  | parent :: further =>
    if (h.area? parent).isSome then h.isRootTaskUncovered k starting
    else
      h.isFragmentLike parent && !h.isCoveredBySiblings parent k starting
        && h.isUncovered starting parent further

/-- Whether a task or task fragment is to be seen, the keyguard aside. -/
def shouldBeVisible (h : Hierarchy) (k : NodeId) (starting : Option NodeId) : Bool :=
  (h.hasRunningActivity k || starting.any (h.isDescendantOf · k))
    && h.isUncovered starting k (h.ancestors k)

end WindowHost.Hierarchy
