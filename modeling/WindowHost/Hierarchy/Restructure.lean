import WindowHost.Hierarchy.Navigation

/-! Changes of the hierarchy. Every change that can be refused is checked in full before anything
moves, so a refused change leaves the hierarchy as it was. -/
namespace WindowHost.Hierarchy

def require (h : Hierarchy) (k : NodeId) : Except HierarchyError Node :=
  match h.node? k with
  | some n => .ok n
  | none => .error (.missingNode k)

def checkKinds (parent child : NodeData) : Except HierarchyError Unit :=
  if parent.canContain child then .ok ()
  else .error (.invalidParent parent.kindName child.kindName)

/-- A display takes one pinned root task: a task that is pinned on its own account may enter an
area only while no root task of the display is pinned. -/
def checkPinnedRoot (h : Hierarchy) (parent : NodeId) (child : NodeData) :
    Except HierarchyError Unit :=
  let pinned := child.task?.any (·.mode == .pinned) && (h.area? parent).isSome
  let taken := (h.displayOf? parent).any fun display =>
    (h.rootTasks display).any fun root => h.mode root == .pinned
  if pinned && taken then .error .pinnedRootTaskExists else .ok ()

/-- A pinned root task takes one task. -/
def checkPinnedGuest (h : Hierarchy) (parent : NodeId) (child : NodeData) :
    Except HierarchyError Unit :=
  if child.task?.isSome && h.isRootTask parent && h.mode parent == .pinned
      && (h.children parent).any h.isTask
  then .error .pinnedRootTaskFull else .ok ()

/-- Puts a node that has no parent under `parent`, without any check. -/
def link (h : Hierarchy) (parent child : NodeId) (position : Position) : Hierarchy :=
  (h.modify parent fun n => { n with children := position.place child n.children}).modify child
    fun n => { n with parent := some parent }

/-- Takes a node out of its parent, and keeps what it holds. -/
def unlink (h : Hierarchy) (child : NodeId) : Hierarchy :=
  match h.parent? child with
  | none => h
  | some parent =>
    (h.modify parent fun n => { n with children := n.children.filter (· != child) }).modify child
      fun n => { n with parent := none }

/-- Attaches a node that has no parent. -/
def attach (h : Hierarchy) (parent child : NodeId) (position : Position) :
    Except HierarchyError Hierarchy := do
  let parentNode ← h.require parent
  let childNode ← h.require child
  if childNode.parent.isSome then
    throw (.alreadyAttached child)
  checkKinds parentNode.data childNode.data
  if parent = child || h.isDescendantOf parent child then
    throw (.cycle child)
  h.checkPinnedRoot parent childNode.data
  h.checkPinnedGuest parent childNode.data
  return h.link parent child position

/-- Adds a new node under `parent`; its key is the `nextId` of before. -/
def insertUnder (h : Hierarchy) (parent : NodeId) (data : NodeData) (position : Position) :
    Except HierarchyError Hierarchy := do
  let parentNode ← h.require parent
  checkKinds parentNode.data data
  h.checkPinnedRoot parent data
  h.checkPinnedGuest parent data
  return (h.insert data).link parent h.nextId position

def detach (h : Hierarchy) (child : NodeId) : Except HierarchyError Hierarchy := do
  let _ ← h.require child
  return h.unlink child

/-- Moves a node to another parent. The node counts as detached while the new place is
checked. -/
def reparent (h : Hierarchy) (child newParent : NodeId) (position : Position) :
    Except HierarchyError Hierarchy := do
  let detached ← h.detach child
  detached.attach newParent child position

/-- Moves a node among its siblings; a node without a parent stays where it is. -/
def reorder (h : Hierarchy) (child : NodeId) (position : Position) : Hierarchy :=
  match h.parent? child with
  | none => h
  | some parent => (h.unlink child).link parent child position

def positionChild (h : Hierarchy) (child : NodeId) (position : Position) :
    Except HierarchyError Hierarchy := do
  let _ ← h.require child
  return h.reorder child position

/-- Clears the link between a node and its partner, on both sides. -/
def clearAdjacent (h : Hierarchy) (k : NodeId) : Hierarchy :=
  let alone := match h.adjacent? k with
    | none => h
    | some partner => h.modifyData partner (NodeData.withAdjacent none)
  alone.modifyData k (NodeData.withAdjacent none)

def checkAdjacency (h : Hierarchy) (k : NodeId) : Except HierarchyError Unit :=
  if h.isFragmentLike k then .ok () else .error (.invalidAdjacency k)

/-- Makes two tasks or task fragments adjacent, and parts them from earlier partners. -/
def setAdjacent (h : Hierarchy) (a b : NodeId) : Except HierarchyError Hierarchy := do
  if a = b then
    throw (.invalidAdjacency a)
  h.checkAdjacency a
  h.checkAdjacency b
  let parted := (h.clearAdjacent a).clearAdjacent b
  return (parted.modifyData a (NodeData.withAdjacent (some b))).modifyData b
    (NodeData.withAdjacent (some a))

/-- Adds a display on top of the others, together with its first area. A display whose id is
taken is not added again. Answers the display with that id. -/
def addDisplay (h : Hierarchy) (id : DisplayId) (bounds : Rect) : Hierarchy × NodeId :=
  match h.displayWithId? id with
  | some existing => (h, existing)
  | none =>
    let display := h.nextId
    let h := h.insert (.display { id := id, bounds := bounds })
    let h := { h with displays := h.displays ++ [display] }
    let area := h.nextId
    ((h.insert (.area { name := "DefaultTaskDisplayArea" })).link display area .top, display)

/-- Adds a task, which takes the next task id. -/
def createTask (h : Hierarchy) (parent : NodeId) (spec : TaskSpec) (position : Position) :
    Except HierarchyError (Hierarchy × NodeId) := do
  let task : Task := { spec with id := h.nextTaskId }
  let grown ← h.insertUnder parent (.task task) position
  return ({ grown with nextTaskId := h.nextTaskId.next }, h.nextId)

def createRootTask (h : Hierarchy) (area : NodeId) (mode : WindowingMode) (type : ActivityType)
    (position : Position) : Except HierarchyError (Hierarchy × NodeId) :=
  h.createTask area { mode := mode.orFullscreen, type := type } position

def createFragment (h : Hierarchy) (task : NodeId) (bounds : Option Rect) (position : Position) :
    Except HierarchyError (Hierarchy × NodeId) := do
  let grown ← h.insertUnder task (.fragment { bounds := bounds }) position
  return (grown, h.nextId)

/-- Adds an activity that has no place yet. -/
def createActivity (h : Hierarchy) (record : ActivityRecord) : Hierarchy × NodeId :=
  (h.insert (.activity record), h.nextId)

def addActivity (h : Hierarchy) (parent : NodeId) (record : ActivityRecord) (position : Position) :
    Except HierarchyError (Hierarchy × NodeId) := do
  let grown ← h.insertUnder parent (.activity record) position
  return (grown, h.nextId)

/-- Adds two adjacent tasks that split their parent in halves, the secondary one below the
primary one, and answers both, the primary first. When only the secondary one can be added, it
stays. The right edge of an off-screen parent can overflow. -/
def createSplitPair (h : Hierarchy) (area : NodeId) :
    Except Overflow (Hierarchy × Except HierarchyError (NodeId × NodeId)) := do
  let whole := h.bounds area
  let right ← whole.rightHalf
  match h.createTask area { mode := .splitSecondary, bounds := some right } .top with
  | .error e => return (h, .error e)
  | .ok (h, secondary) =>
    match h.createTask area { mode := .splitPrimary, bounds := some whole.leftHalf } .top with
    | .error e => return (h, .error e)
    | .ok (h, primary) =>
      match h.setAdjacent primary secondary with
      | .error e => return (h, .error e)
      | .ok h => return (h, .ok (primary, secondary))

/-- The topmost root task of an area with this mode and type of its own, or a new one on top.
Tells whether it is new. -/
def getOrCreateRootTask (h : Hierarchy) (area : NodeId) (mode : WindowingMode)
    (type : ActivityType) : Except HierarchyError (Hierarchy × NodeId × Bool) :=
  let mode := mode.orFullscreen
  let type := type.orStandard
  match (h.children area).reverse.find? fun k =>
      (h.task? k).any fun t => t.mode == mode && t.type == type with
  | some k => .ok (h, k, false)
  | none => do
    let (h, k) ← h.createRootTask area mode type .top
    return (h, k, true)

/-- Takes one node out of the table, and with it its adjacency and its rank among displays. -/
def erase (h : Hierarchy) (k : NodeId) : Hierarchy :=
  let h := h.clearAdjacent k
  { h with nodes := h.nodes.erase k.index, displays := h.displays.filter (· != k) }

/-- Removes a node with all that it holds. -/
def remove (h : Hierarchy) (k : NodeId) : Hierarchy :=
  (h.subtree k).ids.foldl erase (h.unlink k)

/-- How many nodes `remove` takes. -/
def removalCount (h : Hierarchy) (k : NodeId) : Nat := (h.subtree k).ids.length

/-- Moves a display to the top. Tells whether it moved. -/
def moveDisplayToTop (h : Hierarchy) (display : NodeId) : Hierarchy × Bool :=
  if h.displays.getLast? = some display || !h.displays.contains display then (h, false)
  else ({ h with displays := h.displays.filter (· != display) ++ [display] }, true)

/-- Raises a node to the top of its siblings. Tells whether it moved. -/
def raise (h : Hierarchy) (k : NodeId) : Hierarchy × Bool :=
  match h.parent? k with
  | none => (h, false)
  | some parent =>
    if (h.children parent).getLast? = some k then (h, false) else (h.reorder k .top, true)

/-- Raises a node and those of its ancestors that lie in a task or fragment, up to and including
the first node that does not. -/
def raiseWithin (h : Hierarchy) (k : NodeId) : List NodeId → Hierarchy × Bool
  | [] => (h, false)
  | parent :: further =>
    let (raised, moved) := h.raise k
    if raised.isFragmentLike parent then
      let (raised, movedFurther) := raised.raiseWithin parent further
      (raised, moved || movedFurther)
    else (raised, moved)

/-- Raises a node, all that encloses it up to its root task, and its display. Tells whether
anything moved. -/
def moveTaskToFront (h : Hierarchy) (k : NodeId) : Hierarchy × Bool :=
  let (h, moved) := h.raiseWithin k (h.ancestors k)
  match h.displayOf? k with
  | none => (h, moved)
  | some display =>
    let (h, movedDisplay) := h.moveDisplayToTop display
    (h, moved || movedDisplay)

end WindowHost.Hierarchy
