import WindowHost.Hierarchy.Restructure

/-! Changes of the hierarchy made in place, one step after the other. A step that is refused leaves
what the steps before it have done, so a change that goes on from there has to take it back. -/
namespace WindowHost.Hierarchy

/-- A change that may be refused half way. It leaves a hierarchy in either case. -/
abbrev Edit (α : Type) := ExceptT HierarchyError (StateM Hierarchy) α

namespace Edit

/-- The answer of an edit, and the hierarchy that it leaves. -/
def perform {α : Type} (edit : Edit α) (h : Hierarchy) : Except HierarchyError α × Hierarchy :=
  (StateT.run edit.run h).run

/-- Asks the hierarchy as it is now. -/
def ask {α : Type} (question : Hierarchy → Except HierarchyError α) : Edit α := do
  question (← get)

def change (f : Hierarchy → Hierarchy) : Edit Unit := modifyThe Hierarchy f

def attach (parent child : NodeId) (position : Position) : Edit Unit := do
  let parentNode ← ask (·.require parent)
  let childNode ← ask (·.require child)
  if childNode.parent.isSome then
    throw (.alreadyAttached child)
  checkKinds parentNode.data childNode.data
  if parent = child || (← get).isDescendantOf parent child then
    throw (.cycle child)
  ask (·.checkPinnedRoot parent childNode.data)
  ask (·.checkPinnedGuest parent childNode.data)
  change (·.link parent child position)

def detach (child : NodeId) : Edit Unit := do
  let _ ← ask (·.require child)
  change (·.unlink child)

/-- The parent of a node, and the rank of the node among its siblings. -/
def home? (h : Hierarchy) (child : NodeId) : Option (NodeId × Nat) := do
  let parent ← h.parent? child
  let rank ← (h.children parent).findIdx? (· == child)
  return (parent, rank)

def putBack (child : NodeId) : Option (NodeId × Nat) → Edit Unit
  | some (parent, rank) => change (·.link parent child (.index rank))
  | none => pure ()

/-- Moves a node to another parent. When that does not take it, it goes back among its old
siblings. -/
def reparent (child newParent : NodeId) (position : Position) : Edit Unit := do
  let home := home? (← get) child
  detach child
  tryCatch (attach newParent child position) fun e => do
    putBack child home
    throw e

def positionChild (child : NodeId) (position : Position) : Edit Unit := do
  let _ ← ask (·.require child)
  change (·.reorder child position)

def setAdjacent (a b : NodeId) : Edit Unit := do
  if a = b then
    throw (.invalidAdjacency a)
  ask (·.checkAdjacency a)
  ask (·.checkAdjacency b)
  change (·.clearAdjacent a)
  change (·.clearAdjacent b)
  change (·.modifyData a (NodeData.withAdjacent (some b)))
  change (·.modifyData b (NodeData.withAdjacent (some a)))

/-- Takes a node that has no place out of the table. -/
def discard (k : NodeId) : Edit Unit :=
  change fun h => { h with nodes := h.nodes.erase k.index }

/-- Adds a node, gives it a place, and takes it out again when it gets none. -/
def insertUnder (parent : NodeId) (data : NodeData) (position : Position) : Edit NodeId := do
  let k := (← get).nextId
  change (·.insert data)
  tryCatch (attach parent k position) fun e => do
    discard k
    throw e
  return k

def createTask (parent : NodeId) (spec : TaskSpec) (position : Position) : Edit NodeId := do
  let id := (← get).nextTaskId
  let k ← insertUnder parent (.task { spec with id := id }) position
  change fun h => { h with nextTaskId := id.next }
  return k

def createRootTask (area : NodeId) (mode : WindowingMode) (type : ActivityType)
    (position : Position) : Edit NodeId :=
  createTask area { mode := mode.orFullscreen, type := type } position

def createFragment (task : NodeId) (bounds : Option Rect) (position : Position) : Edit NodeId :=
  insertUnder task (.fragment { bounds := bounds }) position

def addActivity (parent : NodeId) (record : ActivityRecord) (position : Position) : Edit NodeId :=
  insertUnder parent (.activity record) position

def getOrCreateRootTask (area : NodeId) (mode : WindowingMode) (type : ActivityType) :
    Edit (NodeId × Bool) := do
  let h ← get
  let mode := mode.orFullscreen
  let type := type.orStandard
  match (h.children area).reverse.find? fun k =>
      (h.task? k).any fun t => t.mode == mode && t.type == type with
  | some k => return (k, false)
  | none => return (← createRootTask area mode type .top, true)

end Edit

theorem size_modifyData (h : Hierarchy) (k : NodeId) (f : NodeData → NodeData) :
    (h.modifyData k f).size = h.size :=
  Arena.count_modify ..

theorem contains_modifyData (h : Hierarchy) (k : NodeId) (f : NodeData → NodeData) (j : NodeId) :
    (h.modifyData k f).contains j = h.contains j := by
  simp only [contains, node?, modifyData, modify, Arena.get?_modify]
  split
  · exact Option.isSome_map
  · rfl

/-- A node is parted from its partner without any node going or coming. -/
theorem size_clearAdjacent (h : Hierarchy) (k : NodeId) :
    (h.clearAdjacent k).size = h.size ∧
      ∀ j, (h.clearAdjacent k).contains j = h.contains j := by
  unfold clearAdjacent
  split <;> simp [size_modifyData, contains_modifyData]

theorem size_erase_le (h : Hierarchy) (k : NodeId) : (h.erase k).size ≤ h.size :=
  Nat.le_trans (Arena.count_erase_le ..) (Nat.le_of_eq (size_clearAdjacent h k).1)

theorem size_erase_lt {h : Hierarchy} {k : NodeId} (live : h.contains k = true) :
    (h.erase k).size < h.size := by
  obtain ⟨size, contains⟩ := size_clearAdjacent h k
  rw [← size]
  rw [← contains] at live
  exact Arena.count_erase_lt live

/-- Takes nodes out one at a time, each followed by what it holds, and counts them. What is still
to be taken waits on a stack, the next one first. -/
def dismantle (h : Hierarchy) : List NodeId → Hierarchy × Nat
  | [] => (h, 0)
  | k :: stack =>
    if h.contains k then
      let (left, taken) := (h.erase k).dismantle ((h.children k).reverse ++ stack)
      (left, taken + 1)
    else
      (h.erase k).dismantle stack
termination_by stack => (h.size, stack.length)
decreasing_by
  · exact Prod.Lex.left _ _ (size_erase_lt ‹_›)
  · exact Prod.Lex.right' _ (size_erase_le h k) (Nat.lt_succ_self _)

/-- Removes a node with all that it holds, one node at a time, and answers how many they were. -/
def removeInPlace (h : Hierarchy) (k : NodeId) : Hierarchy × Nat :=
  if h.contains k then (h.unlink k).dismantle [k] else (h, 0)

/-- An operation that may be refused, with its arguments. -/
inductive Operation : Type → Type 1 where
  | attach (parent child : NodeId) (position : Position) : Operation Unit
  | detach (child : NodeId) : Operation Unit
  | reparent (child newParent : NodeId) (position : Position) : Operation Unit
  | positionChild (child : NodeId) (position : Position) : Operation Unit
  | setAdjacent (a b : NodeId) : Operation Unit
  | createRootTask (area : NodeId) (mode : WindowingMode) (type : ActivityType)
      (position : Position) : Operation NodeId
  | createTask (parent : NodeId) (spec : TaskSpec) (position : Position) : Operation NodeId
  | createFragment (task : NodeId) (bounds : Option Rect) (position : Position) : Operation NodeId
  | addActivity (parent : NodeId) (record : ActivityRecord) (position : Position) :
      Operation NodeId
  | getOrCreateRootTask (area : NodeId) (mode : WindowingMode) (type : ActivityType) :
      Operation (NodeId × Bool)

namespace Operation

/-- The operation in place. -/
def edit {α : Type} : Operation α → Edit α
  | attach parent child position => Edit.attach parent child position
  | detach child => Edit.detach child
  | reparent child newParent position => Edit.reparent child newParent position
  | positionChild child position => Edit.positionChild child position
  | setAdjacent a b => Edit.setAdjacent a b
  | createRootTask area mode type position => Edit.createRootTask area mode type position
  | createTask parent spec position => Edit.createTask parent spec position
  | createFragment task bounds position => Edit.createFragment task bounds position
  | addActivity parent record position => Edit.addActivity parent record position
  | getOrCreateRootTask area mode type => Edit.getOrCreateRootTask area mode type

/-- The operation as one that is checked in full before anything moves. -/
def checked {α : Type} (h : Hierarchy) : Operation α → Except HierarchyError (Hierarchy × α)
  | attach parent child position => (h.attach parent child position).map (·, ())
  | detach child => (h.detach child).map (·, ())
  | reparent child newParent position => (h.reparent child newParent position).map (·, ())
  | positionChild child position => (h.positionChild child position).map (·, ())
  | setAdjacent a b => (h.setAdjacent a b).map (·, ())
  | createRootTask area mode type position => h.createRootTask area mode type position
  | createTask parent spec position => h.createTask parent spec position
  | createFragment task bounds position => h.createFragment task bounds position
  | addActivity parent record position => h.addActivity parent record position
  | getOrCreateRootTask area mode type => h.getOrCreateRootTask area mode type

end Operation
end WindowHost.Hierarchy
