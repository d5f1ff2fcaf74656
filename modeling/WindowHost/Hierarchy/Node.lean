import WindowHost.Activity
import WindowHost.Rect

/-! What the nodes of a hierarchy are. A display holds task display areas, an area holds root
tasks, a task holds nested tasks, task fragments or activities, and a fragment holds
activities. -/
namespace WindowHost

/-- A key of a node. A key is never issued twice, so it stays stale once its node is gone. -/
structure NodeId where
  index : Nat
  deriving DecidableEq

/-- The key that no node ever has. -/
def NodeId.null : NodeId := ⟨0⟩

structure DisplayId where
  value : UInt32
  deriving DecidableEq

structure TaskId where
  value : Int
  deriving DecidableEq

namespace TaskId

def next (t : TaskId) : TaskId := ⟨t.value + 1⟩

def toText (t : TaskId) : String := "#" ++ toString t.value

end TaskId

inductive WindowingMode where
  /-- As the parent task has it. -/
  | undefined
  | fullscreen
  | splitPrimary
  | splitSecondary
  | pinned
  | freeform
  deriving DecidableEq, Repr

namespace WindowingMode

def all : List WindowingMode :=
  [.undefined, .fullscreen, .splitPrimary, .splitSecondary, .pinned, .freeform]

def isSplit : WindowingMode → Bool
  | .splitPrimary | .splitSecondary => true
  | _ => false

def name : WindowingMode → String
  | .undefined => "undefined"
  | .fullscreen => "fullscreen"
  | .splitPrimary => "split-primary"
  | .splitSecondary => "split-secondary"
  | .pinned => "pinned"
  | .freeform => "freeform"

/-- The mode itself, or nothing where it is left to the parent. -/
def explicit? (m : WindowingMode) : Option WindowingMode := if m = .undefined then none else some m

/-- Fills in the mode of a root task that names none. -/
def orFullscreen (m : WindowingMode) : WindowingMode := m.explicit?.getD .fullscreen

end WindowingMode

/-- Fills in the type of a root task that names none. -/
def ActivityType.orStandard (t : ActivityType) : ActivityType :=
  if t = .undefined then .standard else t

structure Display where
  id : DisplayId
  bounds : Rect
  deriving DecidableEq

structure DisplayArea where
  name : String
  deriving DecidableEq

/-- What a new task is made with. -/
structure TaskSpec where
  affinity : Option String := none
  userId : UserId := default
  /-- The component of the activity that the task was made for. -/
  rootComponent : Option ComponentName := none
  mode : WindowingMode := .undefined
  type : ActivityType := .standard
  /-- A task without bounds fills its parent. -/
  bounds : Option Rect := none
  voiceSession : Option VoiceSession := none
  deriving DecidableEq

structure Task extends TaskSpec where
  id : TaskId
  adjacent : Option NodeId := none
  deriving DecidableEq

structure TaskFragment where
  /-- A fragment without bounds fills its parent. -/
  bounds : Option Rect := none
  adjacent : Option NodeId := none
  deriving DecidableEq

inductive NodeData where
  | display (d : Display)
  | area (a : DisplayArea)
  | task (t : Task)
  | fragment (f : TaskFragment)
  | activity (r : ActivityRecord)
  deriving DecidableEq

namespace NodeData

def kindName : NodeData → String
  | .display _ => "display"
  | .area _ => "task display area"
  | .task _ => "task"
  | .fragment _ => "task fragment"
  | .activity _ => "activity"

/-- Which kinds hold which. -/
def canContain : NodeData → NodeData → Bool
  | .display _, .area _ => true
  | .area _, .task _ => true
  | .task _, .task _ => true
  | .task _, .fragment _ => true
  | .task _, .activity _ => true
  | .fragment _, .activity _ => true
  | _, _ => false

def display? : NodeData → Option Display
  | .display d => some d
  | _ => none

def area? : NodeData → Option DisplayArea
  | .area a => some a
  | _ => none

def task? : NodeData → Option Task
  | .task t => some t
  | _ => none

def fragment? : NodeData → Option TaskFragment
  | .fragment f => some f
  | _ => none

def activity? : NodeData → Option ActivityRecord
  | .activity r => some r
  | _ => none

/-- Tasks and task fragments: both host activities and take part in occlusion. -/
def isFragmentLike : NodeData → Bool
  | .task _ | .fragment _ => true
  | _ => false

def adjacent? : NodeData → Option NodeId
  | .task t => t.adjacent
  | .fragment f => f.adjacent
  | _ => none

def withAdjacent (partner : Option NodeId) : NodeData → NodeData
  | .task t => .task { t with adjacent := partner }
  | .fragment f => .fragment { f with adjacent := partner }
  | d => d

/-- The bounds that a node has on its own account. -/
def ownBounds? : NodeData → Option Rect
  | .display d => some d.bounds
  | .task t => t.bounds
  | .fragment f => f.bounds
  | .area _ | .activity _ => none

def mapActivity (f : ActivityRecord → ActivityRecord) : NodeData → NodeData
  | .activity r => .activity (f r)
  | d => d

def mapTask (f : Task → Task) : NodeData → NodeData
  | .task t => .task (f t)
  | d => d

end NodeData

/-- A node with its place: the children are in z-order, bottom first. -/
structure Node where
  parent : Option NodeId := none
  children : List NodeId := []
  data : NodeData
  deriving DecidableEq

/-- Where a child goes among its siblings. -/
inductive Position where
  | top
  | bottom
  /-- Counted from the bottom; past the last sibling means the top. -/
  | index (i : Nat)
  deriving DecidableEq, Repr

/-- Puts a node among siblings, which are in z-order, bottom first. -/
def Position.place (p : Position) (child : NodeId) (siblings : List NodeId) : List NodeId :=
  match p with
  | .top => siblings ++ [child]
  | .bottom => child :: siblings
  | .index i => siblings.take i ++ child :: siblings.drop i

/-- Why a change of the hierarchy is refused. -/
inductive HierarchyError where
  | missingNode (node : NodeId)
  | invalidParent (parent child : String)
  | alreadyAttached (node : NodeId)
  | cycle (node : NodeId)
  | pinnedRootTaskExists
  | pinnedRootTaskFull
  | invalidAdjacency (node : NodeId)
  deriving DecidableEq

/-- The text of an error; a node is written as `name` has it. -/
def HierarchyError.message (name : NodeId → String) : HierarchyError → String
  | .missingNode k => "node " ++ name k ++ " does not exist"
  | .invalidParent parent child => "a " ++ child ++ " cannot be placed in a " ++ parent
  | .alreadyAttached k => "node " ++ name k ++ " already has a parent"
  | .cycle k => "node " ++ name k ++ " would become its own ancestor"
  | .pinnedRootTaskExists => "display already has a pinned root task"
  | .pinnedRootTaskFull => "pinned root task already hosts a task"
  | .invalidAdjacency k => "node " ++ name k ++ " cannot be made adjacent"

end WindowHost
