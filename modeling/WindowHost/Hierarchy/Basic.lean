import WindowHost.Arena
import WindowHost.Hierarchy.Node

/-! The hierarchy of displays, tasks and activities: a table of nodes with links to parents,
children and adjacent partners, and the z-order of the displays. A key of a removed node, or the
null key, answers every question as an empty node would. -/
namespace WindowHost

structure Hierarchy where
  nodes : Arena Node
  /-- Displays in z-order, bottom first: the last one has the focus. -/
  displays : List NodeId
  /-- The id of the next task. A task that could not be placed uses up no id. -/
  nextTaskId : TaskId

namespace Hierarchy

def empty : Hierarchy := ⟨.empty, [], ⟨1⟩⟩

def node? (h : Hierarchy) (k : NodeId) : Option Node := h.nodes.get? k.index

def contains (h : Hierarchy) (k : NodeId) : Bool := (h.node? k).isSome

def size (h : Hierarchy) : Nat := h.nodes.count

def parent? (h : Hierarchy) (k : NodeId) : Option NodeId := (h.node? k).bind Node.parent

/-- Children in z-order, bottom first. -/
def children (h : Hierarchy) (k : NodeId) : List NodeId := ((h.node? k).map Node.children).getD []

def data? (h : Hierarchy) (k : NodeId) : Option NodeData := (h.node? k).map Node.data

def display? (h : Hierarchy) (k : NodeId) : Option Display := (h.data? k).bind NodeData.display?

def area? (h : Hierarchy) (k : NodeId) : Option DisplayArea := (h.data? k).bind NodeData.area?

def task? (h : Hierarchy) (k : NodeId) : Option Task := (h.data? k).bind NodeData.task?

def fragment? (h : Hierarchy) (k : NodeId) : Option TaskFragment :=
  (h.data? k).bind NodeData.fragment?

def activity? (h : Hierarchy) (k : NodeId) : Option ActivityRecord :=
  (h.data? k).bind NodeData.activity?

def adjacent? (h : Hierarchy) (k : NodeId) : Option NodeId := (h.data? k).bind NodeData.adjacent?

def isTask (h : Hierarchy) (k : NodeId) : Bool := (h.task? k).isSome

def isActivity (h : Hierarchy) (k : NodeId) : Bool := (h.activity? k).isSome

def isFragmentLike (h : Hierarchy) (k : NodeId) : Bool := (h.data? k).any NodeData.isFragmentLike

/-- A root task is a task that lies directly in a task display area. -/
def isRootTask (h : Hierarchy) (k : NodeId) : Bool :=
  h.isTask k && ((h.parent? k).bind h.area?).isSome

/-- Whether `k` is an activity whose record satisfies `p`. -/
def activityHas (h : Hierarchy) (p : ActivityRecord → Bool) (k : NodeId) : Bool :=
  (h.activity? k).any p

def modify (h : Hierarchy) (k : NodeId) (f : Node → Node) : Hierarchy :=
  { h with nodes := h.nodes.modify k.index f }

def modifyData (h : Hierarchy) (k : NodeId) (f : NodeData → NodeData) : Hierarchy :=
  h.modify k fun n => { n with data := f n.data }

/-- Changes the record of an activity; any other node stays as it is. -/
def modifyActivity (h : Hierarchy) (k : NodeId) (f : ActivityRecord → ActivityRecord) : Hierarchy :=
  h.modifyData k (NodeData.mapActivity f)

/-- Changes the data of a task; any other node stays as it is. -/
def modifyTask (h : Hierarchy) (k : NodeId) (f : Task → Task) : Hierarchy :=
  h.modifyData k (NodeData.mapTask f)

/-- The key that the next new node gets. -/
def nextId (h : Hierarchy) : NodeId := ⟨h.nodes.next⟩

/-- Adds a node that has no place yet, under the key `nextId`. -/
def insert (h : Hierarchy) (data : NodeData) : Hierarchy :=
  { h with nodes := h.nodes.insert { data := data } }

theorem node?_modify (h : Hierarchy) (k j : NodeId) (f : Node → Node) :
    (h.modify k f).node? j = if j = k then (h.node? j).map f else h.node? j := by
  cases k; cases j
  simp [node?, modify, Arena.get?_modify]

theorem node?_insert (h : Hierarchy) (data : NodeData) (j : NodeId) :
    (h.insert data).node? j = if j = h.nextId then some { data := data } else h.node? j := by
  cases j
  simp [node?, insert, nextId, Arena.get?_insert]

end Hierarchy
end WindowHost
