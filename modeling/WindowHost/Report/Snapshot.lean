import WindowHost.Activity
import WindowHost.Json

/-! Snapshots of a hierarchy for tools outside the host. -/
namespace WindowHost

inductive SnapshotKind where
  | display
  | taskDisplayArea
  | rootTask
  | task
  | taskFragment
  | activity
  deriving DecidableEq, Repr

structure ActivitySnapshot where
  state : ActivityState
  visibleRequested : Bool
  finishing : Bool
  attached : Bool
  deriving DecidableEq

/-- A node with all that it holds, children bottom first. -/
inductive Snapshot where
  | node (kind : SnapshotKind) (label : String) (focused : Bool) (mode : Option String)
      (adjacent : Option String) (activity : Option ActivitySnapshot) (children : List Snapshot)

namespace Snapshot

def kind : Snapshot → SnapshotKind
  | .node kind .. => kind

def label : Snapshot → String
  | .node _ label .. => label

def focused : Snapshot → Bool
  | .node _ _ focused .. => focused

def activity : Snapshot → Option ActivitySnapshot
  | .node _ _ _ _ _ activity _ => activity

def children : Snapshot → List Snapshot
  | .node _ _ _ _ _ _ children => children

mutual

/-- How many nodes there are in a tree. -/
def size : Snapshot → Nat
  | .node _ _ _ _ _ _ children => sizeOfAll children + 1

def sizeOfAll : List Snapshot → Nat
  | [] => 0
  | s :: rest => size s + sizeOfAll rest

end

theorem size_eq (s : Snapshot) : s.size = sizeOfAll s.children + 1 := by
  cases s
  rw [size, children]

theorem sizeOfAll_append (front back : List Snapshot) :
    sizeOfAll (front ++ back) = sizeOfAll front + sizeOfAll back := by
  induction front with
  | nil => simp [sizeOfAll]
  | cons s rest ih => simp [sizeOfAll, ih, Nat.add_assoc]

/-- Puts nodes on a stack, one after the other. The top of a stack is its head. -/
def push (stack nodes : List Snapshot) : List Snapshot :=
  nodes.foldl (fun stack s => s :: stack) stack

theorem push_reverse (stack nodes : List Snapshot) : push stack nodes.reverse = nodes ++ stack := by
  simp [push]

/-- Takes nodes off a stack until it is empty. What lies in a node is put on the stack last child
first, so that the first child comes off next. -/
def walk : List Snapshot → List Snapshot
  | [] => []
  | s :: stack => s :: walk (push stack s.children.reverse)
termination_by stack => sizeOfAll stack
decreasing_by
  rw [push_reverse, sizeOfAll_append, sizeOfAll, size_eq]
  omega

/-- The node and all that it holds, each node before its children. -/
def nodes (s : Snapshot) : List Snapshot := walk [s]

def activityCount (s : Snapshot) : Nat := (s.nodes.filter (·.kind == .activity)).length

end Snapshot
end WindowHost
