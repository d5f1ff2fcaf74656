import WindowHost.Checked
import WindowHost.Hierarchy.Node
import WindowHost.TimerQueue

/-! The recent tasks, most recent first. While the list is frozen, tasks that it holds keep their
places. A freeze is lifted by a timer, which every newer request for a reset moves. -/
namespace WindowHost

inductive RecentsTimer where
  /-- Lifts the freeze. -/
  | resetFreeze
  deriving DecidableEq

structure RecentTasks where
  tasks : List TaskId := []
  /-- At least one. -/
  capacity : Nat
  /-- The application that shows the list. -/
  recentsUid : Option Uid := none
  freezeTimeout : Nat
  frozen : Bool := false
  now : Nat := 0
  timers : TimerQueue RecentsTimer := .empty

namespace RecentTasks

def create (maxTasks freezeTimeout : Nat) : RecentTasks where
  capacity := max maxTasks 1
  freezeTimeout := freezeTimeout

def isCallerRecents (l : RecentTasks) (uid : Uid) : Bool := l.recentsUid == some uid

/-- Moves a task to the front, or leaves it in its place while the list is frozen. -/
def add (l : RecentTasks) (task : TaskId) : RecentTasks :=
  if l.frozen && l.tasks.contains task then l
  else { l with tasks := (task :: l.tasks.erase task).take l.capacity }

/-- When the freeze is lifted, if that was asked for. -/
def resetDeadline (l : RecentTasks) : Option Nat := l.timers.deadline? .resetFreeze

/-- Freezes the order until a reset is asked for. -/
def freeze (l : RecentTasks) : RecentTasks :=
  { l with frozen := true, timers := l.timers.cancel .resetFreeze }

/-- Asks for the freeze to be lifted once the timeout has passed, however late that is. -/
def resetOnTimeout (l : RecentTasks) : RecentTasks :=
  { l with timers := l.timers.schedule .resetFreeze (l.now + l.freezeTimeout) }

/-- The same, with a deadline that overflows when the clock cannot come to it. -/
def resetChecked (l : RecentTasks) : Except Overflow RecentTasks := do
  let deadline ← Checked.addTime l.now l.freezeTimeout
  return { l with timers := l.timers.schedule .resetFreeze deadline }

def fire (l : RecentTasks) : RecentsTimer → RecentTasks
  | .resetFreeze => { l with frozen := false }

/-- Moves the clock, which never goes back, and fires the timers that are due. -/
def advance (l : RecentTasks) (time : Nat) : RecentTasks :=
  let now := max l.now time
  (l.timers.expired now).foldl fire { l with now := now, timers := l.timers.afterPoll now }

end RecentTasks
end WindowHost
