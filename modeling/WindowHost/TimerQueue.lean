/-! One-shot timers by key. A deadline is a number of milliseconds on a clock that the owner of
the queue keeps. Scheduling a pending key again replaces its deadline, and the earlier one never
fires. -/
namespace WindowHost

/-- When a key fires. The rank tells apart what has the same deadline: every call that schedules
a key takes the next one. -/
structure Timer where
  deadline : Nat
  rank : UInt64
  deriving DecidableEq, Repr

/-- The order in which two timers fire that have both expired. -/
def Timer.precedes (a b : Timer) : Bool :=
  a.deadline < b.deadline || (a.deadline == b.deadline && a.rank ≤ b.rank)

/-- Every pending key with its timer. The entries come in whatever order the table keeps them. -/
structure TimerQueue (κ : Type) where
  entries : List (κ × Timer)
  /-- A counter that wraps. -/
  nextRank : UInt64
  distinct : (entries.map Prod.fst).Nodup

namespace TimerQueue
variable {κ : Type} [DecidableEq κ]

def empty : TimerQueue κ := ⟨[], 0, List.nodup_nil⟩

def timer? (q : TimerQueue κ) (key : κ) : Option Timer := q.entries.lookup key

def deadline? (q : TimerQueue κ) (key : κ) : Option Nat := (q.timer? key).map Timer.deadline

def isScheduled (q : TimerQueue κ) (key : κ) : Bool := (q.timer? key).isSome

def size (q : TimerQueue κ) : Nat := q.entries.length

def isEmpty (q : TimerQueue κ) : Bool := q.entries.isEmpty

def nextDeadline? (q : TimerQueue κ) : Option Nat := (q.entries.map (·.2.deadline)).min?

/-- Drops a key. It was pending if `isScheduled` said so. -/
def cancel (q : TimerQueue κ) (key : κ) : TimerQueue κ where
  entries := q.entries.filter (·.1 != key)
  nextRank := q.nextRank
  distinct := q.distinct.sublist (List.filter_sublist.map Prod.fst)

/-- Sets the deadline of a key. It replaces the one that `deadline?` gave. -/
def schedule (q : TimerQueue κ) (key : κ) (deadline : Nat) : TimerQueue κ where
  entries := (key, ⟨deadline, q.nextRank⟩) :: (q.cancel key).entries
  nextRank := q.nextRank + 1
  distinct := by
    have gone : key ∉ (q.cancel key).entries.map Prod.fst := by simp [cancel]
    exact List.nodup_cons.mpr ⟨gone, (q.cancel key).distinct⟩

/-- The entries whose deadline has come, in the order in which they fire. -/
def due (q : TimerQueue κ) (now : Nat) : List (κ × Timer) :=
  (q.entries.filter (·.2.deadline ≤ now)).mergeSort (·.2.precedes ·.2)

/-- The keys whose deadline has come, earliest deadline first; of equal deadlines the one that
was scheduled first. -/
def expired (q : TimerQueue κ) (now : Nat) : List κ := (q.due now).map Prod.fst

/-- What is left once the expired keys have fired. -/
def afterPoll (q : TimerQueue κ) (now : Nat) : TimerQueue κ := (q.expired now).foldl cancel q

end TimerQueue
end WindowHost
