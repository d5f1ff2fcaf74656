import Mathlib.Data.List.Induction
import WindowHost.Proofs.Timers.Entries
import WindowHost.RecentTasks

/-! The timer that lifts the freeze of the recent tasks. After any run of calls the list is frozen,
and its reset is pending, as the order of the calls says: the latest freeze, the latest reset, and
how far the clock has come since. The calls fail only where the deadline of a reset is too late for
the clock, which it never is when clock and timeout are words. -/
namespace WindowHost

namespace RecentTasks
variable {l : RecentTasks} {due time : ℕ}

theorem exists_tasks_of_add (l : RecentTasks) (task : TaskId) :
    ∃ tasks, l.add task = { l with tasks := tasks } := by
  unfold add
  split
  · exact ⟨l.tasks, rfl⟩
  · exact ⟨_, rfl⟩

@[simp] theorem resetDeadline_freeze (l : RecentTasks) : l.freeze.resetDeadline = none := by
  simp [resetDeadline, freeze, TimerQueue.deadline?, TimerQueue.timer?_cancel]

@[simp] theorem resetDeadline_resetOnTimeout (l : RecentTasks) :
    l.resetOnTimeout.resetDeadline = some (l.now + l.freezeTimeout) := by
  simp [resetDeadline, resetOnTimeout, TimerQueue.deadline?, TimerQueue.timer?_schedule]

theorem resetChecked_eq (l : RecentTasks) : l.resetChecked =
    if l.now + l.freezeTimeout < Checked.timeLimit then .ok l.resetOnTimeout
    else .error .addTime := by
  unfold resetChecked Checked.addTime
  dsimp only
  split <;> rfl

theorem foldl_fire (l : RecentTasks) (fired : List RecentsTimer) :
    fired.foldl fire l = { l with frozen := l.frozen && !fired.contains .resetFreeze } := by
  induction fired generalizing l with
  | nil => simp
  | cons timer fired ih => cases timer; simp [ih, fire]

@[simp] theorem now_advance (l : RecentTasks) (time : ℕ) :
    (l.advance time).now = max l.now time := by
  rw [advance, foldl_fire]

@[simp] theorem freezeTimeout_advance (l : RecentTasks) (time : ℕ) :
    (l.advance time).freezeTimeout = l.freezeTimeout := by
  rw [advance, foldl_fire]

theorem resetFreeze_mem_expired {now : ℕ} :
    .resetFreeze ∈ l.timers.expired now ↔ ∃ due, l.resetDeadline = some due ∧ due ≤ now := by
  simp [TimerQueue.mem_expired, resetDeadline, TimerQueue.deadline?]

/-- The clock ends a freeze when it comes to the deadline of the pending reset. -/
theorem frozen_advance :
    (l.advance time).frozen = true ↔
      l.frozen = true ∧ ∀ due, l.resetDeadline = some due → max l.now time < due := by
  rw [advance, foldl_fire]
  simp [resetFreeze_mem_expired]

theorem resetDeadline_advance_eq_some_iff :
    (l.advance time).resetDeadline = some due ↔
      l.resetDeadline = some due ∧ max l.now time < due := by
  rw [advance, foldl_fire]
  simp only [resetDeadline, TimerQueue.deadline?, TimerQueue.timer?_afterPoll,
    Option.map_eq_some_iff, Option.filter_eq_some_iff, decide_eq_true_eq]
  constructor
  · rintro ⟨timer, ⟨pending, later⟩, rfl⟩
    exact ⟨⟨timer, pending, rfl⟩, later⟩
  · rintro ⟨⟨timer, pending, rfl⟩, later⟩
    exact ⟨timer, ⟨pending, later⟩, rfl⟩

end RecentTasks

inductive RecentsCall where
  | add (task : TaskId)
  | freeze
  | reset
  | advance (time : ℕ)
  deriving DecidableEq

namespace RecentsCall
variable {call c : RecentsCall} {calls before since : List RecentsCall}

def time? : RecentsCall → Option ℕ
  | .advance time => some time
  | _ => none

/-- The clock of a list, which begins at zero: the largest time that it was given. -/
def clock (calls : List RecentsCall) : ℕ := (calls.filterMap time?).foldl max 0

theorem clock_concat : clock (calls ++ [call]) = max (clock calls) (call.time?.getD 0) := by
  cases call <;> simp [clock, time?, List.filterMap_cons]

theorem clock_le {bound : ℕ} (times : ∀ time, .advance time ∈ calls → time ≤ bound) :
    clock calls ≤ bound := by
  induction calls using List.reverseRecOn with
  | nil => exact Nat.zero_le _
  | append_singleton calls call ih =>
    rw [clock_concat]
    refine max_le (ih fun time member => times time (List.mem_append_left _ member)) ?_
    cases call with
    | advance time => exact times time (by simp)
    | _ => exact Nat.zero_le _

/-- The latest one of the calls that are `call` comes after `before`, and `since` comes after it. -/
def Latest (call : RecentsCall) (calls before since : List RecentsCall) : Prop :=
  calls = before ++ call :: since ∧ call ∉ since

/-- Something holds of every move of the clock, given what comes before it and its time. -/
def EachAdvance (calls : List RecentsCall) (P : List RecentsCall → ℕ → Prop) : Prop :=
  ∀ early time late, calls = early ++ .advance time :: late → P early time

/-- The freeze lasts: after the latest freeze, no move of the clock has come to the deadline of the
reset that was the latest one by then. -/
def Frozen (timeout : ℕ) (calls : List RecentsCall) : Prop :=
  ∃ before since, Latest .freeze calls before since ∧
    EachAdvance since fun early time => ∀ first rest, Latest .reset early first rest →
      clock (before ++ .freeze :: early ++ [.advance time]) <
        clock (before ++ .freeze :: first) + timeout

/-- The latest reset is still to come, at `due`: since then there was no freeze, and no move of the
clock has come to its deadline. -/
def Pending (timeout : ℕ) (calls : List RecentsCall) (due : ℕ) : Prop :=
  ∃ before since, Latest .reset calls before since ∧ due = clock before + timeout ∧
    .freeze ∉ since ∧
      EachAdvance since fun early time =>
        clock (before ++ .reset :: early ++ [.advance time]) < due

/-- No reset has a deadline that is too late for the clock. -/
def InTime (timeout : ℕ) (calls : List RecentsCall) : Prop :=
  ∀ before since, calls = before ++ .reset :: since → clock before + timeout < Checked.timeLimit

/-- Of a run with one call more, an element is the last call or one of the run before it. -/
theorem concat_eq_append_cons_iff :
    calls ++ [call] = before ++ c :: since ↔
      (before = calls ∧ c = call ∧ since = []) ∨
        ∃ rest, since = rest ++ [call] ∧ calls = before ++ c :: rest := by
  constructor
  · intro split
    obtain rfl | ⟨rest, last, rfl⟩ := List.eq_nil_or_concat since
    · obtain ⟨same, last⟩ := List.append_inj' split rfl
      exact .inl ⟨same.symm, (List.singleton_inj.mp last).symm, rfl⟩
    · rw [List.concat_eq_append, ← List.cons_append, ← List.append_assoc] at split
      obtain ⟨same, last⟩ := List.append_inj' split rfl
      exact .inr ⟨rest, by rw [List.concat_eq_append, last], same⟩
  · rintro (⟨rfl, rfl, rfl⟩ | ⟨rest, rfl, rfl⟩) <;> simp

theorem latest_concat :
    Latest c (calls ++ [call]) before since ↔
      (call = c ∧ before = calls ∧ since = []) ∨
        call ≠ c ∧ ∃ rest, since = rest ++ [call] ∧ Latest c calls before rest := by
  rw [Latest, concat_eq_append_cons_iff]
  constructor
  · rintro ⟨⟨rfl, rfl, rfl⟩ | ⟨rest, rfl, split⟩, absent⟩
    · exact .inl ⟨rfl, rfl, rfl⟩
    · rw [List.mem_append, List.mem_singleton, not_or] at absent
      exact .inr ⟨Ne.symm absent.2, rest, rfl, split, absent.1⟩
  · rintro (⟨rfl, rfl, rfl⟩ | ⟨other, rest, rfl, split, absent⟩)
    · exact ⟨.inl ⟨rfl, rfl, rfl⟩, List.not_mem_nil⟩
    · refine ⟨.inr ⟨rest, rfl, split⟩, ?_⟩
      rw [List.mem_append, List.mem_singleton, not_or]
      exact ⟨absent, other.symm⟩

theorem eachAdvance_nil {P : List RecentsCall → ℕ → Prop} : EachAdvance [] P := by
  intro early time late split
  simp at split

theorem eachAdvance_concat {P : List RecentsCall → ℕ → Prop} :
    EachAdvance (calls ++ [call]) P ↔
      EachAdvance calls P ∧ ∀ time, call = .advance time → P calls time := by
  constructor
  · intro each
    refine ⟨fun early time late split => ?_, fun time same => ?_⟩
    · exact each early time (late ++ [call]) (by simp [split])
    · exact each calls time [] (by rw [same])
  · rintro ⟨each, last⟩ early time late split
    rcases concat_eq_append_cons_iff.mp split with ⟨rfl, same, -⟩ | ⟨rest, -, split⟩
    · exact last time same.symm
    · exact each early time rest split

variable {timeout due time : ℕ}

theorem pending_concat :
    Pending timeout (calls ++ [call]) due ↔
      (call = .reset ∧ due = clock calls + timeout) ∨
        call ≠ .reset ∧ call ≠ .freeze ∧ Pending timeout calls due ∧
          ∀ time, call = .advance time → clock (calls ++ [.advance time]) < due := by
  constructor
  · rintro ⟨before, since, latest, time, unfrozen, each⟩
    rcases latest_concat.mp latest with ⟨rfl, rfl, rfl⟩ | ⟨other, rest, rfl, earlier⟩
    · exact .inl ⟨rfl, time⟩
    · rw [List.mem_append, List.mem_singleton, not_or] at unfrozen
      obtain ⟨sooner, last⟩ := eachAdvance_concat.mp each
      refine .inr ⟨other, Ne.symm unfrozen.2, ⟨before, rest, earlier, time, unfrozen.1, sooner⟩, ?_⟩
      rw [earlier.1]
      exact last
  · rintro (⟨rfl, rfl⟩ | ⟨other, thaws, ⟨before, since, latest, time, unfrozen, each⟩, last⟩)
    · exact ⟨calls, [], latest_concat.mpr (.inl ⟨rfl, rfl, rfl⟩), rfl, List.not_mem_nil,
        eachAdvance_nil⟩
    · refine ⟨before, since ++ [call], latest_concat.mpr (.inr ⟨other, since, rfl, latest⟩), time,
        ?_, eachAdvance_concat.mpr ⟨each, ?_⟩⟩
      · rw [List.mem_append, List.mem_singleton, not_or]
        exact ⟨unfrozen, thaws.symm⟩
      · rwa [latest.1] at last

/-- Where a freeze lasts, the pending reset is the latest one since. -/
theorem pending_iff_of_frozen (latest : Latest .freeze calls before since)
    (each : EachAdvance since fun early time => ∀ first rest, Latest .reset early first rest →
      clock (before ++ .freeze :: early ++ [.advance time]) <
        clock (before ++ .freeze :: first) + timeout) :
    Pending timeout calls due ↔ ∃ first rest, Latest .reset since first rest ∧
      due = clock (before ++ .freeze :: first) + timeout := by
  obtain ⟨rfl, refrozen⟩ := latest
  constructor
  · rintro ⟨ahead, behind, ⟨split, unreset⟩, time, unfrozen, -⟩
    rcases List.append_eq_append_iff.mp split with ⟨between, rfl, tail⟩ | ⟨between, rfl, tail⟩
    · cases between with
      | nil => simp at tail
      | cons call first =>
        obtain ⟨rfl, rfl⟩ := List.cons.inj tail
        exact ⟨first, behind, ⟨rfl, unreset⟩, time⟩
    · cases between with
      | nil => simp at tail
      | cons call between =>
        obtain ⟨-, rfl⟩ := List.cons.inj tail
        simp at unfrozen
  · rintro ⟨first, rest, ⟨rfl, unreset⟩, rfl⟩
    refine ⟨before ++ .freeze :: first, rest, ⟨by simp, unreset⟩, rfl, ?_, ?_⟩
    · exact fun frozen => refrozen (List.mem_append_right _ (List.mem_cons_of_mem _ frozen))
    · intro early time late split
      have later := each (first ++ .reset :: early) time late (by simp [split]) first early
      refine (later ⟨rfl, fun reset => unreset ?_⟩).trans_eq' ?_
      · exact split ▸ List.mem_append_left _ reset
      · simp

theorem frozen_concat :
    Frozen timeout (calls ++ [call]) ↔
      call = .freeze ∨ Frozen timeout calls ∧
        ∀ time, call = .advance time → ∀ due, Pending timeout calls due →
          clock (calls ++ [.advance time]) < due := by
  constructor
  · rintro ⟨before, since, latest, each⟩
    rcases latest_concat.mp latest with ⟨rfl, -, -⟩ | ⟨-, rest, rfl, earlier⟩
    · exact .inl rfl
    · obtain ⟨sooner, last⟩ := eachAdvance_concat.mp each
      refine .inr ⟨⟨before, rest, earlier, sooner⟩, fun time same due pending => ?_⟩
      obtain ⟨first, behind, reset, rfl⟩ := (pending_iff_of_frozen earlier sooner).mp pending
      rw [earlier.1]
      exact last time same first behind reset
  · rintro (rfl | ⟨⟨before, since, latest, each⟩, last⟩)
    · exact ⟨calls, [], latest_concat.mpr (.inl ⟨rfl, rfl, rfl⟩), eachAdvance_nil⟩
    · by_cases again : call = .freeze
      · subst again
        exact ⟨calls, [], latest_concat.mpr (.inl ⟨rfl, rfl, rfl⟩), eachAdvance_nil⟩
      · refine ⟨before, since ++ [call], latest_concat.mpr (.inr ⟨again, since, rfl, latest⟩),
          eachAdvance_concat.mpr ⟨each, fun time same first rest reset => ?_⟩⟩
        have pending := (pending_iff_of_frozen latest each).mpr ⟨first, rest, reset, rfl⟩
        have later := last time same _ pending
        rwa [latest.1] at later

theorem inTime_concat :
    InTime timeout (calls ++ [call]) ↔
      InTime timeout calls ∧ (call = .reset → clock calls + timeout < Checked.timeLimit) := by
  constructor
  · intro sooner
    refine ⟨fun before since split => ?_, fun same => ?_⟩
    · exact sooner before (since ++ [call]) (by simp [split])
    · exact sooner calls [] (by rw [same])
  · rintro ⟨sooner, last⟩ before since split
    rcases concat_eq_append_cons_iff.mp split with ⟨rfl, same, -⟩ | ⟨rest, -, split⟩
    · exact last same.symm
    · exact sooner before rest split

theorem inTime_of_words (timeoutWord : timeout < UInt64.size)
    (timeWords : ∀ time, .advance time ∈ calls → time < UInt64.size) : InTime timeout calls := by
  rintro before since rfl
  have clockWord : clock before ≤ UInt64.size - 1 := by
    refine clock_le fun time member => ?_
    exact Nat.le_sub_one_of_lt (timeWords time (List.mem_append_left _ member))
  rw [Checked.timeLimit]
  omega

end RecentsCall

namespace RecentTasks

def serve (l : RecentTasks) : RecentsCall → RecentTasks
  | .add task => l.add task
  | .freeze => l.freeze
  | .reset => l.resetOnTimeout
  | .advance time => l.advance time

/-- The list that a run of calls leads to. -/
def ofCalls (maxTasks timeout : ℕ) (calls : List RecentsCall) : RecentTasks :=
  calls.foldl serve (create maxTasks timeout)

def serveChecked (l : RecentTasks) : RecentsCall → Except Overflow RecentTasks
  | .reset => l.resetChecked
  | call => .ok (l.serve call)

/-- The list that a run of calls leads to, unless a deadline overflows. -/
def ofCallsChecked (maxTasks timeout : ℕ) (calls : List RecentsCall) :
    Except Overflow RecentTasks :=
  calls.foldlM serveChecked (create maxTasks timeout)

/-- What a list has come to by its calls: the clock, the freeze and the pending reset. -/
structure AsCalled (l : RecentTasks) (timeout : ℕ) (calls : List RecentsCall) : Prop where
  now : l.now = RecentsCall.clock calls
  freezeTimeout : l.freezeTimeout = timeout
  frozen : l.frozen = true ↔ RecentsCall.Frozen timeout calls
  pending : ∀ due, l.resetDeadline = some due ↔ RecentsCall.Pending timeout calls due

variable {l : RecentTasks} {timeout : ℕ} {calls : List RecentsCall}

theorem asCalled_create (maxTasks timeout : ℕ) : (create maxTasks timeout).AsCalled timeout [] where
  now := rfl
  freezeTimeout := rfl
  frozen := by simp [create, RecentsCall.Frozen, RecentsCall.Latest]
  pending due := by
    simp [create, resetDeadline, TimerQueue.deadline?, TimerQueue.timer?_empty,
      RecentsCall.Pending, RecentsCall.Latest]

theorem AsCalled.serve (called : l.AsCalled timeout calls) (call : RecentsCall) :
    (l.serve call).AsCalled timeout (calls ++ [call]) := by
  obtain ⟨now, lasting, frozen, pending⟩ := called
  cases call with
  | add task =>
    obtain ⟨tasks, same⟩ := exists_tasks_of_add l task
    rw [RecentTasks.serve, same]
    refine ⟨?_, lasting, ?_, fun due => (pending due).trans ?_⟩
    · simp [RecentsCall.clock_concat, RecentsCall.time?, now]
    · simp [RecentsCall.frozen_concat, frozen]
    · simp [RecentsCall.pending_concat]
  | freeze =>
    refine ⟨?_, lasting, ?_, fun due => ?_⟩
    · simp [RecentsCall.clock_concat, RecentsCall.time?, RecentTasks.serve, freeze, now]
    · simp [RecentsCall.frozen_concat, RecentTasks.serve, freeze]
    · simp [RecentsCall.pending_concat, RecentTasks.serve]
  | reset =>
    refine ⟨?_, lasting, ?_, fun due => ?_⟩
    · simp [RecentsCall.clock_concat, RecentsCall.time?, RecentTasks.serve, resetOnTimeout, now]
    · simp [RecentsCall.frozen_concat, RecentTasks.serve, resetOnTimeout, frozen]
    · simp [RecentsCall.pending_concat, RecentTasks.serve, now, lasting, eq_comm]
  | advance time =>
    have clock : max l.now time = RecentsCall.clock (calls ++ [.advance time]) := by
      rw [RecentsCall.clock_concat, now]
      rfl
    refine ⟨?_, ?_, ?_, fun due => ?_⟩
    · simp [RecentTasks.serve, clock]
    · simp [RecentTasks.serve, lasting]
    · simp [RecentTasks.serve, frozen_advance, RecentsCall.frozen_concat, clock, frozen, pending]
    · simp [RecentTasks.serve, resetDeadline_advance_eq_some_iff, RecentsCall.pending_concat,
        clock, pending]

theorem asCalled_ofCalls (maxTasks timeout : ℕ) (calls : List RecentsCall) :
    (ofCalls maxTasks timeout calls).AsCalled timeout calls := by
  induction calls using List.reverseRecOn with
  | nil => exact asCalled_create maxTasks timeout
  | append_singleton calls call ih =>
    rw [ofCalls, List.foldl_concat]
    exact ih.serve call

theorem AsCalled.serveChecked (called : l.AsCalled timeout calls) (call : RecentsCall) :
    l.serveChecked call =
      if call = .reset → RecentsCall.clock calls + timeout < Checked.timeLimit then
        .ok (l.serve call) else .error .addTime := by
  cases call with
  | reset =>
    rw [RecentTasks.serveChecked, resetChecked_eq, called.now, called.freezeTimeout]
    simp [RecentTasks.serve]
  | _ => simp [RecentTasks.serveChecked]

/-- The calls go through exactly if every deadline is in time, and the list is then the same. -/
theorem ofCallsChecked_eq_ok_iff (maxTasks timeout : ℕ) (calls : List RecentsCall) :
    ofCallsChecked maxTasks timeout calls = .ok l ↔
      RecentsCall.InTime timeout calls ∧ ofCalls maxTasks timeout calls = l := by
  induction calls using List.reverseRecOn generalizing l with
  | nil => simp [ofCallsChecked, ofCalls, RecentsCall.InTime, pure, Except.pure]
  | append_singleton calls call ih =>
    have called := asCalled_ofCalls maxTasks timeout calls
    have step : ofCallsChecked maxTasks timeout (calls ++ [call]) =
        ofCallsChecked maxTasks timeout calls >>= (·.serveChecked call) := by
      simp [ofCallsChecked, List.foldlM_append]
    rw [step, RecentsCall.inTime_concat, ofCalls, List.foldl_concat, ← ofCalls]
    by_cases sooner : RecentsCall.InTime timeout calls
    · rw [ih.mpr ⟨sooner, rfl⟩]
      change (ofCalls maxTasks timeout calls).serveChecked call = .ok l ↔ _
      rw [called.serveChecked]
      split
      · rename_i last
        rw [Except.ok.injEq]
        exact ⟨fun same => ⟨⟨sooner, last⟩, same⟩, And.right⟩
      · simp [*]
    · cases earlier : ofCallsChecked maxTasks timeout calls with
      | error overflow => simp [bind, Except.bind, sooner]
      | ok before => exact absurd (ih.mp earlier).1 sooner

/-- A clock and a timeout of a word of milliseconds each are far from an overflow. -/
theorem ofCallsChecked_of_words (maxTasks : ℕ) (timeoutWord : timeout < UInt64.size)
    (timeWords : ∀ time, .advance time ∈ calls → time < UInt64.size) :
    ofCallsChecked maxTasks timeout calls = .ok (ofCalls maxTasks timeout calls) :=
  (ofCallsChecked_eq_ok_iff ..).mpr ⟨RecentsCall.inTime_of_words timeoutWord timeWords, rfl⟩

/-- The timer follows the latest request: a freeze ends when the clock comes to the deadline of the
reset that was asked for last, and a reset is pending until it fires or a freeze drops it. -/
theorem freezeTimer_ofCalls (maxTasks timeout : ℕ) (calls : List RecentsCall) :
    let l := ofCalls maxTasks timeout calls
    (l.frozen = true ↔ RecentsCall.Frozen timeout calls) ∧
      ∀ due, l.resetDeadline = some due ↔ RecentsCall.Pending timeout calls due :=
  ⟨(asCalled_ofCalls ..).frozen, (asCalled_ofCalls ..).pending⟩

/-- A clock that goes back leaves the second reset pending, which has replaced the first one. -/
example : (ofCalls 8 100 [.freeze, .reset, .advance 60, .reset, .advance 20, .advance 100]).frozen =
    true := by decide +kernel

end RecentTasks
end WindowHost
