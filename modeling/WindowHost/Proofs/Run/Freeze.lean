import Mathlib.Data.List.Induction
import WindowHost.Registry
import WindowHost.Proofs.Run.Entries
import WindowHost.Proofs.Timers.FreezeTimer

/-! The freeze of the recent tasks over time, as starts, calls to the list and the moves of its
clock come in any order. A start that the recents application makes, that wants the freeze and that
succeeds leaves the list frozen, and what ends that freeze is a reset that was asked for later. The
one exception is a list that was frozen before: its timer runs on. -/
namespace WindowHost

namespace RecentTasks
variable {l : RecentTasks} {call : Call} {calls : List Call} {due time : Nat}

theorem clock_observe (l : RecentTasks) (call : Call) :
    (l.observe call).now = l.now ∧ (l.observe call).freezeTimeout = l.freezeTimeout := by
  cases call with
  | addRecent task =>
    obtain ⟨tasks, same⟩ := exists_tasks_of_add l task
    rw [observe, same]
    exact ⟨rfl, rfl⟩
  | _ => exact ⟨rfl, rfl⟩

theorem frozen_observe (l : RecentTasks) (call : Call) :
    (l.observe call).frozen = (l.frozen || call == .freezeRecents) := by
  cases call with
  | addRecent task =>
    obtain ⟨tasks, same⟩ := exists_tasks_of_add l task
    rw [observe, same]
    exact (Bool.or_false _).symm
  | freezeRecents => exact (Bool.or_true _).symm
  | _ => exact (Bool.or_false _).symm

/-- A reset that is pending after a call was pending before it, and the call does not freeze the
list, or the call asks for it. -/
theorem resetDeadline_observe (pending : (l.observe call).resetDeadline = some due) :
    (l.resetDeadline = some due ∧ call ≠ .freezeRecents) ∨
      (call = .resetRecentsFreeze ∧ due = l.now + l.freezeTimeout) := by
  cases call with
  | addRecent task =>
    obtain ⟨tasks, same⟩ := exists_tasks_of_add l task
    rw [observe, same] at pending
    exact .inl ⟨pending, Call.noConfusion⟩
  | freezeRecents => exact absurd (l.resetDeadline_freeze.symm.trans pending) nofun
  | resetRecentsFreeze =>
    exact .inr ⟨rfl, Option.some.inj (pending.symm.trans l.resetDeadline_resetOnTimeout)⟩
  | _ => exact .inl ⟨pending, Call.noConfusion⟩

theorem clock_after (l : RecentTasks) (calls : List Call) :
    (l.after calls).now = l.now ∧ (l.after calls).freezeTimeout = l.freezeTimeout := by
  induction calls generalizing l with
  | nil => exact ⟨rfl, rfl⟩
  | cons call calls ih =>
    obtain ⟨now, timeout⟩ := ih (l.observe call)
    obtain ⟨same, alike⟩ := clock_observe l call
    exact ⟨now.trans same, timeout.trans alike⟩

theorem frozen_after (l : RecentTasks) (calls : List Call) :
    (l.after calls).frozen = (l.frozen || calls.contains .freezeRecents) := by
  induction calls generalizing l with
  | nil => exact (Bool.or_false _).symm
  | cons call calls ih =>
    rw [after, List.foldl_cons, ← after, ih, frozen_observe, Bool.or_assoc, List.contains_cons,
      BEq.comm]

/-- A reset that is pending after some calls was pending before them, with no freeze among them,
or is asked for by one of them. -/
theorem resetDeadline_after (pending : (l.after calls).resetDeadline = some due) :
    (l.resetDeadline = some due ∧ .freezeRecents ∉ calls) ∨
      (.resetRecentsFreeze ∈ calls ∧ due = l.now + l.freezeTimeout) := by
  induction calls generalizing l with
  | nil => exact .inl ⟨pending, List.not_mem_nil⟩
  | cons call calls ih =>
    obtain ⟨now, timeout⟩ := clock_observe l call
    rcases ih pending with ⟨between, calm⟩ | ⟨asked, time⟩
    · rcases resetDeadline_observe between with ⟨before, other⟩ | ⟨rfl, time⟩
      · exact .inl ⟨before, List.not_mem_cons_of_ne_of_not_mem other.symm calm⟩
      · exact .inr ⟨List.mem_cons_self, time⟩
    · rw [now, timeout] at time
      exact .inr ⟨List.mem_cons_of_mem call asked, time⟩

/-- The clock ends a freeze when it comes to the deadline of the pending reset. -/
theorem due_of_advance (frozen : l.frozen = true) (thawed : (l.advance time).frozen = false) :
    ∃ due, l.resetDeadline = some due ∧ due ≤ max l.now time := by
  by_contra early
  have lasting : (l.advance time).frozen = true := frozen_advance.mpr ⟨frozen, fun due pending =>
    Nat.lt_of_not_le fun reached => early ⟨due, pending, reached⟩⟩
  rw [lasting] at thawed
  contradiction

theorem resetDeadline_advance (pending : (l.advance time).resetDeadline = some due) :
    l.resetDeadline = some due :=
  (resetDeadline_advance_eq_some_iff.mp pending).1

end RecentTasks

/-- A host, and the list of recent tasks that stands beside it. -/
structure Desk where
  world : World
  recents : RecentTasks

/-- The host asks the list on the desk, as it is after the calls that are made from now on. -/
def Host.beside (host : Host) (d : Desk) : Host :=
  { host with
    environment := fun calls =>
      let recents := d.recents.after (calls.drop d.world.calls.length)
      { host.environment calls with
        isCallerRecents := recents.isCallerRecents
        recentsFrozen := recents.frozen } }

/-- One thing that happens to a host or to its list. -/
inductive Event where
  | start (host : Host) (starter : Starter)
  /-- Someone else calls the list. -/
  | tell (call : Call)
  | advance (time : Nat)
  | assignRecents (uid : Option Uid)
  /-- Anything that passes the list by. -/
  | other (world : World)

/-- The calls that an event makes. -/
def Event.calls (d : Desk) : Event → List Call
  | .start host starter =>
    (Start.execute (host.beside d) starter d.world).2.1.calls.drop d.world.calls.length
  | .tell call => [call]
  | .advance _ | .assignRecents _ | .other _ => []

namespace Desk

def step (d : Desk) (event : Event) : Desk :=
  match event with
  | .start host starter =>
    { world := (Start.execute (host.beside d) starter d.world).2.1
      recents := d.recents.after (event.calls d) }
  | .tell _ => { d with recents := d.recents.after (event.calls d) }
  | .advance time => { d with recents := d.recents.advance time }
  | .assignRecents uid => { d with recents := { d.recents with recentsUid := uid } }
  | .other world => { d with world := world }

def after (d : Desk) (events : List Event) : Desk := events.foldl step d

variable {d : Desk} {event : Event} {events : List Event} {due : Nat}

theorem after_concat (d : Desk) (events : List Event) (event : Event) :
    d.after (events ++ [event]) = (d.after events).step event :=
  List.foldl_concat ..

theorem now_step (d : Desk) (event : Event) : d.recents.now ≤ (d.step event).recents.now := by
  cases event with
  | start host starter => exact (d.recents.clock_after _).1.ge
  | tell call => exact (d.recents.clock_after _).1.ge
  | advance time => exact (Nat.le_max_left ..).trans (d.recents.now_advance time).ge
  | assignRecents uid => exact le_rfl
  | other world => exact le_rfl

/-- Nothing but the clock ends a freeze. -/
theorem due_of_step (frozen : d.recents.frozen = true)
    (thawed : (d.step event).recents.frozen = false) :
    ∃ time due, event = .advance time ∧ d.recents.resetDeadline = some due ∧
      due ≤ (d.step event).recents.now := by
  have lasts : ∀ calls, (d.recents.after calls).frozen = true := fun calls => by
    rw [RecentTasks.frozen_after, frozen, Bool.true_or]
  cases event with
  | start host starter => exact absurd thawed (by simp [step, lasts])
  | tell call => exact absurd thawed (by simp [step, lasts])
  | advance time =>
    obtain ⟨due, pending, reached⟩ := RecentTasks.due_of_advance frozen thawed
    exact ⟨time, due, rfl, pending, reached.trans (d.recents.now_advance time).ge⟩
  | assignRecents uid => exact absurd thawed (by simp [step, frozen])
  | other world => exact absurd thawed (by simp [step, frozen])

theorem pending_of_step (pending : (d.step event).recents.resetDeadline = some due) :
    d.recents.resetDeadline = some due ∨
      (.resetRecentsFreeze ∈ event.calls d ∧ due = d.recents.now + d.recents.freezeTimeout) := by
  cases event with
  | start host starter => exact (RecentTasks.resetDeadline_after pending).imp_left And.left
  | tell call => exact (RecentTasks.resetDeadline_after pending).imp_left And.left
  | advance time => exact .inl (RecentTasks.resetDeadline_advance pending)
  | assignRecents uid => exact .inl pending
  | other world => exact .inl pending

/-- One of the events asks for the reset, with this deadline. -/
def Issued (d : Desk) (events : List Event) (due : Nat) : Prop :=
  ∃ before event later, events = before ++ event :: later ∧
    .resetRecentsFreeze ∈ event.calls (d.after before) ∧
      due = (d.after before).recents.now + (d.after before).recents.freezeTimeout

/-- A reset that one of the events asks for is still pending when the clock comes to its
deadline. -/
def Expires (d : Desk) (events : List Event) : Prop :=
  ∃ before time later due, events = before ++ .advance time :: later ∧ Issued d before due ∧
    (d.after before).recents.resetDeadline = some due ∧
      due ≤ ((d.after before).step (.advance time)).recents.now

theorem Issued.concat (issued : Issued d events due) (event : Event) :
    Issued d (events ++ [event]) due := by
  obtain ⟨before, reset, later, rfl, asked, time⟩ := issued
  exact ⟨before, reset, later ++ [event], by simp, asked, time⟩

theorem Expires.concat (expires : Expires d events) (event : Event) :
    Expires d (events ++ [event]) := by
  obtain ⟨before, time, later, due, rfl, issued, pending, reached⟩ := expires
  exact ⟨before, time, later ++ [event], due, by simp, issued, pending, reached⟩

/-- A reset that is pending was so at first, or one of the events has asked for it. -/
theorem issued_of_pending (pending : (d.after events).recents.resetDeadline = some due) :
    d.recents.resetDeadline = some due ∨ Issued d events due := by
  induction events using List.reverseRecOn with
  | nil => exact .inl pending
  | append_singleton events event ih =>
    rw [after_concat] at pending
    rcases pending_of_step pending with before | ⟨asked, time⟩
    · exact (ih before).imp_right fun issued => issued.concat event
    · exact .inr ⟨events, event, [], rfl, asked, time⟩

/-- A freeze lasts until a later reset runs out, or the one that was pending at first does. -/
theorem frozen_or_expires (frozen : d.recents.frozen = true) (events : List Event) :
    (d.after events).recents.frozen = true ∨ Expires d events ∨
      ∃ due, d.recents.resetDeadline = some due ∧ due ≤ (d.after events).recents.now := by
  induction events using List.reverseRecOn with
  | nil => exact .inl frozen
  | append_singleton events event ih =>
    rw [after_concat]
    rcases ih with lasting | expires | ⟨due, pending, reached⟩
    · cases thawed : ((d.after events).step event).recents.frozen with
      | true => exact .inl rfl
      | false =>
        obtain ⟨time, due, rfl, pending, reached⟩ := due_of_step lasting thawed
        rcases issued_of_pending pending with old | issued
        · exact .inr (.inr ⟨due, old, reached⟩)
        · exact .inr (.inl ⟨events, time, [], due, rfl, issued, pending, reached⟩)
    · exact .inr (.inl (expires.concat event))
    · exact .inr (.inr ⟨due, pending, reached.trans (now_step ..)⟩)

end Desk

namespace Start
open Desk
variable {d : Desk} {host : Host} {given : StartRequest} {result : StartResult}

theorem hasFileDescriptors_of_ok {s : Starter} {w w' : World}
    (ended : execute host { request := given } w = (s, w', .ok result)) :
    given.intent.hasFileDescriptors = false := by
  unfold execute at ended
  rw [if_neg (by simp)] at ended
  split at ended
  · cases ended
  · exact Bool.eq_false_iff.mpr ‹_›

/-- The calls of a successful start that wants the freeze ask for no reset, and they freeze a list
that was not frozen. -/
theorem calls_of_successful (wants : given.wantsFreeze = true)
    (asks : d.recents.recentsUid =
      some (given.resolveCaller ((host.beside d).environment d.world.calls)).uid)
    (ended : (execute (host.beside d) { request := given } d.world).2.2 = .ok result)
    (successful : result.isSuccessful = true) :
    let calls := Event.calls d (.start host { request := given })
    .resetRecentsFreeze ∉ calls ∧ (.freezeRecents ∈ calls ↔ d.recents.frozen = false) := by
  have plain := hasFileDescriptors_of_ok (Prod.ext rfl (Prod.ext rfl ended))
  obtain ⟨attempts, report, ⟨later, made, entries⟩, _⟩ :=
    enters_run (host.beside d) given d.world
  have same : (run (host.beside d) { request := given } d.world).2.2 = result := by
    rw [execute_of_plain plain] at ended
    exact Except.ok.inj ended
  have calls : Event.calls d (.start host { request := given }) = later := by
    rw [Event.calls, execute_of_plain plain]
    dsimp only
    rw [made, List.drop_left]
  have freeze : freezes (host.beside d) given d.world = !d.recents.frozen := by
    have begun : d.recents.after (d.world.calls.drop d.world.calls.length) = d.recents := by
      rw [List.drop_length]
      rfl
    have recents : fromRecents (host.beside d) given d.world = true := by
      unfold fromRecents
      dsimp only [Host.beside] at asks ⊢
      rw [begun] at asks ⊢
      rw [RecentTasks.isCallerRecents, asks, beq_self_eq_true]
    rw [freezes, wants, recents]
    dsimp only [Host.beside]
    rw [begun, Bool.true_and, Bool.true_and]
  rw [same, successful, freeze] at entries
  rw [calls]
  refine ⟨?_, ?_⟩
  · rw [← List.count_eq_zero, count_resetRecentsFreeze_of_entries entries]
    simp
  · rw [← List.count_pos_iff, count_freezeRecents_of_entries entries]
    cases d.recents.frozen <;> simp

/-- The list is frozen after a successful start of the recents application that wants it so, and
stays frozen until a reset that was asked for later runs out, unless it was frozen before the start
under a timer of its own that has come due. -/
theorem frozen_or_expires_of_start (wants : given.wantsFreeze = true)
    (asks : d.recents.recentsUid =
      some (given.resolveCaller ((host.beside d).environment d.world.calls)).uid)
    (ended : (execute (host.beside d) { request := given } d.world).2.2 = .ok result)
    (successful : result.isSuccessful = true) (events : List Event) :
    let started := d.step (.start host { request := given })
    (∀ due, d.recents.frozen = true → d.recents.resetDeadline = some due →
        (started.after events).recents.now < due) →
      (started.after events).recents.frozen = true ∨ Expires started events := by
  intro started early
  obtain ⟨calm, freeze⟩ := calls_of_successful wants asks ended successful
  have frozen : started.recents.frozen = true := by
    refine (RecentTasks.frozen_after ..).trans ?_
    cases before : d.recents.frozen with
    | true => exact Bool.true_or _
    | false => exact (Bool.false_or _).trans (List.contains_iff_mem.mpr (freeze.mpr before))
  rcases frozen_or_expires frozen events with lasting | expires | ⟨due, pending, reached⟩
  · exact .inl lasting
  · exact .inr expires
  · -- the start has asked for no reset, so this one was there before it
    rcases RecentTasks.resetDeadline_after pending with ⟨old, unfrozen⟩ | ⟨asked, _⟩
    · have already : d.recents.frozen = true := by
        rw [freeze] at unfrozen
        exact Bool.not_eq_false _ ▸ unfrozen
      exact absurd reached (Nat.not_le.mpr (early due already old))
    · exact absurd asked calm

/-- A display with nothing on it, and a list of recent tasks that an application shows. -/
def bareDesk : Desk where
  world := { hierarchy := Hierarchy.empty.mutate (.addDisplay ⟨0⟩ ⟨0, 0, 1920, 1080⟩) }
  recents := { RecentTasks.create 16 5000 with recentsUid := some ⟨10020⟩ }

/-- The application that shows the list opens the inbox and has the list frozen for it. -/
def frozenRequest (info : Option ActivityInfo) : StartRequest where
  callingUid := some ⟨10020⟩
  intent := .ofComponent ⟨"mail", "Inbox"⟩
  info := info
  options := some { freezeRecents := true }

/-- The inbox is opened with the list frozen, and the freeze ends by a reset that comes after. -/
theorem expires_of_tell_reset :
    let host : Host := { environment := fun _ => {} }
    let given := frozenRequest (some { component := ⟨"mail", "Inbox"⟩, uid := ⟨10010⟩ })
    let started := bareDesk.step (.start host { request := given })
    let events := [.tell .resetRecentsFreeze, .advance 4999, .advance 5000]
    given.wantsFreeze = true ∧
      (execute (host.beside bareDesk) { request := given } bareDesk.world).2.2 = .ok .success ∧
        (started.after events).recents.frozen = false ∧ Expires started events := by
  intro host given started events
  have wants : given.wantsFreeze = true := rfl
  have ended : (execute (host.beside bareDesk) { request := given } bareDesk.world).2.2 =
      .ok .success := by decide +kernel
  have thawed : (started.after events).recents.frozen = false := by decide +kernel
  have blank : ∀ due, bareDesk.recents.frozen = true →
      bareDesk.recents.resetDeadline = some due → (started.after events).recents.now < due := by
    intro due frozen
    contradiction
  rcases frozen_or_expires_of_start wants rfl ended rfl events blank with lasting | expires
  · rw [thawed] at lasting
    contradiction
  · exact ⟨wants, ended, thawed, expires⟩

/-- A start that fails for want of an inbox leaves the list frozen with a reset pending. The start
that follows succeeds, finds the list frozen and lets the reset be, which then ends the freeze. -/
theorem not_expires_of_pending :
    let host : Host := { environment := fun _ => {} }
    let given := frozenRequest (some { component := ⟨"mail", "Inbox"⟩, uid := ⟨10010⟩ })
    let failed := bareDesk.step (.start host { request := frozenRequest none })
    let started := failed.step (.start host { request := given })
    given.wantsFreeze = true ∧
      failed.recents.recentsUid =
        some (given.resolveCaller ((host.beside failed).environment failed.world.calls)).uid ∧
        (execute (host.beside failed) { request := given } failed.world).2.2 = .ok .success ∧
          (started.after [.advance 5000]).recents.frozen = false ∧
            ¬ Expires started [.advance 5000] := by
  intro host given failed started
  refine ⟨rfl, by decide +kernel, by decide +kernel, by decide +kernel, ?_⟩
  rintro ⟨before, time, later, due, once, ⟨earlier, reset, _, rfl, _⟩, _⟩
  have short := congrArg List.length once
  simp only [List.length_append, List.length_cons, List.length_nil] at short
  omega

end Start
end WindowHost
