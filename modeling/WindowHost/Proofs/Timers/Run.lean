import Mathlib
import WindowHost.Proofs.Timers.Table

/-! A timer queue in use, next to the table that takes the same calls. Every call is answered as
the table says, so that the order in which the entries are kept shows in no answer, and what fires
goes back to the latest call that has scheduled the key. -/
namespace WindowHost

@[ext]
structure TimerEvent (κ : Type) where
  call : TimerCall κ
  answer : TimerAnswer κ

/-- The event has replaced, dropped or fired what was pending for the key. -/
def TimerEvent.Settles {κ : Type} (key : κ) : TimerEvent κ → Prop
  | ⟨.schedule k _, _⟩ => k = key
  | ⟨.cancel k, _⟩ => k = key
  | ⟨.poll _, .fired keys⟩ => key ∈ keys
  | ⟨.poll _, _⟩ => False

variable {κ : Type} [DecidableEq κ]

namespace TimerQueue

def answer (q : TimerQueue κ) : TimerCall κ → TimerAnswer κ
  | .schedule key _ => .scheduled (q.deadline? key)
  | .cancel key => .cancelled (q.isScheduled key)
  | .poll now => .fired (q.expired now)

def after (q : TimerQueue κ) : TimerCall κ → TimerQueue κ
  | .schedule key deadline => q.schedule key deadline
  | .cancel key => q.cancel key
  | .poll now => q.afterPoll now

/-- A run of calls from the empty queue on. Before each of them the entries may come in any other
order. -/
inductive Served : List (TimerEvent κ) → TimerQueue κ → Prop
  | start : Served [] empty
  | call {trace : List (TimerEvent κ)} {q r : TimerQueue κ} (served : Served trace q)
      (reordered : r.Reordered q) (call : TimerCall κ) :
      Served (trace ++ [⟨call, r.answer call⟩]) (r.after call)

/-- What a queue tells agrees with a table. -/
structure Shows (q : TimerQueue κ) (t : TimerTable κ) : Prop where
  deadline? : ∀ key, q.deadline? key = (t.timer? key).map Prod.fst
  isScheduled : ∀ key, q.isScheduled key = (t.timer? key).isSome
  size : q.size = {key | (t.timer? key).isSome}.encard
  isEmpty : q.isEmpty = true ↔ ∀ key, t.timer? key = none
  nextDeadline? : ∀ deadline, q.nextDeadline? = some deadline ↔
    IsLeast {d | ∃ key rank, t.timer? key = some (d, rank)} deadline

/-- The table has the timers of the queue, and the counter has not wrapped. -/
structure Represents (q : TimerQueue κ) (t : TimerTable κ) : Prop where
  timer? : ∀ key, t.timer? key = (q.timer? key).map fun timer => (timer.deadline, timer.rank.toNat)
  nextRank : q.nextRank.toNat = t.scheduled

variable {q r : TimerQueue κ} {t : TimerTable κ}

theorem represents_empty : (empty : TimerQueue κ).Represents .empty := ⟨fun _ => rfl, rfl⟩

theorem Represents.timer?_eq_some_iff (represents : q.Represents t) {key : κ} {deadline rank : ℕ} :
    t.timer? key = some (deadline, rank) ↔
      ∃ timer, q.timer? key = some timer ∧ timer.deadline = deadline ∧ timer.rank.toNat = rank := by
  simp [represents.timer?]

theorem Represents.reordered (represents : q.Represents t) (reordered : r.Reordered q) :
    r.Represents t where
  timer? key := by rw [reordered.timer?, represents.timer?]
  nextRank := by rw [reordered.nextRank, represents.nextRank]

theorem Represents.after (represents : q.Represents t) (call : TimerCall κ)
    (few : (t.after call).scheduled < 2 ^ 64) : (q.after call).Represents (t.after call) := by
  cases call with
  | schedule key deadline =>
    refine ⟨fun k => ?_, ?_⟩
    · by_cases same : k = key <;>
        simp [TimerTable.after, TimerQueue.after, timer?_schedule, same, represents.nextRank,
          represents.timer?]
    · have next : (q.nextRank + 1).toNat = (t.scheduled + 1) % 2 ^ 64 := by
        rw [UInt64.toNat_add, represents.nextRank]
        rfl
      exact next.trans (Nat.mod_eq_of_lt few)
  | cancel key =>
    refine ⟨fun k => ?_, represents.nextRank⟩
    by_cases same : k = key <;>
      simp [TimerTable.after, TimerQueue.after, timer?_cancel, same, represents.timer?]
  | poll now =>
    refine ⟨fun k => ?_, ?_⟩
    · simp only [TimerTable.after, TimerQueue.after, timer?_afterPoll, represents.timer?,
        Option.filter_map]
      rfl
    · rw [TimerQueue.after, nextRank_afterPoll]
      exact represents.nextRank

/-- The entries that expire are in one order only, as no two of them have the same rank. -/
theorem Represents.pairwise_expired (represents : q.Represents t) (ranked : t.Ranked) (now : ℕ) :
    (q.expired now).Pairwise t.Before := by
  have distinct := nodup_expired q now
  rw [expired, List.Nodup, List.pairwise_map] at distinct
  rw [expired, List.pairwise_map]
  refine List.Pairwise.imp_of_mem ?_ ((pairwise_due q now).and distinct)
  have held {entry : κ × Timer} (due : entry ∈ q.due now) :
      t.timer? entry.1 = some (entry.2.deadline, entry.2.rank.toNat) :=
    represents.timer?_eq_some_iff.mpr
      ⟨entry.2, TimerQueue.timer?_eq_some_iff.mpr (mem_due.mp due).1, rfl, rfl⟩
  intro a b first second both
  obtain ⟨sorted, apart⟩ := both
  refine ⟨_, _, held first, held second, ?_⟩
  have ranks : a.2.rank.toNat ≠ b.2.rank.toNat := fun same =>
    apart (ranked.unique (same ▸ held first) (held second))
  rw [Timer.precedes_iff, UInt64.le_iff_toNat_le] at sorted
  rw [Prod.Lex.toLex_lt_toLex]
  omega

theorem Represents.gives (represents : q.Represents t) (ranked : t.Ranked) (call : TimerCall κ) :
    t.Gives call (q.answer call) := by
  cases call with
  | schedule key deadline =>
    simp [TimerTable.Gives, answer, deadline?, represents.timer?, Function.comp_def]
  | cancel key => simp [TimerTable.Gives, answer, isScheduled, represents.timer?]
  | poll now =>
    refine ⟨fun key => ?_, nodup_expired q now, represents.pairwise_expired ranked now⟩
    rw [mem_expired]
    simp only [represents.timer?_eq_some_iff]
    constructor
    · rintro ⟨timer, found, due⟩
      exact ⟨_, _, ⟨timer, found, rfl, rfl⟩, due⟩
    · rintro ⟨_, _, ⟨timer, found, rfl, rfl⟩, due⟩
      exact ⟨timer, found, due⟩

theorem Represents.shows (represents : q.Represents t) : q.Shows t where
  deadline? key := by simp [deadline?, represents.timer?, Function.comp_def]
  isScheduled key := by simp [isScheduled, represents.timer?]
  size := by simp [represents.timer?, ← encard_pending]
  isEmpty := by simp [isEmpty_iff, represents.timer?]
  nextDeadline? deadline := by
    rw [nextDeadline?_eq_some_iff]
    refine iff_of_eq (congrArg (IsLeast · deadline) ?_)
    ext d
    simp [represents.timer?_eq_some_iff]

end TimerQueue

/-- Every answer of a run is what the table gives that the calls before have led to. -/
def Lawful (trace : List (TimerEvent κ)) : Prop :=
  ∀ before event after, trace = before ++ event :: after →
    (TimerTable.ofCalls (before.map TimerEvent.call)).Gives event.call event.answer

/-- A key that fires has been scheduled, for a time that has come, and since then nothing has
replaced that, dropped it or fired the key. -/
def Sourced (trace : List (TimerEvent κ)) : Prop :=
  ∀ before now keys after key, trace = before ++ ⟨.poll now, .fired keys⟩ :: after → key ∈ keys →
    ∃ earlier deadline answer between,
      before = earlier ++ ⟨.schedule key deadline, answer⟩ :: between ∧ deadline ≤ now ∧
        ∀ event ∈ between, ¬ event.Settles key

section
variable {trace others : List (TimerEvent κ)} {q : TimerQueue κ}

omit [DecidableEq κ] in
/-- An event of a run is the last one or one of the run before that. -/
theorem split_concat {last event : TimerEvent κ} {before after : List (TimerEvent κ)}
    (split : trace ++ [last] = before ++ event :: after) :
    before = trace ∧ event = last ∨ ∃ rest, trace = before ++ event :: rest := by
  obtain rfl | ⟨rest, final, rfl⟩ := List.eq_nil_or_concat after
  · obtain ⟨same, last⟩ := List.append_inj' split rfl
    exact .inl ⟨same.symm, (List.singleton_inj.mp last).symm⟩
  · rw [List.concat_eq_append, ← List.cons_append, ← List.append_assoc] at split
    exact .inr ⟨rest, (List.append_inj' split rfl).1⟩

theorem Lawful.of_concat {last : TimerEvent κ} (lawful : Lawful (trace ++ [last])) :
    Lawful trace ∧
      (TimerTable.ofCalls (trace.map TimerEvent.call)).Gives last.call last.answer := by
  refine ⟨fun before event after split => ?_, lawful trace last [] rfl⟩
  exact lawful before event (after ++ [last]) (by simp [split])

theorem Lawful.concat {last : TimerEvent κ} (lawful : Lawful trace)
    (given : (TimerTable.ofCalls (trace.map TimerEvent.call)).Gives last.call last.answer) :
    Lawful (trace ++ [last]) := by
  intro before event after split
  obtain ⟨rfl, rfl⟩ | ⟨rest, earlier⟩ := split_concat split
  · exact given
  · exact lawful before event rest earlier

/-- The calls settle the answers. -/
theorem Lawful.unique (lawful : Lawful trace) (other : Lawful others)
    (same : trace.map TimerEvent.call = others.map TimerEvent.call) : trace = others := by
  induction trace using List.reverseRecOn generalizing others with
  | nil => exact (List.map_eq_nil_iff.mp same.symm).symm
  | append_singleton trace last ih =>
    obtain rfl | ⟨rest, final, rfl⟩ := List.eq_nil_or_concat others
    · simp at same
    · rw [List.concat_eq_append] at other same ⊢
      rw [List.map_append, List.map_append] at same
      obtain ⟨before, call⟩ := List.append_inj' same rfl
      obtain ⟨earlier, given⟩ := lawful.of_concat
      obtain ⟨sooner, taken⟩ := other.of_concat
      obtain rfl := ih earlier sooner before
      have call : last.call = final.call := List.singleton_inj.mp call
      rw [← call] at taken
      rw [TimerEvent.ext call (given.unique taken)]

theorem schedules_or_spares {t : TimerTable κ} {event : TimerEvent κ} {key : κ} {deadline rank : ℕ}
    (given : t.Gives event.call event.answer)
    (pending : (t.after event.call).timer? key = some (deadline, rank)) :
    event.call = .schedule key deadline ∨
      t.timer? key = some (deadline, rank) ∧ ¬ event.Settles key := by
  obtain ⟨call, answer⟩ := event
  cases call with
  | schedule k d =>
    by_cases same : k = key
    · subst same
      simp_all [TimerTable.after]
    · exact .inr ⟨by simpa [TimerTable.after, Ne.symm same] using pending, same⟩
  | cancel k =>
    by_cases same : k = key
    · simp [TimerTable.after, same] at pending
    · exact .inr ⟨by simpa [TimerTable.after, Ne.symm same] using pending, same⟩
  | poll now =>
    obtain ⟨held, later⟩ := Option.filter_eq_some_iff.mp pending
    refine .inr ⟨held, fun settled => ?_⟩
    cases answer with
    | fired keys =>
      obtain ⟨d, r, found, due⟩ := (given.mem_iff key).mp settled
      simp_all
      omega
    | scheduled => exact settled
    | cancelled => exact settled

/-- What is pending was scheduled, and nothing since has settled it. -/
theorem Lawful.exists_schedule (lawful : Lawful trace) {key : κ} {deadline rank : ℕ}
    (pending :
      (TimerTable.ofCalls (trace.map TimerEvent.call)).timer? key = some (deadline, rank)) :
    ∃ earlier answer between, trace = earlier ++ ⟨.schedule key deadline, answer⟩ :: between ∧
      ∀ event ∈ between, ¬ event.Settles key := by
  induction trace using List.reverseRecOn with
  | nil => contradiction
  | append_singleton trace last ih =>
    obtain ⟨sooner, given⟩ := lawful.of_concat
    rw [List.map_append, List.map_singleton, TimerTable.ofCalls_concat] at pending
    obtain scheduled | ⟨held, spared⟩ := schedules_or_spares given pending
    · exact ⟨trace, last.answer, [], by rw [← scheduled], by simp⟩
    · obtain ⟨earlier, answer, between, rfl, unsettled⟩ := ih sooner held
      refine ⟨earlier, answer, between ++ [last], by simp, fun event mem => ?_⟩
      obtain mem | mem := List.mem_append.mp mem
      · exact unsettled event mem
      · exact List.mem_singleton.mp mem ▸ spared

theorem Lawful.sourced (lawful : Lawful trace) : Sourced trace := by
  intro before now keys after key split fired
  have given := lawful before _ after split
  obtain ⟨deadline, rank, pending, due⟩ := (given.mem_iff key).mp fired
  have sooner : Lawful before := fun first event rest part =>
    lawful first event (rest ++ ⟨.poll now, .fired keys⟩ :: after) (by simp [split, part])
  obtain ⟨earlier, answer, between, rfl, unsettled⟩ := sooner.exists_schedule pending
  exact ⟨earlier, deadline, answer, between, rfl, due, unsettled⟩

theorem TimerQueue.Served.lawful (served : TimerQueue.Served trace q)
    (few : (trace.map TimerEvent.call).countP TimerCall.schedules < 2 ^ 64) :
    Lawful trace ∧ q.Represents (TimerTable.ofCalls (trace.map TimerEvent.call)) := by
  induction served with
  | start => exact ⟨fun before event after split => by simp at split, TimerQueue.represents_empty⟩
  | @call trace q r served reordered call ih =>
    have fewer : (trace.map TimerEvent.call).countP TimerCall.schedules < 2 ^ 64 := by
      rw [List.map_append, List.countP_append] at few
      omega
    obtain ⟨lawful, represents⟩ := ih fewer
    have represents := represents.reordered reordered
    refine ⟨lawful.concat (represents.gives (TimerTable.ranked_ofCalls _) call), ?_⟩
    rw [← TimerTable.scheduled_ofCalls] at few
    rw [List.map_append, List.map_singleton, TimerTable.ofCalls_concat] at few ⊢
    exact represents.after call few

theorem TimerQueue.exists_served (calls : List (TimerCall κ)) :
    ∃ trace q, TimerQueue.Served trace q ∧ trace.map TimerEvent.call = calls := by
  induction calls using List.reverseRecOn with
  | nil => exact ⟨[], _, .start, rfl⟩
  | append_singleton calls call ih =>
    obtain ⟨trace, q, served, rfl⟩ := ih
    exact ⟨_, _, served.call (.refl q) call, by simp⟩

/-- As long as the counter of 64 bits has not wrapped, a queue is a table: the calls of a run
settle what it answers, which is what the table answers, and what the queue tells in the end. The
order of the entries shows in none of it. What fires was scheduled by a call that nothing has
replaced, and that was neither dropped nor fired before. -/
theorem timers_refine_table (calls : List (TimerCall κ))
    (few : calls.countP TimerCall.schedules < 2 ^ 64) :
    ∃ trace : List (TimerEvent κ), trace.map TimerEvent.call = calls ∧ Lawful trace ∧
      Sourced trace ∧ (∃ q, TimerQueue.Served trace q) ∧
      ∀ others q, TimerQueue.Served others q → others.map TimerEvent.call = calls →
        others = trace ∧ q.Shows (TimerTable.ofCalls calls) := by
  obtain ⟨trace, q, served, rfl⟩ := TimerQueue.exists_served calls
  have lawful := (served.lawful few).1
  refine ⟨trace, rfl, lawful, lawful.sourced, ⟨q, served⟩, fun others r other same => ?_⟩
  obtain ⟨alike, represents⟩ := other.lawful (same ▸ few)
  exact ⟨alike.unique lawful same, same ▸ represents.shows⟩

/-- A key is scheduled again for an earlier time, behind another key for that time. -/
def rescheduling : List (TimerCall ℕ) :=
  [.schedule 1 20, .schedule 2 10, .schedule 1 10, .poll 10, .poll 20]

theorem rescheduled_fires_once :
    rescheduling.countP TimerCall.schedules < 2 ^ 64 ∧
      ∀ trace q, TimerQueue.Served trace q → trace.map TimerEvent.call = rescheduling →
        trace.map TimerEvent.answer = [.scheduled none, .scheduled none, .scheduled (some 20),
          .fired [2, 1], .fired []] := by
  have few : rescheduling.countP TimerCall.schedules < 2 ^ 64 := by decide
  refine ⟨few, fun trace q served calls => ?_⟩
  obtain ⟨settled, -, -, -, -, unique⟩ := timers_refine_table rescheduling few
  -- One run with the entries as they come stands for all the others.
  obtain ⟨sample, final, run, called, answered⟩ : ∃ sample final,
      TimerQueue.Served sample final ∧ sample.map TimerEvent.call = rescheduling ∧
        sample.map TimerEvent.answer = [.scheduled none, .scheduled none, .scheduled (some 20),
          .fired [2, 1], .fired []] := by
    have run := ((((TimerQueue.Served.start.call (.refl _) (.schedule 1 20)).call (.refl _)
      (.schedule 2 10)).call (.refl _) (.schedule 1 10)).call (.refl _) (.poll 10)).call (.refl _)
      (.poll 20)
    exact ⟨_, _, run, rfl, by cbv⟩
  rw [(unique trace q served calls).1, ← (unique sample final run called).1, answered]

end
end WindowHost
