import WindowHost.Proofs.Run.Touch
import WindowHost.Proofs.Visibility.Passes
import WindowHost.Proofs.Visibility.Resumption

/-! What clients hear of a pass. A pass comes to an activity once, so all that it calls for is read
off one visit. A silent pass puts off the news that an activity is on screen; a later one that
notifies drops it where the activity is still wanted, but wakes the activity if it sleeps. -/
namespace WindowHost

/-- The call tells a client of a configuration, or that its activity is on screen. -/
def Call.announces : Call → Bool
  | .transaction _ (.configuration _) | .transaction _ (.visibility true) => true
  | _ => false

/-- From these calls the client of an activity learns that it is on screen. -/
def Heard (k : NodeId) (calls : List Call) : Prop :=
  .transaction k (.visibility true) ∈ calls ∨ .transaction k .makeActive ∈ calls

namespace Visibility
open Hierarchy
variable {p : VisibilityParams} {v : Verdict} {w : World} {k : NodeId} {r : ActivityRecord}
  {vs : List Verdict} {calls : List Call}

/-- What is presented is given a process, brought up to date or revealed. -/
theorem Verdict.present_cases (p : VisibilityParams) (v : Verdict) (r : ActivityRecord) :
    v.present p r = Turn.restart p v.changes v.isTop v.resumes v.activity r ∨
      r.visibleRequested = true ∧ v.present p r = Turn.refresh p v.activity r ∨
      r.visibleRequested = false ∧ v.present p r = Turn.reveal p v.activity r := by
  unfold Verdict.present
  cases hosted : r.attached with
  | false => exact .inl (if_pos rfl)
  | true =>
    cases wanted : r.visibleRequested with
    | true => exact .inr (.inl ⟨rfl, by simp⟩)
    | false => exact .inr (.inr ⟨rfl, by simp⟩)

theorem Turn.heard_makeActive : Heard k (Turn.makeActive k r).calls ↔
    r.visibleRequested = true ∧ r.state = .stopped := by
  unfold Turn.makeActive
  split
  · rename_i sleeps
    simp only [Bool.and_eq_true, beq_iff_eq] at sleeps
    simp [Heard, sleeps]
  · rename_i awake
    simp only [Bool.and_eq_true, beq_iff_eq] at awake
    simp [Heard, awake]

theorem Turn.heard_refresh (late : r.clientVisibilityDeferred = true)
    (cleared : (Turn.refresh p k r).record.clientVisibilityDeferred = false) :
    Heard k (Turn.refresh p k r).calls ↔ r.visibleRequested = true ∧ r.state = .stopped := by
  by_cases notifies : p.notifyClients = true
  · simp only [Turn.refresh, if_pos notifies]
    exact Turn.heard_makeActive
  · simp [Turn.refresh, notifies, late] at cleared

theorem Turn.heard_reveal (late : r.clientVisibilityDeferred = true)
    (cleared : (Turn.reveal p k r).record.clientVisibilityDeferred = false) :
    Heard k (Turn.reveal p k r).calls := by
  by_cases aside : (p.starting = some k || r.state == .resumed) = true
  · simp only [Turn.reveal, if_pos aside, late] at cleared
    contradiction
  by_cases notifies : p.notifyClients = true
  · simp only [Turn.reveal, if_neg aside, if_pos notifies]
    exact .inl List.mem_cons_self
  · simp only [Turn.reveal, if_neg aside, if_neg notifies] at cleared
    contradiction

theorem Turn.deferred_restart {changes : ConfigChanges} {isTop andResume : Bool} :
    (Turn.restart p changes isTop andResume k r).record.clientVisibilityDeferred =
      r.clientVisibilityDeferred := by
  unfold Turn.restart
  split
  · rfl
  split <;> rfl

theorem Verdict.heard_present (late : r.clientVisibilityDeferred = true)
    (cleared : (v.present p r).record.clientVisibilityDeferred = false) :
    Heard v.activity (v.present p r).calls ↔ (r.visibleRequested = true → r.state = .stopped) := by
  obtain step | ⟨wanted, step⟩ | ⟨unwanted, step⟩ := Verdict.present_cases p v r
  · rw [step, Turn.deferred_restart, late] at cleared
    contradiction
  · rw [step] at cleared ⊢
    rw [Turn.heard_refresh late cleared, wanted]
    simp
  · rw [step] at cleared ⊢
    rw [unwanted]
    exact iff_of_true (Turn.heard_reveal late cleared) (by simp)

theorem Verdict.deferred_note :
    (v.note r).clientVisibilityDeferred = r.clientVisibilityDeferred := by
  unfold Verdict.note ActivityRecord.cancelInitializing
  dsimp only
  split
  · rfl
  split <;> rfl

/-- Only what is covered is no longer being started. -/
theorem Verdict.state_note (uncovered : v.uncovered = true) : (v.note r).state = r.state := by
  simp [Verdict.note, uncovered]

/-- The news of a configuration says nothing of what is on screen. -/
theorem Verdict.heard_told : Heard k (v.told p ++ calls) ↔ Heard k calls := by
  unfold Verdict.told
  split <;> simp [Heard]

/-- A visit that drops news that was put off passes it on where the activity was not wanted yet, and
where it sleeps. -/
theorem Verdict.heard_turn (late : r.clientVisibilityDeferred = true)
    (cleared : (v.turn p r).record.clientVisibilityDeferred = false)
    (wanted : (v.turn p r).record.visibleRequested = true) :
    Heard v.activity (v.turn p r).calls ↔ (r.visibleRequested = true → r.state = .stopped) := by
  have noted : (v.note r).clientVisibilityDeferred = true := Verdict.deferred_note.trans late
  by_cases visible : v.visible = true
  · have uncovered : v.uncovered = true := by
      simp only [Verdict.visible, Bool.and_eq_true] at visible
      exact visible.1
    by_cases ends : r.finishing = true
    · simp only [Verdict.turn, if_pos visible, if_pos ends, noted] at cleared
      contradiction
    · simp only [Verdict.turn, if_pos visible, if_neg ends] at cleared ⊢
      rw [Verdict.heard_told, Verdict.heard_present noted cleared, Verdict.state_note uncovered,
        Verdict.visibleRequested_note]
  · simp only [Verdict.turn, if_neg visible, Turn.visibleRequested_hide] at wanted
    contradiction

theorem Turn.calls_makeActive {call : Call} (made : call ∈ (Turn.makeActive k r).calls) :
    call = .transaction k .makeActive := by
  unfold Turn.makeActive at made
  split at made <;> simp_all

theorem Turn.calls_restart {changes : ConfigChanges} {isTop andResume : Bool} {call : Call}
    (made : call ∈ (Turn.restart p changes isTop andResume k r).calls) :
    call = .startProcess k andResume true := by
  unfold Turn.restart at made
  split at made
  · contradiction
  split at made
  · contradiction
  · exact List.mem_singleton.mp made

/-- What is presented by a silent pass may be given a process, and hears nothing. -/
theorem Verdict.calls_present_of_silent (silent : p.notifyClients = false) :
    ∀ call ∈ (v.present p r).calls, call.announces = false := by
  obtain step | ⟨_, step⟩ | ⟨_, step⟩ := Verdict.present_cases p v r
  · rw [step]
    intro call made
    rw [Turn.calls_restart made]
    rfl
  · simp [step, Turn.refresh, silent]
  · rw [step, Turn.reveal]
    split <;> simp [silent]

theorem Turn.calls_hide : ∀ call ∈ (Turn.hide k r).calls, call.announces = false := by
  unfold Turn.hide
  split
  · dsimp only
    split <;> simp [Call.announces]
  · simp

theorem Verdict.calls_turn_of_silent (silent : p.notifyClients = false) :
    ∀ call ∈ (v.turn p r).calls, call.announces = false := by
  unfold Verdict.turn
  split
  · split
    · simp
    · have untold : v.told p = [] := by simp [Verdict.told, silent]
      simp only [untold, List.nil_append]
      exact Verdict.calls_present_of_silent silent
  · exact Turn.calls_hide

theorem Turn.not_mem_makeActive (j : NodeId) :
    .transaction j (.visibility false) ∉ (Turn.makeActive k r).calls := by
  intro made
  have other := Turn.calls_makeActive made
  simp at other

/-- What is presented stays wanted. -/
theorem Verdict.visibleRequested_present (wanted : r.visibleRequested = true) :
    (v.present p r).record.visibleRequested = true := by
  obtain step | ⟨_, step⟩ | ⟨unwanted, _⟩ := Verdict.present_cases p v r
  · rw [step, Turn.wanted_restart]
  · rw [step, Turn.visibleRequested_refresh, wanted]
  · rw [wanted] at unwanted
    contradiction

theorem Verdict.not_mem_present :
    .transaction v.activity (.visibility false) ∉ (v.present p r).calls := by
  obtain step | ⟨_, step⟩ | ⟨_, step⟩ := Verdict.present_cases p v r
  · rw [step]
    intro made
    have other := Turn.calls_restart made
    contradiction
  · rw [step, Turn.refresh]
    split
    · exact Turn.not_mem_makeActive _
    · simp
  · rw [step, Turn.reveal]
    split
    · simp
    split
    · simp [Turn.not_mem_makeActive]
    · simp

/-- The client of an activity is told that it is hidden just when it was wanted and no longer is. -/
theorem Verdict.hidden_turn : .transaction v.activity (.visibility false) ∈ (v.turn p r).calls ↔
    r.visibleRequested = true ∧ (v.turn p r).record.visibleRequested = false := by
  unfold Verdict.turn
  split
  · split
    · simp [Verdict.visibleRequested_note]
    · have untold : .transaction v.activity (.visibility false) ∉ v.told p := by
        unfold Verdict.told
        split <;> simp
      simp only [List.mem_append, untold, Verdict.not_mem_present, or_self, false_iff, not_and,
        Bool.not_eq_false]
      intro wanted
      exact Verdict.visibleRequested_present (Verdict.visibleRequested_note.trans wanted)
  · rw [Turn.visibleRequested_hide, ← Verdict.visibleRequested_note (v := v)]
    cases wanted : (v.note r).visibleRequested with
    | false => simp [Turn.hide, wanted]
    | true =>
      simp only [Turn.hide, wanted, if_true]
      split <;> simp

/-- A pass calls for what its visits call for, and for nothing else. -/
theorem exists_mem_calls_carryOut (nodup : (vs.map Verdict.activity).Nodup) :
    ∃ later, (carryOut p w vs).calls = w.calls ++ later ∧ ∀ call, call ∈ later ↔
      ∃ v ∈ vs, ∃ r, w.hierarchy.activity? v.activity = some r ∧ call ∈ (v.turn p r).calls := by
  let sourced (call : Call) : Prop := ∃ v ∈ vs, ∃ r,
    w.hierarchy.activity? v.activity = some r ∧ call ∈ (v.turn p r).calls
  have each : ∀ v ∈ vs, ∀ r, w.hierarchy.activity? v.activity = some r →
      ∀ call ∈ (v.turn p r).calls, sourced call :=
    fun v member r held call asked => ⟨v, member, r, held, asked⟩
  obtain ⟨later, made, sources⟩ := forall_calls_carryOut nodup each
  refine ⟨later, made, fun call => ⟨sources call, ?_⟩⟩
  rintro ⟨v, member, r, held, asked⟩
  obtain ⟨later', made', part⟩ := exists_calls_carryOut (p := p) nodup member held
  rw [List.append_cancel_left (made.symm.trans made')]
  exact part asked

/-- The calls about one activity come from the verdict on it. -/
theorem mem_turn_of_mem_later {later : List Call} {call : Call}
    (nodup : (vs.map Verdict.activity).Nodup) (sources : ∀ call, call ∈ later ↔ ∃ v ∈ vs, ∃ r,
      w.hierarchy.activity? v.activity = some r ∧ call ∈ (v.turn p r).calls)
    (member : v ∈ vs) (held : w.hierarchy.activity? v.activity = some r)
    (about : call.activity? = some v.activity) :
    call ∈ later ↔ call ∈ (v.turn p r).calls := by
  constructor
  · intro made
    obtain ⟨u, member', r', held', asked⟩ := (sources call).mp made
    have same : u.activity = v.activity :=
      Option.some.inj ((Verdict.activity?_of_mem_calls asked).symm.trans about)
    obtain rfl : u = v := List.inj_on_of_nodup_map nodup member' member same
    rw [held, Option.some.injEq] at held'
    rwa [held']
  · exact fun asked => (sources call).mpr ⟨v, member, r, held, asked⟩

/-- A record that a pass changes is as the verdict on the activity has it. -/
theorem exists_verdict_of_changed {r' : ActivityRecord} (nodup : (vs.map Verdict.activity).Nodup)
    (held : w.hierarchy.activity? k = some r)
    (held' : (carryOut p w vs).hierarchy.activity? k = some r') (changed : r' ≠ r) :
    ∃ v ∈ vs, v.activity = k ∧ r' = (v.turn p r).record := by
  by_cases listed : k ∈ vs.map Verdict.activity
  · obtain ⟨v, member, rfl⟩ := List.mem_map.mp listed
    rw [activity?_carryOut nodup member held, Option.some.injEq] at held'
    exact ⟨v, member, rfl, held'.symm⟩
  · rw [activity?_carryOut_of_not_mem listed, held, Option.some.injEq] at held'
    exact absurd held'.symm changed

/-- Whatever holds of all calls of a visit holds of what a pass calls for. -/
theorem forall_calls_of_forall_turn {good : Call → Prop}
    (each : ∀ (v : Verdict) r, ∀ call ∈ (v.turn p r).calls, good call) (vs : List Verdict)
    (w : World) :
    ∃ later, (carryOut p w vs).calls = w.calls ++ later ∧ ∀ call ∈ later, good call := by
  induction vs generalizing w with
  | nil => exact ⟨[], (List.append_nil _).symm, by simp⟩
  | cons v rest ih =>
    obtain ⟨later, made, fits⟩ := ih (v.apply p w)
    cases held : w.hierarchy.activity? v.activity with
    | none =>
      have idle : v.apply p w = w := by simp only [Verdict.apply, held]
      refine ⟨later, made.trans ?_, fits⟩
      rw [idle]
    | some r =>
      have first : (v.apply p w).calls = w.calls ++ (v.turn p r).calls := by
        simp only [Verdict.apply, held]
        rfl
      refine ⟨(v.turn p r).calls ++ later, ?_, List.forall_mem_append.mpr ⟨each v r, fits⟩⟩
      rw [← List.append_assoc, ← first]
      exact made

end Visibility
end WindowHost
