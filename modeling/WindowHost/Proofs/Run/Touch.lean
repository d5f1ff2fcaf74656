import WindowHost.Proofs.Visibility.Settled

/-! What the host ever does to an activity that is there, in the smallest steps that leave its
record in order. A visit of a pass, a change of the focus and a start are made of these. -/
namespace WindowHost
variable {silent : Bool} {k : NodeId} {r s t : ActivityRecord} {calls before after : List Call}

/-- One thing that becomes of an activity: its record before and after, and the calls. Only a
silent pass shows an activity without a word. -/
inductive Touch (silent : Bool) (k : NodeId) :
    ActivityRecord → ActivityRecord → List Call → Prop where
  | see {r : ActivityRecord} (uncovered : Bool) :
      Touch silent k r { r with visibleIgnoringKeyguard := uncovered } []
  | cancel {r : ActivityRecord} (begun : r.state = .initializing) :
      Touch silent k r { r with state := .stopped } []
  | configure {r : ActivityRecord} (lasts : r.finishing = false) (preserve : Bool) :
      Touch silent k r r [.transaction k (.configuration preserve)]
  | want {r : ActivityRecord} (lasts : r.finishing = false) (bare : r.attached = false) :
      Touch silent k r { r with visibleRequested := true } []
  | restart {r : ActivityRecord} (lasts : r.finishing = false) (bare : r.attached = false)
      (changes : ConfigChanges) (andResume : Bool) :
      Touch silent k r
        { r.startFreezingScreen changes with visibleRequested := true, restarting := true }
        [.startProcess k andResume true]
  | wake {r : ActivityRecord} (lasts : r.finishing = false) (hosted : r.attached = true)
      (wanted : r.visibleRequested = true) (asleep : r.state = .stopped) :
      Touch silent k r { r with state := .paused } [.transaction k .makeActive]
  | hear {r : ActivityRecord} : Touch silent k r { r with clientVisibilityDeferred := false } []
  | reveal {r : ActivityRecord} (lasts : r.finishing = false) (hosted : r.attached = true)
      (rests : r.state ≠ .resumed) :
      Touch silent k r { r with visibleRequested := true, clientVisibilityDeferred := false }
        [.transaction k (.visibility true)]
  | defer {r : ActivityRecord} (quiet : silent = true) (lasts : r.finishing = false)
      (hosted : r.attached = true) (rests : r.state ≠ .resumed) :
      Touch silent k r { r with visibleRequested := true, clientVisibilityDeferred := true } []
  | hide {r : ActivityRecord} (wanted : r.visibleRequested = true)
      (rests : r.state ≠ .resumed ∧ r.state ≠ .paused) :
      Touch silent k r { r with visibleRequested := false, clientVisibilityDeferred := false }
        [.transaction k (.visibility false)]
  | hideAndStop {r : ActivityRecord} (wanted : r.visibleRequested = true)
      (awake : r.state = .resumed ∨ r.state = .paused) :
      Touch silent k r
        { r with visibleRequested := false, clientVisibilityDeferred := false, state := .stopped }
        [.transaction k (.visibility false), .transaction k .stop]
  | pause {r : ActivityRecord} (resumed : r.state = .resumed)
      (wanted : r.visibleRequested = true) :
      Touch silent k r { r with state := .paused } [.transaction k .pause]
  | stop {r : ActivityRecord} (resumed : r.state = .resumed)
      (unwanted : r.visibleRequested = false) :
      Touch silent k r { r with state := .stopped } [.transaction k .stop]
  | resume {r : ActivityRecord} (runs : r.isRunning = true) (wanted : r.visibleRequested = true)
      (hosted : r.attached = true) :
      Touch silent k r { r with state := .resumed } [.transaction k .resume]
  | start {r : ActivityRecord} (runs : r.isRunning = true) (wanted : r.visibleRequested = true)
      (bare : r.attached = false) (idle : r.restarting = false) :
      Touch silent k r { r with restarting := true } [.startProcess k true true]
  | deliver {r : ActivityRecord} (runs : r.isRunning = true) (intent : Intent)
      (cookie : Option LaunchCookie) :
      Touch silent k r
        { r.deliverNewIntent intent with launchCookie := cookie.or r.launchCookie }
        [.transaction k .newIntent]
  | mark {r : ActivityRecord} (runs : r.isRunning = true) (cookie : Option LaunchCookie) :
      Touch silent k r { r with launchCookie := cookie.or r.launchCookie } []

/-- Several touches, one after the other. -/
inductive Touches (silent : Bool) (k : NodeId) :
    ActivityRecord → ActivityRecord → List Call → Prop where
  | refl {r : ActivityRecord} : Touches silent k r r []
  | tail {r s t : ActivityRecord} {before after : List Call}
      (first : Touches silent k r s before) (last : Touch silent k s t after) :
      Touches silent k r t (before ++ after)

theorem Touch.touches (touch : Touch silent k r s calls) : Touches silent k r s calls :=
  List.nil_append calls ▸ .tail .refl touch

theorem Touches.trans (first : Touches silent k r s before) (rest : Touches silent k s t after) :
    Touches silent k r t (before ++ after) := by
  induction rest with
  | refl => rwa [List.append_nil]
  | tail _ last ih => exact List.append_assoc .. ▸ .tail ih last

/-- Whoever is told, it is about the activity. -/
theorem Touch.activity?_of_mem (touch : Touch silent k r s calls) {call : Call}
    (made : call ∈ calls) : call.activity? = some k := by
  cases touch <;> simp_all [Call.activity?]
  grind

theorem Touches.activity?_of_mem (touches : Touches silent k r s calls) {call : Call}
    (made : call ∈ calls) : call.activity? = some k := by
  induction touches with
  | refl => contradiction
  | tail _ last ih => exact (List.mem_append.mp made).elim ih last.activity?_of_mem

namespace Visibility
variable {p : VisibilityParams} {v : Verdict}

theorem touches_makeActive (lasts : r.finishing = false) (hosted : r.attached = true) :
    Touches silent k r (Turn.makeActive k r).record (Turn.makeActive k r).calls := by
  unfold Turn.makeActive
  split
  · rename_i sleeps
    simp only [Bool.and_eq_true, beq_iff_eq] at sleeps
    exact (Touch.wake lasts hosted sleeps.1 sleeps.2).touches
  · exact .refl

theorem touches_reveal (heard : p.notifyClients = false → silent = true)
    (lasts : r.finishing = false) (hosted : r.attached = true) :
    Touches silent k r (Turn.reveal p k r).record (Turn.reveal p k r).calls := by
  unfold Turn.reveal
  split
  · exact .refl
  rename_i apart
  simp only [Bool.or_eq_true, decide_eq_true_eq, beq_iff_eq, not_or] at apart
  split
  · exact (Touch.reveal lasts hosted apart.2).touches.trans (touches_makeActive lasts hosted)
  · rename_i mute
    exact (Touch.defer (heard (Bool.eq_false_iff.mpr mute)) lasts hosted apart.2).touches

theorem touches_refresh (lasts : r.finishing = false) (hosted : r.attached = true) :
    Touches silent k r (Turn.refresh p k r).record (Turn.refresh p k r).calls := by
  unfold Turn.refresh
  split
  · have woken : Touches silent k r _ _ := touches_makeActive lasts hosted
    exact List.append_nil (Turn.makeActive k r).calls ▸ woken.tail Touch.hear
  · exact .refl

theorem touches_hide : Touches silent k r (Turn.hide k r).record (Turn.hide k r).calls := by
  unfold Turn.hide
  split
  · dsimp only
    split
    · exact (Touch.hideAndStop ‹_› ‹_›).touches
    · exact (Touch.hide ‹_› (not_or.mp ‹_›)).touches
  · exact .refl

theorem touches_restart {changes : ConfigChanges} {isTop andResume : Bool}
    (lasts : r.finishing = false) (bare : r.attached = false) :
    Touches silent k r (Turn.restart p changes isTop andResume k r).record
      (Turn.restart p changes isTop andResume k r).calls := by
  unfold Turn.restart
  split
  · exact .refl
  split
  · exact (Touch.want lasts bare).touches
  · exact (Touch.restart lasts bare changes andResume).touches

theorem touches_present (heard : p.notifyClients = false → silent = true)
    (lasts : r.finishing = false) :
    Touches silent v.activity r (v.present p r).record (v.present p r).calls := by
  unfold Verdict.present
  cases hosted : r.attached with
  | false => exact touches_restart lasts hosted
  | true =>
    simp only [Bool.not_true, Bool.false_eq_true, if_false]
    split
    · exact touches_refresh lasts hosted
    · exact touches_reveal heard lasts hosted

theorem touches_note : Touches silent v.activity r (v.note r) [] := by
  unfold Verdict.note
  dsimp only
  split
  · exact (Touch.see _).touches
  · unfold ActivityRecord.cancelInitializing
    split
    · exact .tail (Touch.see v.uncovered).touches (.cancel ‹_›)
    · exact (Touch.see _).touches

theorem touches_told (lasts : r.finishing = false) :
    Touches silent v.activity r r (v.told p) := by
  unfold Verdict.told
  split
  · exact (Touch.configure lasts _).touches
  · exact .refl

/-- A visit is made of touches. -/
theorem touches_turn (heard : p.notifyClients = false → silent = true) :
    Touches silent v.activity r (v.turn p r).record (v.turn p r).calls := by
  have kept : (v.note r).still = r.still := Verdict.still_note
  have finishing : (v.note r).finishing = r.finishing := (congrArg ActivityRecord.finishing kept :)
  unfold Verdict.turn
  split
  · split
    · exact touches_note
    · rename_i lasts
      have lasts : (v.note r).finishing = false := by simpa [finishing] using lasts
      exact touches_note.trans ((touches_told lasts).trans (touches_present heard lasts))
  · exact touches_note.trans touches_hide

theorem Verdict.activity?_of_mem_calls {call : Call} (made : call ∈ (v.turn p r).calls) :
    call.activity? = some v.activity := by
  have touches : Touches true v.activity r (v.turn p r).record (v.turn p r).calls :=
    touches_turn fun _ => rfl
  exact touches.activity?_of_mem made

end Visibility
end WindowHost
