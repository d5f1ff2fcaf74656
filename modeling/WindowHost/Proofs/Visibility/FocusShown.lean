import WindowHost.Proofs.Hierarchy.Reachable
import WindowHost.Proofs.Visibility.Resumption

/-! A pass never hides the activity that is to have the focus. Pinned root tasks, root tasks and
fragments that run nothing, and dead activities may lie above it, but they cover nothing. -/
namespace WindowHost.Visibility
open Hierarchy
variable {locked : DisplayId → Bool} {p : VisibilityParams} {w : World} {display x : NodeId}
  {r : ActivityRecord} {v : Verdict}

/-- What is visible by its verdict and goes on is wanted on screen. -/
theorem Verdict.wanted_turn (visible : v.visible = true) (lasts : r.finishing = false)
    (awake : r.state = .resumed → r.visibleRequested = true)
    (begins : p.starting = some v.activity → r.attached = false) :
    (v.turn p r).record.visibleRequested = true := by
  have noted : v.note r = { r with visibleIgnoringKeyguard := true } := by
    simp [Verdict.note, (Bool.and_eq_true_iff.mp visible).1]
  rw [Verdict.turn, if_pos visible, noted, if_neg (by simp [lasts])]
  exact Verdict.wanted_present (r := { r with visibleIgnoringKeyguard := true }) awake begins

/-- The focus is answered for just when it is on an activity that is wanted on screen. -/
theorem resumeFocused_answer (focus : focusOf? w.hierarchy display = some x)
    (held : w.hierarchy.activity? x = some r) :
    (resumeFocused w display).2 = if r.visibleRequested then some x else none := by
  have kept := (activity?_foldl_yieldFocus (not_mem_rivals w.hierarchy display x) w).trans held
  unfold resumeFocused
  dsimp only
  rw [show (w.hierarchy.focusedRootTask? display).bind w.hierarchy.topRunningActivity? = some x
    from focus]
  let yielded := (rivals w.hierarchy display x).foldl yieldFocus w
  change (if yielded.hierarchy.activityHas (·.visibleRequested) x then
    (takeFocus yielded x, some x) else (yielded, none)).2 = _
  rw [activityHas_of_activity? kept]
  split <;> rfl

/-- After a pass over a display, the activity that is to have the focus there is marked as seen,
the keyguard aside. Unless the keyguard holds it back, it is wanted on screen and answers for the
focus next. -/
theorem shown_updateDisplay (formed : w.hierarchy.WellFormed) (locked : DisplayId → Bool)
    (p : VisibilityParams) (shown : (w.hierarchy.display? display).isSome = true)
    (focus : focusOf? w.hierarchy display = some x) :
    let u := (updateDisplay locked p w display).1
    ∃ r s, w.hierarchy.activity? x = some r ∧ u.hierarchy.activity? x = some s ∧
      s.visibleIgnoringKeyguard = true ∧
      (p.starting = none →
        (w.hierarchy.displayId? display).any locked = false ∨ r.info.showWhenLocked = true →
        (r.state = .resumed → r.visibleRequested = true) →
          s.visibleRequested = true ∧ (resumeFocused u display).2 = some x) := by
  intro u
  have forest := formed.forest
  obtain ⟨r, held, runs⟩ := isRunning_of_focusOf? focus
  obtain ⟨v, member, shows⟩ := exists_displayVerdict_of_focus (p := p) forest locked shown focus
  obtain rfl := shows.activity
  have passed : u.hierarchy.activity? v.activity = some (v.turn p r).record := by
    rw [show u = carryOut p w (displayVerdicts locked p w.hierarchy display) from
      updateDisplay_world (.refl _) display]
    exact activity?_carryOut (nodup_displayVerdicts forest display) member held
  have focused : focusOf? u.hierarchy display = some v.activity :=
    (focusOf?_congr (sameView_updateDisplay locked p w display) display).trans focus
  refine ⟨r, _, held, passed, Verdict.seen_turn.trans shows.uncovered, ?_⟩
  intro calm opened awake
  have visible : v.visible = true := by
    rw [Verdict.visible, shows.uncovered, shows.admitted r held]
    rcases opened with unlocked | above
    · simp [unlocked]
    · simp [above]
  have lasts : r.finishing = false := by
    simp only [ActivityRecord.isRunning, Bool.and_eq_true, Bool.not_eq_true'] at runs
    exact runs.1
  have wanted : (v.turn p r).record.visibleRequested = true :=
    Verdict.wanted_turn visible lasts awake (by simp [calm])
  refine ⟨wanted, ?_⟩
  rw [resumeFocused_answer focused passed, if_pos wanted]

/-- A pinned task, an empty task and a fragment with a dead activity lie above an alarm that shows
over the keyguard: the pass wants the alarm on screen, and it has the focus next. -/
theorem shown_updateDisplay_of_alarm :
    let record (name : String) : ActivityRecord :=
      { ActivityRecord.create
          { component := ⟨"clock", name⟩, uid := ⟨10010⟩, showWhenLocked := true } {} with
        state := .stopped, attached := true }
    let calls : List Mutation :=
      [.addDisplay ⟨0⟩ ⟨0, 0, 1920, 1080⟩, .createRootTask ⟨2⟩ .fullscreen .standard .top,
        .addActivity ⟨3⟩ (record "Alarm") .top, .createFragment ⟨3⟩ none .top,
        .addActivity ⟨5⟩ { record "Gone" with state := .destroyed } .top,
        .createRootTask ⟨2⟩ .fullscreen .standard .top, .createRootTask ⟨2⟩ .pinned .standard .top,
        .addActivity ⟨8⟩ (record "Timer") .top]
    let before := afterCalls calls
    let u := (updateDisplay (fun _ => true) {} { hierarchy := before } ⟨1⟩).1
    before.rootTasks ⟨1⟩ = [⟨8⟩, ⟨7⟩, ⟨3⟩] ∧ focusOf? before ⟨1⟩ = some ⟨4⟩ ∧
      ∃ s, u.hierarchy.activity? ⟨4⟩ = some s ∧ s.visibleIgnoringKeyguard = true ∧
        s.visibleRequested = true ∧ (resumeFocused u ⟨1⟩).2 = some ⟨4⟩ := by
  intro record calls before u
  have formed : before.WellFormed := wellFormed_afterCalls calls
  have tasks : before.rootTasks ⟨1⟩ = [⟨8⟩, ⟨7⟩, ⟨3⟩] := by decide +kernel
  have display : (before.display? ⟨1⟩).isSome = true := by decide +kernel
  have focus : focusOf? before ⟨1⟩ = some ⟨4⟩ := by decide +kernel
  have alarm : before.activity? ⟨4⟩ = some (record "Alarm") := by decide +kernel
  clear_value before
  obtain ⟨r, s, held, passed, seen, next⟩ := shown_updateDisplay (w := { hierarchy := before })
    formed (fun _ => true) {} display focus
  obtain rfl : record "Alarm" = r := Option.some.inj (alarm.symm.trans held)
  obtain ⟨wanted, answers⟩ := next rfl (.inr rfl) (by decide)
  exact ⟨tasks, focus, s, passed, seen, wanted, answers⟩

end WindowHost.Visibility
