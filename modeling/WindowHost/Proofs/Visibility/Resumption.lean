import WindowHost.Proofs.Visibility.Settled
import WindowHost.Proofs.Visibility.Top

/-! What becomes of the activity with the focus. The pass sets it on its way to the screen, and with
the focus it gets there: it is resumed, or its process is asked for. -/
namespace WindowHost.Visibility
open Hierarchy
variable {locked : DisplayId → Bool} {p : VisibilityParams} {display k x : NodeId}
  {r : ActivityRecord}

theorem Turn.wanted_restart {changes : ConfigChanges} {isTop andResume : Bool} :
    (Turn.restart p changes isTop andResume k r).record.visibleRequested = true := by
  unfold Turn.restart
  split
  · rename_i stays
    simp only [Bool.and_eq_true] at stays
    exact stays.1.2
  split <;> rfl

theorem Turn.wanted_reveal (sleeps : r.state ≠ .resumed) (apart : p.starting ≠ some k) :
    (Turn.reveal p k r).record.visibleRequested = true := by
  rw [Turn.reveal, if_neg (by simp [apart, sleeps])]
  split
  · exact Turn.visibleRequested_makeActive
  · rfl

/-- What is presented is wanted on screen, unless it is shown by other means. -/
theorem Verdict.wanted_present {v : Verdict}
    (awake : r.state = .resumed → r.visibleRequested = true)
    (begins : p.starting = some v.activity → r.attached = false) :
    (v.present p r).record.visibleRequested = true := by
  unfold Verdict.present
  split
  · exact Turn.wanted_restart
  rename_i hosted
  split
  · rename_i wanted
    rw [Turn.visibleRequested_refresh, wanted]
  · rename_i unwanted
    refine Turn.wanted_reveal (fun resumed => unwanted (awake resumed)) fun starts => ?_
    simp [begins starts] at hosted

/-- The activity is on its way to the screen: it is wanted there, and its process is there or has
been asked for. -/
structure Entering (k : NodeId) (r s : ActivityRecord) (calls : List Call) : Prop where
  wanted : s.visibleRequested = true
  attached : s.attached = r.attached
  process : r.attached = false →
    s.restarting = false ∨ s.restarting = true ∧ ∃ andResume, .startProcess k andResume true ∈ calls

theorem Turn.process_restart {changes : ConfigChanges} {andResume : Bool}
    (idle : p.starting = some k → r.restarting = false) :
    let t := Turn.restart p changes true andResume k r
    t.record.restarting = false ∨
      t.record.restarting = true ∧ .startProcess k andResume true ∈ t.calls := by
  unfold Turn.restart
  rw [if_neg (by simp)]
  split
  · exact .inl (idle ‹_›)
  · exact .inr ⟨rfl, List.mem_singleton_self _⟩

theorem Verdict.entering_present {v : Verdict} (top : v.isTop = true)
    (awake : r.state = .resumed → r.visibleRequested = true)
    (begins : p.starting = some v.activity → r.attached = false ∧ r.restarting = false) :
    Entering v.activity r (v.present p r).record (v.present p r).calls := by
  have kept : base (v.present p r).record = base r := Verdict.base_present
  have attached := congrArg ActivityRecord.attached kept
  refine ⟨Verdict.wanted_present awake fun starts => (begins starts).1, attached, fun bare => ?_⟩
  have restarts : v.present p r = Turn.restart p v.changes true v.resumes v.activity r := by
    simp [Verdict.present, bare, top]
  rw [restarts]
  obtain idle | ⟨asks, asked⟩ :=
    Turn.process_restart (k := v.activity) fun starts => (begins starts).2
  · exact .inl idle
  · exact .inr ⟨asks, _, asked⟩

theorem Verdict.entering_turn {v : Verdict} (visible : v.visible = true) (top : v.isTop = true)
    (lasts : r.finishing = false) (awake : r.state = .resumed → r.visibleRequested = true)
    (begins : p.starting = some v.activity → r.attached = false ∧ r.restarting = false) :
    Entering v.activity r (v.turn p r).record (v.turn p r).calls := by
  have noted : v.note r = { r with visibleIgnoringKeyguard := true } := by
    simp [Verdict.note, (Bool.and_eq_true_iff.mp visible).1]
  rw [Verdict.turn, if_pos visible, noted, if_neg (by simp [lasts])]
  obtain ⟨wanted, attached, process⟩ := entering_present (v := v) (p := p)
    (r := { r with visibleIgnoringKeyguard := true }) top awake begins
  refine ⟨wanted, attached, fun bare => (process bare).imp id ?_⟩
  rintro ⟨restarts, andResume, asked⟩
  exact ⟨restarts, andResume, List.mem_append_right _ asked⟩

/-- The activity is on screen and resumed, or its process is on its way. -/
structure Focused (k : NodeId) (r s : ActivityRecord) (calls : List Call) : Prop where
  wanted : s.visibleRequested = true
  resumed : r.attached = true → s.state = .resumed
  process : r.attached = false →
    s.restarting = true ∧ ∃ andResume, .startProcess k andResume true ∈ calls

theorem Focused.mono {s : ActivityRecord} {calls later : List Call} (focused : Focused k r s calls)
    (more : calls ⊆ later) : Focused k r s later where
  wanted := focused.wanted
  resumed := focused.resumed
  process bare := by
    obtain ⟨restarts, andResume, asked⟩ := focused.process bare
    exact ⟨restarts, andResume, more asked⟩

/-- An activity on its way to the screen gets there with the focus. -/
theorem Entering.takeFocus {s : ActivityRecord} {calls : List Call}
    (entering : Entering k r s calls) :
    Focused k r (Turn.takeFocus k s).record (calls ++ (Turn.takeFocus k s).calls) := by
  obtain ⟨wanted, attached, process⟩ := entering
  unfold Turn.takeFocus
  rw [attached]
  cases hosted : r.attached with
  | true =>
    by_cases resumed : s.state = .resumed
    · rw [if_pos rfl, if_pos resumed]
      exact ⟨wanted, fun _ => resumed, fun bare => by simp [hosted] at bare⟩
    · rw [if_pos rfl, if_neg resumed]
      exact ⟨wanted, fun _ => rfl, fun bare => by simp [hosted] at bare⟩
  | false =>
    rcases process hosted with idle | ⟨restarts, andResume, asked⟩
    · rw [if_neg (by simp), if_neg (by simp [idle])]
      exact ⟨wanted, fun h => by simp [hosted] at h, fun _ => ⟨rfl, true, by simp⟩⟩
    · rw [if_neg (by simp), if_pos restarts]
      exact ⟨wanted, fun h => by simp [hosted] at h,
        fun _ => ⟨restarts, andResume, List.mem_append_left _ asked⟩⟩

/-- Whoever is to have the focus of a display is seen after a pass, and has the focus unless the
keyguard holds it back. -/
theorem exists_focused (locked : DisplayId → Bool) (p : VisibilityParams) {w : World}
    (forest : Forest w.hierarchy)
    (shown : (w.hierarchy.display? display).isSome = true)
    (focus : focusOf? w.hierarchy display = some x) (held : w.hierarchy.activity? x = some r)
    (awake : r.state = .resumed → r.visibleRequested = true)
    (begins : p.starting = some x → r.attached = false ∧ r.restarting = false) :
    let w' := (resumeFocused (updateDisplay locked p w display).1 display).1
    ∃ s later, w'.hierarchy.activity? x = some s ∧ w'.calls = w.calls ++ later ∧
      s.still = r.still ∧ s.visibleIgnoringKeyguard = true ∧
      ((!(w.hierarchy.displayId? display).any locked || r.info.showWhenLocked) = true →
        Focused x r s later) := by
  obtain ⟨v, member, shows⟩ := exists_displayVerdict_of_focus (p := p) forest locked shown focus
  obtain rfl := shows.activity
  have nodup : ((displayVerdicts locked p w.hierarchy display).map Verdict.activity).Nodup :=
    nodup_displayVerdicts forest display
  obtain ⟨first, made, asked⟩ := exists_calls_carryOut (p := p) nodup member held
  have lasts : r.finishing = false := by
    obtain ⟨r', held', runs⟩ := isRunning_of_focusOf? focus
    rw [held, Option.some.injEq] at held'
    simp_all [ActivityRecord.isRunning]
  have passed := activity?_carryOut (p := p) nodup member held
  rw [← updateDisplay_world (.refl _) display] at made passed
  have same := sameView_updateDisplay locked p w display
  rw [← focusOf?_congr same] at focus
  generalize (updateDisplay locked p w display).1 = u at *
  have entering (admitted : (!(w.hierarchy.displayId? display).any locked ||
      r.info.showWhenLocked) = true) :
      Entering v.activity r (v.turn p r).record (v.turn p r).calls := by
    refine Verdict.entering_turn ?_ shows.isTop lasts awake begins
    rw [Verdict.visible, shows.uncovered, shows.admitted r held, admitted]
    rfl
  obtain ⟨second, yielded⟩ :=
    calls_foldl_yieldFocus (rivals u.hierarchy display v.activity) u
  have kept := (activity?_foldl_yieldFocus
    (not_mem_rivals u.hierarchy display v.activity) u).trans passed
  rw [resumeFocused_of_some focus passed]
  split
  · rename_i wanted
    have runs : (v.turn p r).record.isRunning = true := by
      obtain ⟨r', held', runs⟩ := isRunning_of_focusOf? focus
      rw [passed, Option.some.injEq] at held'
      rwa [held']
    let t := Turn.takeFocus v.activity (v.turn p r).record
    have kept' : t.record.unfocused = (v.turn p r).record.unfocused := Turn.unfocused_takeFocus
    have seen : t.record.visibleIgnoringKeyguard =
        (v.turn p r).record.visibleIgnoringKeyguard :=
      (congrArg ActivityRecord.visibleIgnoringKeyguard kept' :)
    refine ⟨t.record, first ++ (second ++ t.calls), World.activity?_put kept .., ?_, ?_, ?_,
      fun admitted => ?_⟩
    · rw [World.put, ← yielded, made, List.append_assoc, List.append_assoc]
    · exact (Turn.still_takeFocus runs).trans Verdict.still_turn
    · rw [seen, Verdict.seen_turn, shows.uncovered]
    · refine (entering admitted).takeFocus.mono fun call member => ?_
      rcases List.mem_append.mp member with early | late
      · exact List.mem_append_left _ (asked early)
      · exact List.mem_append_right _ (List.mem_append_right _ late)
  · rename_i unwanted
    refine ⟨(v.turn p r).record, first ++ second, kept, ?_, Verdict.still_turn, ?_,
      fun admitted => ?_⟩
    · rw [← yielded, made, List.append_assoc]
    · rw [Verdict.seen_turn, shows.uncovered]
    · exact absurd (entering admitted).wanted unwanted

end WindowHost.Visibility
