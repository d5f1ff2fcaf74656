import WindowHost.Proofs.Run.Acts
import WindowHost.Proofs.Run.Follow

/-! A finishing activity is never brought back. Nothing that a host does to it, passes of any kind
included, wakes or shows it, and no start ends at it. -/
namespace WindowHost
open Hierarchy
variable {silent : Bool} {w w' : World} {k : NodeId} {r s : ActivityRecord} {calls : List Call}

/-- An activity that is on its way to the screen or there. -/
def ActivityState.Awake (state : ActivityState) : Prop := state = .resumed ∨ state = .paused

/-- A finishing activity has only come further on its way out. -/
structure Fading (r s : ActivityRecord) : Prop where
  ends : s.finishing = true
  unseen : s.visibleRequested = true → r.visibleRequested = true
  asleep : s.state.Awake → r.state.Awake

/-- The call asks for nothing but what takes the activity off the screen. -/
def Call.Dismisses (k : NodeId) : Call → Prop
  | .startProcess j _ _ => j ≠ k
  | .transaction j t => j = k → t = .visibility false ∨ t = .pause ∨ t = .stop
  | _ => True

theorem Fading.trans {t : ActivityRecord} (first : Fading r s) (second : Fading s t) :
    Fading r t where
  ends := second.ends
  unseen := first.unseen ∘ second.unseen
  asleep := first.asleep ∘ second.asleep

theorem Touch.fading (touch : Touch silent k r s calls) (ends : r.finishing = true) :
    Fading r s ∧ ∀ call ∈ calls, call.Dismisses k := by
  have done : ¬ r.isRunning = true := by simp [ActivityRecord.isRunning, ends]
  have left : ¬ r.finishing = false := by simp [ends]
  cases touch with
  | see | hear => exact ⟨⟨ends, id, id⟩, by simp⟩
  | cancel => exact ⟨⟨ends, id, by simp [ActivityState.Awake]⟩, by simp⟩
  | hide => exact ⟨⟨ends, by simp, id⟩, by simp [Call.Dismisses]⟩
  | hideAndStop => exact ⟨⟨ends, by simp, by simp [ActivityState.Awake]⟩, by simp [Call.Dismisses]⟩
  | pause resumed => exact ⟨⟨ends, id, fun _ => .inl resumed⟩, by simp [Call.Dismisses]⟩
  | stop => exact ⟨⟨ends, id, by simp [ActivityState.Awake]⟩, by simp [Call.Dismisses]⟩
  | configure lasts | want lasts | restart lasts | wake lasts | reveal lasts | defer _ lasts =>
    exact absurd lasts left
  | resume runs | start runs | deliver runs | mark runs => exact absurd runs done

theorem Call.dismisses_of_not_reaches {call : Call} (aside : ¬ call.Reaches k) :
    call.Dismisses k := by
  cases call <;> simp_all [Reaches, reachesClient, activity?, Dismisses]

/-- Since the record was finishing, the activity has faded, or it is gone. -/
structure Dismissed (k : NodeId) (r : ActivityRecord) (a : Option ActivityRecord)
    (later : List Call) : Prop where
  calls : ∀ call ∈ later, call.Dismisses k
  fading : ∀ s, a = some s → Fading r s

theorem follows_dismissed (silent : Bool) (k : NodeId) (r : ActivityRecord) :
    Follows silent k (Dismissed k r) where
  touch s t calls later touch dismissed := by
    have faded := dismissed.fading s rfl
    obtain ⟨further, quiet⟩ := touch.fading faded.ends
    refine ⟨List.forall_mem_append.mpr ⟨dismissed.calls, quiet⟩, ?_⟩
    rintro _ ⟨⟩
    exact faded.trans further
  aside a calls later aside dismissed :=
    ⟨List.forall_mem_append.mpr ⟨dismissed.calls,
      fun call member => Call.dismisses_of_not_reaches (aside call member)⟩, dismissed.fading⟩
  gone a later dismissed := by
    refine ⟨dismissed.calls, ?_⟩
    intro s held
    contradiction

/-- Over any run, a finishing activity stays finishing, is not shown and not woken, its process is
not asked for, and its client hears only of what takes it off the screen. A start ends at no
finishing activity. -/
theorem finishing_afterActs (reached : Reachable w.hierarchy) (acts : List Act) :
    (∀ k r, w.hierarchy.activity? k = some r → r.finishing = true →
      ∃ later, (w.afterActs acts).calls = w.calls ++ later ∧
        (∀ andResume check, .startProcess k andResume check ∉ later) ∧
        (∀ t, .transaction k t ∈ later → t = .visibility false ∨ t = .pause ∨ t = .stop) ∧
        ∀ s, (w.afterActs acts).hierarchy.activity? k = some s → s.finishing = true ∧
          (s.visibleRequested = true → r.visibleRequested = true) ∧
          (s.state = .resumed ∨ s.state = .paused → r.state = .resumed ∨ r.state = .paused)) ∧
      ∀ host request starter w' outcome, Start.execute host { request := request }
        (w.afterActs acts) = (starter, w', outcome) → ∀ k, starter.outActivity = some k →
          ∃ s, w'.hierarchy.activity? k = some s ∧ s.finishing = false := by
  have steps : Steps true w (w.afterActs acts) := steps_afterActs acts (fun _ _ _ => rfl) w
  constructor
  · intro k r held ends
    have dismissed : Dismissed k r (w.hierarchy.activity? k) [] := by
      refine ⟨by simp, fun s found => ?_⟩
      rw [held, Option.some.injEq] at found
      rw [← found]
      exact ⟨ends, id, id⟩
    obtain ⟨later, made, calls, fading⟩ :=
      (follows_dismissed true k r).steps steps (contains_of_activity? held) dismissed
    refine ⟨later, made, fun _ _ asked => calls _ asked rfl, fun t sent => calls _ sent rfl,
      fun s found => ?_⟩
    have faded := fading s found
    exact ⟨faded.ends, faded.unseen, faded.asleep⟩
  · intro host request starter w' outcome ran k ended
    obtain ⟨s, held, runs⟩ :=
      Start.exists_running_of_execute (steps.reached reached) ran ended
    exact ⟨s, held, by simp_all [ActivityRecord.isRunning]⟩

/-- A finishing activity loses the focus to the one below it, and a start of its component ends at a
new instance. -/
theorem finishing_afterActs_of_draft :
    let info (name : String) : ActivityInfo := { component := ⟨"mail", name⟩, uid := ⟨10010⟩ }
    let lower :=
      { ActivityRecord.create (info "Inbox") {} with state := .stopped, attached := true }
    let upper := { ActivityRecord.create (info "Draft") {} with
      state := .resumed, visibleRequested := true, attached := true, finishing := true }
    let h := (((empty.mutate (.addDisplay ⟨0⟩ ⟨0, 0, 1920, 1080⟩)).mutate
      (.createRootTask ⟨2⟩ .fullscreen .standard .top)).mutate
      (.addActivity ⟨3⟩ lower .top)).mutate (.addActivity ⟨3⟩ upper .top)
    let request : StartRequest :=
      { intent := .ofComponent (info "Draft").component, info := some (info "Draft") }
    let acts := [Act.updateDisplay (fun _ => false) {} ⟨1⟩, .resumeFocused ⟨1⟩]
    let ended := World.afterActs { hierarchy := h } acts
    let started := Start.execute { environment := fun _ => {} } { request := request } ended
    (∃ s, ended.hierarchy.activity? ⟨5⟩ = some s ∧ s.state = .paused ∧ s.finishing = true) ∧
      started.1.outActivity = some ⟨7⟩ ∧
      ∃ s, started.2.1.hierarchy.activity? ⟨7⟩ = some s ∧ s.finishing = false := by
  intro info lower upper h request acts ended started
  have reached : Reachable h := (((Reachable.empty.call _).call _).call _).call _
  obtain ⟨faded, running⟩ := finishing_afterActs (w := { hierarchy := h }) reached acts
  obtain ⟨_, _, _, _, known⟩ := faded ⟨5⟩ upper (by decide +kernel) rfl
  have paused : ended.hierarchy.activity? ⟨5⟩ = some { upper with state := .paused } := by
    decide +kernel
  have out : started.1.outActivity = some ⟨7⟩ := by decide +kernel
  exact ⟨⟨_, paused, rfl, (known _ paused).1⟩, out,
    running _ request started.1 started.2.1 started.2.2 rfl ⟨7⟩ out⟩

end WindowHost
