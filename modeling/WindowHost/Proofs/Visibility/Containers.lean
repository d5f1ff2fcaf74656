import WindowHost.Proofs.Visibility.Focus
import WindowHost.Proofs.Visibility.Meeting

/-! Nothing is wanted on screen inside a container that is not to be seen. A visit asks about the
container that it is in and no further, but a container is to be seen only where all that enclose
it are. -/
namespace WindowHost.Hierarchy
variable {h : Hierarchy} {starting : Option NodeId} {a k p : NodeId}

theorem Forest.shouldBeVisible_parent (forest : Forest h) (placed : h.parent? k = some p)
    (plain : h.area? p = none) (seen : h.shouldBeVisible k starting = true) :
    h.shouldBeVisible p starting = true := by
  rw [shouldBeVisible, Bool.and_eq_true, Bool.or_eq_true] at seen ⊢
  obtain ⟨shows, uncovered⟩ := seen
  have within {x : NodeId} (inside : Inside h x k) : Inside h x p := inside.trans (.child placed)
  constructor
  · rcases shows with runs | starts
    · obtain ⟨x, place, running⟩ := forest.hasRunningActivity_iff.mp runs
      refine .inl (forest.hasRunningActivity_iff.mpr ⟨x, .inr ?_, running⟩)
      rcases place with rfl | inside
      · exact .child placed
      · exact within inside
    · cases starting with
      | none => contradiction
      | some x =>
        have inside := forest.isDescendantOf_iff.mp starts
        exact .inr (forest.isDescendantOf_iff.mpr (within inside))
  · rw [forest.ancestors_of_parent placed, isUncovered, if_neg (by simp [plain]),
      Bool.and_eq_true] at uncovered
    exact uncovered.2

/-- What encloses a container that is to be seen is to be seen, up to the root task. -/
theorem Forest.shouldBeVisible_of_inside (forest : Forest h) (inside : Inside h k a)
    (container : h.isFragmentLike a = true) (seen : h.shouldBeVisible k starting = true) :
    h.shouldBeVisible a starting = true := by
  induction inside with
  | child placed =>
    exact forest.shouldBeVisible_parent placed (area?_of_isFragmentLike container) seen
  | deeper placed further ih =>
    exact ih container (forest.shouldBeVisible_parent placed
      (forest.area?_of_inside further container) seen)

end WindowHost.Hierarchy

namespace WindowHost.Visibility
open Hierarchy
variable {locked : DisplayId → Bool} {p : VisibilityParams} {h : Hierarchy} {display : NodeId}
  {v : Verdict} {L : Layers} {r : ActivityRecord}

/-- Every verdict is one of the walk over the container of its activity. -/
theorem exists_judge_of_mem_survey (forest : Forest h) (L : Layers) : ∀ (C : NodeId) (s : Walk),
    Shows h C L → s.world.hierarchy = h →
      ∀ v ∈ (survey locked (Container.look locked p h C) s L).2, ∃ D t r,
        h.parent? v.activity = some D ∧ h.activity? v.activity = some r ∧
          v = Walk.judge (Container.look locked p h D) t v.activity r := by
  induction L with
  | nil =>
    intro C s _ _ v member
    contradiction
  | node k inside below inner rest =>
    intro C s shows world v member
    obtain ⟨next, here, meets⟩ := exists_meets locked (Container.look locked p h C) s k inside
    have same := meets.world
    rw [meets.survey_eq] at member
    rcases List.mem_append.mp member with near | later
    · subst world
      cases meets with
      | enter container _ looks walks =>
        rw [walks, looks] at near
        exact inner k ((Container.look locked p s.world.hierarchy k).begin s.world s.occluded)
          (shows.deeper forest container) rfl v near
      | @visit r held _ =>
        obtain rfl := List.mem_singleton.mp near
        exact ⟨C, s, r, (forest.child (shows.children k List.mem_cons_self)).2, held, rfl⟩
      | skip _ _ => contradiction
    · exact rest C next shows.lower (same ▸ world) v later

theorem exists_judge_of_mem_verdicts (forest : Forest h) {a : NodeId}
    (member : v ∈ verdicts locked p h a) : ∃ D t r, h.parent? v.activity = some D ∧
      h.activity? v.activity = some r ∧
        v = Walk.judge (Container.look locked p h D) t v.activity r := by
  unfold verdicts at member
  split at member
  · exact exists_judge_of_mem_survey forest _ a _ (shows_contents forest ‹_›) rfl v member
  · contradiction

/-- The verdict lets its activity onto the screen only where its container is to be seen. -/
def Verdict.Housed (p : VisibilityParams) (h : Hierarchy) (v : Verdict) : Prop :=
  ∃ C, h.parent? v.activity = some C ∧
    (v.admitted = true → h.shouldBeVisible C p.starting = true)

theorem housed_of_mem_displayVerdicts (forest : Forest h)
    (member : v ∈ displayVerdicts locked p h display) : v.Housed p h := by
  obtain ⟨root, listed, found⟩ := List.mem_flatMap.mp member
  obtain ⟨C, s, r, placed, _, same⟩ := exists_judge_of_mem_verdicts forest found
  refine ⟨C, placed, fun admitted => ?_⟩
  rw [same] at admitted
  exact ((Bool.and_eq_true ..).mp admitted).1

/-- A pass over a display passes over nothing on it that runs. -/
theorem exists_displayVerdict_of_running (forest : Forest h) (locked : DisplayId → Bool)
    (p : VisibilityParams) {k : NodeId} (placed : h.displayOf? k = some display)
    (held : h.activity? k = some r) (running : r.isRunning = true) :
    ∃ v ∈ displayVerdicts locked p h display, v.activity = k := by
  obtain ⟨root, listed, inside⟩ := forest.exists_rootTask_of_activity placed held
  have container := isFragmentLike_of_isTask (mem_rootTasks.mp listed).1
  have runs : h.activityHas ActivityRecord.isRunning k = true :=
    (activityHas_of_activity? held _).trans running
  obtain ⟨v, met, same⟩ := exists_verdict_of_running forest (h.contents root) root
    (Container.look locked p h root) _ (shows_contents forest container)
    (seeks_begin locked container { hierarchy := h } false) rfl k
    (forest.mem_ids_contents.mpr inside) runs
  refine ⟨v, List.mem_flatMap.mpr ⟨root, listed, ?_⟩, same⟩
  rw [verdicts, if_pos container]
  exact met

/-- Whatever a verdict does not let onto the screen is not wanted there any more. -/
theorem Verdict.visible_of_wanted_turn (wanted : (v.turn p r).record.visibleRequested = true) :
    v.visible = true := by
  cases visible : v.visible with
  | true => rfl
  | false =>
    rw [Verdict.turn, if_neg (by simp [visible]), Turn.visibleRequested_hide] at wanted
    contradiction

/-- After a pass, all tasks and task fragments around a running activity that is wanted on screen
are to be seen. -/
theorem containers_updateDisplay {w : World} (formed : w.hierarchy.WellFormed)
    (locked : DisplayId → Bool) (p : VisibilityParams) (display : NodeId) :
    let h := (updateDisplay locked p w display).1.hierarchy
    ∀ k r, h.displayOf? k = some display → h.activity? k = some r → r.isRunning = true →
      r.visibleRequested = true → ∀ C ∈ h.ancestors k, h.isFragmentLike C = true →
        h.shouldBeVisible C p.starting = true := by
  intro h k r placed held running wanted C above container
  have forest := formed.forest
  have same : SameView w.hierarchy h := sameView_updateDisplay locked p w display
  obtain ⟨r₀, before, still⟩ := same.symm.exists_activity? held
  have ran : r₀.isRunning = true :=
    (ActivityRecord.isRunning_eq_of_still still).trans running
  rw [same.displayOf?] at placed
  rw [same.ancestors, forest.mem_ancestors] at above
  rw [same.isFragmentLike] at container
  rw [same.shouldBeVisible]
  obtain ⟨v, member, rfl⟩ := exists_displayVerdict_of_running forest locked p placed before ran
  have ended : h.activity? v.activity = some (v.turn p r₀).record := by
    rw [show h = (carryOut p w (displayVerdicts locked p w.hierarchy display)).hierarchy from
      congrArg World.hierarchy (updateDisplay_world (.refl _) display)]
    exact activity?_carryOut (nodup_displayVerdicts forest display) member before
  rw [held, Option.some.injEq] at ended
  have visible : v.visible = true := Verdict.visible_of_wanted_turn (ended ▸ wanted)
  obtain ⟨D, direct, admits⟩ := housed_of_mem_displayVerdicts forest member
  have seen := admits ((Bool.and_eq_true ..).mp visible).2
  rcases (inside_iff_of_parent direct).mp above with rfl | further
  · exact seen
  · exact forest.shouldBeVisible_of_inside further container seen

/-- The inbox in the left half of its task is shown, and so are the half and the task. The list in
the task below was wanted on screen, and is not any more: nothing around it is to be seen. -/
theorem containers_updateDisplay_of_half :
    let record (wanted : Bool) : ActivityRecord :=
      { ActivityRecord.create { component := ⟨"mail", "Inbox"⟩, uid := ⟨10010⟩ } {} with
        state := .stopped, visibleRequested := wanted, attached := true }
    let calls : List Mutation :=
      [.addDisplay ⟨0⟩ ⟨0, 0, 1920, 1080⟩, .createRootTask ⟨2⟩ .fullscreen .standard .top,
        .createFragment ⟨3⟩ none .top, .addActivity ⟨4⟩ (record true) .top,
        .createRootTask ⟨2⟩ .fullscreen .standard .top,
        .createFragment ⟨6⟩ (some ⟨0, 0, 960, 1080⟩) .top, .addActivity ⟨7⟩ (record false) .top]
    let before := afterCalls calls
    let h := (updateDisplay (fun _ => false) {} { hierarchy := before } ⟨1⟩).1.hierarchy
    before.activityHas (·.visibleRequested) ⟨5⟩ = true ∧
      h.activityHas (·.visibleRequested) ⟨5⟩ = false ∧
      [⟨3⟩, ⟨4⟩].map (h.shouldBeVisible · none) = [false, false] ∧
      h.activityHas (·.visibleRequested) ⟨8⟩ = true ∧ h.ancestors ⟨8⟩ = [⟨7⟩, ⟨6⟩, ⟨2⟩, ⟨1⟩] ∧
      ∀ C ∈ h.ancestors ⟨8⟩, h.isFragmentLike C = true → h.shouldBeVisible C none = true := by
  intro record calls before h
  have formed : before.WellFormed := wellFormed_afterCalls calls
  have placed : h.displayOf? ⟨8⟩ = some ⟨1⟩ := by decide +kernel
  have held : h.activity? ⟨8⟩ = some { record true with
      state := .paused, visibleIgnoringKeyguard := true } := by decide +kernel
  refine ⟨by decide +kernel, by decide +kernel, by decide +kernel, by decide +kernel,
    by decide +kernel, ?_⟩
  clear_value before
  exact containers_updateDisplay (w := { hierarchy := before }) formed (fun _ => false) {} ⟨1⟩ ⟨8⟩
    _ placed held rfl rfl

end WindowHost.Visibility
