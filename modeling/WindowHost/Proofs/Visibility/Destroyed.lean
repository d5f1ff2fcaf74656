import WindowHost.Proofs.Run.Touch
import WindowHost.Proofs.Visibility.Containers

/-! Activities that were torn down. A pass neither shows such an activity again nor lets it hide
what lies behind it, with one exception: where the pass comes to the activity while nothing hides
it, it treats it like one that runs. It then counts as covering what follows, and it is shown if its
container is to be seen and the keyguard allows it. For the rest it does not matter whether the
activity is translucent, as two passes show that differ in nothing else. -/
namespace WindowHost

/-- The activity lets through what lies behind it if it did not, and the other way round. -/
def ActivityRecord.flipTranslucent (r : ActivityRecord) : ActivityRecord :=
  { r with info.translucent := !r.info.translucent }

namespace Visibility
open Hierarchy
variable {locked : DisplayId → Bool} {p : VisibilityParams} {h : Hierarchy} {c : Container}
  {s next : Walk} {here : List Verdict} {w : World} {v : Verdict} {k x display : NodeId}
  {inside : Layers} {r : ActivityRecord} {counts : NodeId → Bool}

theorem pass_world (same : SameSight counts s.world.hierarchy w.hierarchy) :
    Walk.pass c { s with world := w } k r = { s.pass c k r with world := w } :=
  pass_of_closeHome rfl rfl fun _ kept => closeHome_world (kept ▸ same)

/-- Those of the activities that were found uncovered hide what lies behind them in both hierarchies
or in none. -/
def HideAlike (h h' : Hierarchy) (vs : List Verdict) : Prop :=
  ∀ v ∈ vs, v.uncovered = true →
    h'.activityHas ActivityRecord.occludesParent v.activity =
      h.activityHas ActivityRecord.occludesParent v.activity

/-- A walk makes the same of a child in a hierarchy that looks the same, if it does of what lies in
the child. -/
theorem Meets.congr (meets : Meets locked c s k inside next here)
    (same : SameSight counts s.world.hierarchy w.hierarchy)
    (counted : ∀ j, c.params.starting = some j → counts j = true)
    (alike : HideAlike s.world.hierarchy w.hierarchy here)
    (deeper : ∀ (nested : Container) (t : Walk), nested.params = c.params → t.world = s.world →
      HideAlike s.world.hierarchy w.hierarchy (survey locked nested t inside).2 →
        survey locked nested { t with world := w } inside =
          ({ (survey locked nested t inside).1 with world := w },
            (survey locked nested t inside).2)) :
    Meets locked c { s with world := w } k inside { next with world := w } here := by
  cases meets with
  | @enter nested first container runs looks walks =>
    have kept : first.1.world = s.world := walks ▸ world_survey ..
    have found : survey locked nested (nested.begin w s.occluded) inside =
        ({ first.1 with world := w }, first.2) := by
      rw [walks] at alike ⊢
      exact deeper nested (nested.begin s.world s.occluded) (looks ▸ rfl) rfl alike
    have after : SameSight counts first.1.world.hierarchy w.hierarchy := by
      rw [kept]
      exact same
    have left : Walk.leave c { s with world := w } k { first.1 with world := w } =
        { s.leave c k first.1 with world := w } := leave_world after counted
    have entered := Meets.enter (c := c) (s := { s with world := w })
      ((congrFun same.isFragmentLike k).trans container)
      ((same.hasRunningActivity k).trans runs)
      (looks.trans (same.look counted locked k).symm) found.symm
    dsimp only at entered
    rwa [left] at entered
  | @visit r held met =>
    obtain ⟨r', held', agrees⟩ := same.exists_sight held
    have covers : (s.judge c k r).uncovered = true → r'.occludesParent = r.occludesParent := by
      have hides := List.forall_mem_singleton.mp alike
      rwa [show (s.judge c k r).activity = k from rfl, activityHas_of_activity? held,
        activityHas_of_activity? held'] at hides
    have passed : Walk.pass c { s with world := w } k r' = { s.pass c k r with world := w } :=
      (pass_world same).trans
        (congrArg (fun t : Walk => { t with world := w }) (pass_congr agrees covers))
    have judged : Walk.judge c { s with world := w } k r' = s.judge c k r := judge_congr agrees
    rw [← passed, ← judged]
    exact .visit held' met
  | skip idle early =>
    refine .skip (fun container => ?_) fun r' held' => ?_
    · exact (same.hasRunningActivity k).trans (idle (same.isFragmentLike ▸ container))
    · obtain ⟨r, held, _⟩ := same.symm.exists_sight held'
      exact early r held

/-- A survey of a hierarchy that looks the same finds the same. -/
theorem survey_congr (L : Layers) : ∀ (c : Container) (s : Walk) (w : World),
    SameSight counts s.world.hierarchy w.hierarchy →
    (∀ j, c.params.starting = some j → counts j = true) →
    HideAlike s.world.hierarchy w.hierarchy (survey locked c s L).2 →
    survey locked c { s with world := w } L =
      ({ (survey locked c s L).1 with world := w }, (survey locked c s L).2) := by
  induction L with
  | nil => exact fun _ _ _ _ _ _ => rfl
  | node k inside below inner rest =>
    intro c s w same counted alike
    obtain ⟨next, here, meets⟩ := exists_meets locked c s k inside
    rw [meets.survey_eq, HideAlike, List.forall_mem_append] at alike
    have first := meets.congr same counted alike.1 fun nested t params kept =>
      kept ▸ inner nested t w (kept ▸ same) (params ▸ counted)
    have further := rest c next w (meets.world ▸ same) counted (meets.world ▸ alike.2)
    rw [first.survey_eq, meets.survey_eq, further]

section
variable {h' : Hierarchy} (same : SameSight counts h h')
  (counted : ∀ j, p.starting = some j → counts j = true)
include same counted

theorem verdicts_congr (alike : HideAlike h h' (verdicts locked p h k)) :
    verdicts locked p h' k = verdicts locked p h k := by
  unfold verdicts at alike ⊢
  rw [same.isFragmentLike, same.look counted, same.contents]
  split
  · rename_i container
    rw [if_pos container] at alike
    let c := Container.look locked p h k
    have found := survey_congr (h.contents k) c (c.begin { hierarchy := h } false)
      { hierarchy := h' } same counted alike
    exact (congrArg Prod.snd found :)
  · rfl

theorem displayVerdicts_congr (alike : HideAlike h h' (displayVerdicts locked p h display)) :
    displayVerdicts locked p h' display = displayVerdicts locked p h display := by
  unfold displayVerdicts at alike ⊢
  rw [same.rootTasks]
  refine List.flatMap_congr fun root member => verdicts_congr same counted fun v found => ?_
  exact alike v (List.mem_flatMap.mpr ⟨root, member, found⟩)

end

/-- A pass over the display does not come to the activity while nothing hides it. -/
def Unmet (locked : DisplayId → Bool) (p : VisibilityParams) (h : Hierarchy)
    (display x : NodeId) : Prop :=
  ∀ v ∈ displayVerdicts locked p h display, v.activity = x → v.uncovered = false

/-- A pass over the display has no reason to show the activity: where it comes to it while nothing
hides it, the container is not to be seen, or the keyguard is locked and hides the activity. -/
def Unshown (locked : DisplayId → Bool) (p : VisibilityParams) (h : Hierarchy)
    (display x : NodeId) : Prop :=
  ∀ v ∈ displayVerdicts locked p h display, v.activity = x → v.uncovered = true →
    (∀ C, h.parent? x = some C → h.shouldBeVisible C p.starting = false) ∨
      ((h.displayOf? x).bind h.displayId?).any locked = true ∧
        h.activityHas (·.info.showWhenLocked) x = false

theorem Unmet.unshown (unmet : Unmet locked p h display x) : Unshown locked p h display x := by
  intro v member same uncovered
  rw [unmet v member same] at uncovered
  contradiction

theorem Unshown.visible (unshown : Unshown locked p h display x) (forest : Forest h)
    (member : v ∈ displayVerdicts locked p h display) (same : v.activity = x) :
    v.visible = false := by
  subst same
  refine Bool.eq_false_iff.mpr fun visible => ?_
  obtain ⟨uncovered, admitted⟩ := (Bool.and_eq_true ..).mp visible
  obtain ⟨root, _, found⟩ := List.mem_flatMap.mp member
  obtain ⟨C, s, r, placed, held, judged⟩ := exists_judge_of_mem_verdicts forest found
  rw [judged] at admitted
  obtain ⟨seen, open_⟩ := (Bool.and_eq_true ..).mp admitted
  rcases unshown v member rfl uncovered with unseen | ⟨shut, behind⟩
  · exact absurd ((unseen C placed).symm.trans seen) Bool.false_ne_true
  · rw [forest.displayOf?_of_parent placed] at shut
    rw [activityHas_of_activity? held] at behind
    simp [Container.look, shut, behind] at open_

/-- It is enough that the pass leaves the activity unseen. -/
theorem unmet_of_unseen (forest : Forest w.hierarchy)
    (unseen : ∀ r', (updateDisplay locked p w display).1.hierarchy.activity? x = some r' →
      r'.visibleIgnoringKeyguard = false) (held : w.hierarchy.activity? x = some r) :
    Unmet locked p w.hierarchy display x := by
  rintro v member rfl
  have nodup : ((displayVerdicts locked p w.hierarchy display).map Verdict.activity).Nodup :=
    nodup_displayVerdicts forest display
  rw [updateDisplay_world (.refl _) display] at unseen
  exact Verdict.seen_turn.symm.trans (unseen _ (activity?_carryOut nodup member held))

/-- A visit that does not show an activity does not bring back one that was torn down. -/
theorem Verdict.turn_of_destroyed (gone : r.state = .destroyed)
    (unshown : r.finishing = true ∨ v.visible = false) :
    ((v.turn p r).record.visibleRequested = true → r.visibleRequested = true) ∧
      ∀ call ∈ (v.turn p r).calls, call = .transaction v.activity (.visibility false) := by
  unfold Verdict.turn
  cases visible : v.visible with
  | true =>
    have finishing : r.finishing = true := unshown.resolve_right (by simp [visible])
    simp [finishing, Verdict.visibleRequested_note]
  | false =>
    have still : (v.note r).state = .destroyed := by
      unfold Verdict.note ActivityRecord.cancelInitializing
      dsimp only
      split
      · exact gone
      · simp [gone]
    refine ⟨fun wanted => ?_, fun call made => ?_⟩
    · rw [if_neg (by simp), Turn.visibleRequested_hide] at wanted
      contradiction
    · rw [if_neg (by simp), Turn.hide, still] at made
      split at made
      · simpa using made
      · contradiction

section
variable (forest : Forest w.hierarchy) (held : w.hierarchy.activity? x = some r)
  (gone : r.state = .destroyed)
include forest held gone

theorem not_shown_of_destroyed
    (unshown : r.finishing = true ∨ Unshown locked p w.hierarchy display x) :
    let after := (updateDisplay locked p w display).1
    (∃ r', after.hierarchy.activity? x = some r' ∧
        (r'.visibleRequested = true → r.visibleRequested = true)) ∧
      ∃ later, after.calls = w.calls ++ later ∧ ∀ call ∈ later, call.activity? = some x →
        call = .transaction x (.visibility false) := by
  intro after
  let vs := displayVerdicts locked p w.hierarchy display
  have carried : after = carryOut p w vs := updateDisplay_world (.refl _) display
  have nodup : (vs.map Verdict.activity).Nodup := nodup_displayVerdicts forest display
  have visit : ∀ v ∈ vs, v.activity = x → r.finishing = true ∨ v.visible = false :=
    fun v member same => unshown.imp_right (·.visible forest member same)
  rw [carried]
  constructor
  · by_cases met : x ∈ vs.map Verdict.activity
    · obtain ⟨v, member, rfl⟩ := List.mem_map.mp met
      exact ⟨_, activity?_carryOut nodup member held,
        (Verdict.turn_of_destroyed gone (visit v member rfl)).1⟩
    · exact ⟨r, (activity?_carryOut_of_not_mem met w).trans held, id⟩
  · refine forall_calls_carryOut nodup fun v member s found call made about => ?_
    obtain rfl : v.activity = x :=
      Option.some.inj ((Verdict.activity?_of_mem_calls made).symm.trans about)
    obtain rfl : r = s := Option.some.inj (held.symm.trans found)
    exact (Verdict.turn_of_destroyed gone (visit v member rfl)).2 call made

/-- What lies behind a torn-down activity is as if it were not there. -/
theorem hides_nothing_of_destroyed (other : p.starting ≠ some x)
    (unmet : r.finishing = true ∨ Unmet locked p w.hierarchy display x) :
    let after := (updateDisplay locked p w display).1.hierarchy
    let flipped := w.modifyActivity x ActivityRecord.flipTranslucent
    let after' := (updateDisplay locked p flipped display).1.hierarchy
    ∀ k, (after'.activity? k).map (·.visibleIgnoringKeyguard) =
      (after.activity? k).map (·.visibleIgnoringKeyguard) := by
  intro after flipped after' k
  let counts (j : NodeId) : Bool := decide (p.starting = some j)
  let vs := displayVerdicts locked p w.hierarchy display
  have counted : ∀ j, p.starting = some j → counts j = true := by simp [counts]
  have written : flipped = w.put x r.flipTranslucent [] := World.modifyActivity_eq_put held _
  have same : SameSight counts w.hierarchy flipped.hierarchy := by
    refine sameSight_modifyActivity fun s found => ?_
    obtain rfl : r = s := Option.some.inj (held.symm.trans found)
    simp [ActivityRecord.sight, ActivityRecord.flipTranslucent, ActivityRecord.still,
      ActivityRecord.isRunning, counts, other, gone]
  have others : ∀ j, j ≠ x → flipped.hierarchy.activity? j = w.hierarchy.activity? j :=
    fun j apart => written ▸ World.activity?_put_of_ne apart ..
  have found : flipped.hierarchy.activity? x = some r.flipTranslucent :=
    written ▸ World.activity?_put held ..
  have verdicts : displayVerdicts locked p flipped.hierarchy display = vs := by
    refine displayVerdicts_congr same counted fun v member uncovered => ?_
    by_cases itself : v.activity = x
    · have finishing : r.finishing = true :=
        unmet.resolve_right fun unmet => by simp [unmet v member itself] at uncovered
      rw [itself, activityHas_of_activity? held, activityHas_of_activity? found]
      simp [ActivityRecord.occludesParent, ActivityRecord.flipTranslucent, finishing]
    · rw [activityHas, activityHas, others _ itself]
  have nodup : (vs.map Verdict.activity).Nodup := nodup_displayVerdicts forest display
  have carried : after = (carryOut p w vs).hierarchy :=
    congrArg World.hierarchy (updateDisplay_world (.refl _) display)
  have carried' : after' = (carryOut p flipped vs).hierarchy :=
    verdicts ▸ congrArg World.hierarchy (updateDisplay_world (.refl _) display)
  rw [carried, carried']
  by_cases met : k ∈ vs.map Verdict.activity
  · obtain ⟨v, member, rfl⟩ := List.mem_map.mp met
    rw [seen_carryOut nodup member, seen_carryOut nodup member]
    exact same.activity?_map fun _ => rfl
  · rw [activity?_carryOut_of_not_mem met, activity?_carryOut_of_not_mem met]
    by_cases itself : k = x
    · rw [itself, held, found]
      rfl
    · rw [others k itself]

/-- A pass does not bring back an activity that was torn down, unless it comes to it where it would
show one that runs. Nor does such an activity hide what lies behind it, unless the pass comes to it
while nothing hides it. -/
theorem updateDisplay_of_destroyed (other : p.starting ≠ some x) :
    let after := (updateDisplay locked p w display).1
    let flipped := w.modifyActivity x ActivityRecord.flipTranslucent
    let after' := (updateDisplay locked p flipped display).1
    (r.finishing = true ∨ Unshown locked p w.hierarchy display x →
      (∃ r', after.hierarchy.activity? x = some r' ∧
        (r'.visibleRequested = true → r.visibleRequested = true)) ∧
      ∃ later, after.calls = w.calls ++ later ∧ ∀ call ∈ later, call.activity? = some x →
        call = .transaction x (.visibility false)) ∧
    (r.finishing = true ∨ Unmet locked p w.hierarchy display x →
      ∀ k, (after'.hierarchy.activity? k).map (·.visibleIgnoringKeyguard) =
        (after.hierarchy.activity? k).map (·.visibleIgnoringKeyguard)) := by
  intro after flipped after'
  exact ⟨not_shown_of_destroyed forest held gone,
    hides_nothing_of_destroyed forest held gone other⟩

end

/-- The draft was torn down and lies below the inbox, which hides it: it is not shown again, and
whether it is translucent does not matter to the list. -/
theorem updateDisplay_of_covered_draft :
    let record (name : String) : ActivityRecord :=
      { ActivityRecord.create { component := ⟨"mail", name⟩, uid := ⟨10010⟩ } {} with
        state := .stopped, attached := true }
    let draft : ActivityRecord := { record "Draft" with state := .destroyed }
    let calls : List Mutation :=
      [.addDisplay ⟨0⟩ ⟨0, 0, 1920, 1080⟩, .createRootTask ⟨2⟩ .fullscreen .standard .top,
        .addActivity ⟨3⟩ (record "List") .top, .addActivity ⟨3⟩ draft .top,
        .addActivity ⟨3⟩ (record "Inbox") .top]
    let before := afterCalls calls
    let w : World := { hierarchy := before }
    let after := (updateDisplay (fun _ => false) {} w ⟨1⟩).1
    let flipped := w.modifyActivity ⟨5⟩ ActivityRecord.flipTranslucent
    let after' := (updateDisplay (fun _ => false) {} flipped ⟨1⟩).1
    (∃ r', after.hierarchy.activity? ⟨5⟩ = some r' ∧ r'.visibleRequested = false) ∧
      (∀ call ∈ after.calls, call.activity? = some ⟨5⟩ →
        call = .transaction ⟨5⟩ (.visibility false)) ∧
      (after'.hierarchy.activity? ⟨4⟩).map (·.visibleIgnoringKeyguard) =
        (after.hierarchy.activity? ⟨4⟩).map (·.visibleIgnoringKeyguard) := by
  intro record draft calls before w after flipped after'
  have forest : Forest before := (wellFormed_afterCalls calls).forest
  have held : before.activity? ⟨5⟩ = some draft := by decide +kernel
  have unseen : ∀ r', after.hierarchy.activity? ⟨5⟩ = some r' →
      r'.visibleIgnoringKeyguard = false := by decide +kernel
  clear_value before
  have unmet : Unmet (fun _ => false) {} w.hierarchy ⟨1⟩ ⟨5⟩ := unmet_of_unseen forest unseen held
  have other : ({} : VisibilityParams).starting ≠ some ⟨5⟩ := by decide
  obtain ⟨unshown, same⟩ := updateDisplay_of_destroyed (w := w) forest held rfl other
  obtain ⟨⟨r', ended, unshown⟩, later, made, quiet⟩ := unshown (.inr unmet.unshown)
  rw [show w.calls = [] from rfl, List.nil_append] at made
  have hidden : r'.visibleRequested = false := by
    simpa [draft, record, ActivityRecord.create] using unshown
  have told : ∀ call ∈ after.calls, call.activity? = some ⟨5⟩ →
      call = .transaction ⟨5⟩ (.visibility false) := by
    intro call member
    exact quiet call (by rwa [← made])
  exact ⟨⟨r', ended, hidden⟩, told, same (.inr unmet) ⟨4⟩⟩

/-- The draft was torn down and lies below a hint that is translucent: it is shown again, and it
hides the list unless it is translucent itself. -/
theorem shown_of_uncovered_draft :
    let record (name : String) : ActivityRecord :=
      { ActivityRecord.create { component := ⟨"mail", name⟩, uid := ⟨10010⟩ } {} with
        state := .stopped, attached := true }
    let hint : ActivityRecord :=
      { record "Hint" with
        info := { component := ⟨"mail", "Hint"⟩, uid := ⟨10010⟩, translucent := true } }
    let calls : List Mutation :=
      [.addDisplay ⟨0⟩ ⟨0, 0, 1920, 1080⟩, .createRootTask ⟨2⟩ .fullscreen .standard .top,
        .addActivity ⟨3⟩ (record "List") .top,
        .addActivity ⟨3⟩ { record "Draft" with state := .destroyed } .top,
        .addActivity ⟨3⟩ hint .top]
    let before := afterCalls calls
    let w : World := { hierarchy := before }
    let after := (updateDisplay (fun _ => false) {} w ⟨1⟩).1
    let flipped := w.modifyActivity ⟨5⟩ ActivityRecord.flipTranslucent
    let after' := (updateDisplay (fun _ => false) {} flipped ⟨1⟩).1
    before.WellFormed ∧
      before.activityHas (fun r => r.state == .destroyed && !r.visibleRequested) ⟨5⟩ ∧
      after.hierarchy.activityHas (·.visibleRequested) ⟨5⟩ ∧
      .transaction ⟨5⟩ (.configuration false) ∈ after.calls ∧
      .transaction ⟨5⟩ (.visibility true) ∈ after.calls ∧
      before.activityHas ActivityRecord.isRunning ⟨4⟩ ∧
      after.hierarchy.activityHas (·.visibleIgnoringKeyguard) ⟨4⟩ = false ∧
      after'.hierarchy.activityHas (·.visibleIgnoringKeyguard) ⟨4⟩ := by
  intro record hint calls before w after flipped after'
  exact ⟨wellFormed_afterCalls calls, by decide +kernel⟩

end Visibility
end WindowHost
