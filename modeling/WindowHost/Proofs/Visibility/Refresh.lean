import WindowHost.Proofs.Visibility.Agreement
import WindowHost.Proofs.Visibility.HomeRule
import WindowHost.Proofs.Visibility.Idempotence

/-! Refreshing one container after its display. A walk that starts at the container asks the
hierarchy what hides it; a walk that comes down to it brings a flag along. As long as the flag is up
only where the hierarchy agrees, both find the same, and the refresh has nothing left to do. -/
namespace WindowHost

/-- The activity is gone, and a walk that shows it still takes it to cover what lies behind. -/
def ActivityRecord.shades (r : ActivityRecord) : Bool := r.state == .destroyed && r.occludesParent

namespace Visibility
open Hierarchy
variable {locked : DisplayId → Bool} {p : VisibilityParams} {h : Hierarchy} {c : Container}
  {s next inner : Walk} {here : List Verdict} {v : Verdict} {a k C D R display : NodeId}
  {above : List NodeId} {L inside below : Layers} {r : ActivityRecord}

theorem isRunning_of_isRootOfTask (root : h.isRootOfTask k = true) :
    h.activityHas ActivityRecord.isRunning k = true := by
  unfold isRootOfTask at root
  split at root
  · contradiction
  · rw [beq_iff_eq] at root
    exact List.find?_some root

/-- None of the verdicts closes what is left of the home root task around `C`: no activity that is
found uncovered and is the root of its task lets through what lies behind it. -/
def LeavesOpen (h : Hierarchy) (C : NodeId) (vs : List Verdict) : Prop :=
  h.activityType C = .home → ∀ v ∈ vs, v.uncovered = true → h.isRootOfTask v.activity = true →
    h.activityHas (·.info.translucent) v.activity = false

theorem LeavesOpen.of_subset {us vs : List Verdict} (leaves : LeavesOpen h C vs)
    (part : us ⊆ vs) : LeavesOpen h C us :=
  fun home v member => leaves home v (part member)

theorem LeavesOpen.of_forall {vs : List Verdict} (each : ∀ v ∈ vs, LeavesOpen h C [v]) :
    LeavesOpen h C vs :=
  fun home v member => each v member home v (List.mem_singleton_self v)

theorem LeavesOpen.of_type {vs : List Verdict} (leaves : LeavesOpen h C vs)
    (same : h.activityType k = h.activityType C) : LeavesOpen h k vs :=
  fun home => leaves (same ▸ home)

theorem LeavesOpen.occludesParent (leaves : LeavesOpen h C [s.judge c k r])
    (uncovered : (s.judge c k r).uncovered = true) (held : h.activity? k = some r)
    (home : h.activityType C = .home) (root : h.isRootOfTask k = true) :
    r.occludesParent = true := by
  have solid : h.activityHas (·.info.translucent) k = false :=
    leaves home (s.judge c k r) (List.mem_singleton_self _) uncovered root
  have runs := isRunning_of_isRootOfTask root
  rw [activityHas_of_activity? held] at solid runs
  simp only [ActivityRecord.isRunning, Bool.and_eq_true] at runs
  rw [ActivityRecord.occludesParent, solid, runs.1]
  rfl

/-- Where an activity closes nothing, its visit only sets the flag. -/
theorem pass_of_leavesOpen (leaves : LeavesOpen s.world.hierarchy C [s.judge c k r])
    (held : s.world.hierarchy.activity? k = some r)
    (isHome : c.isHome = true → s.world.hierarchy.activityType C = .home) :
    ∃ changes, s.pass c k r =
      { s with
        configChanges := changes
        aboveTop := false
        occluded := if (s.judge c k r).uncovered then r.occludesParent else s.occluded } := by
  refine pass_induct (motive := fun t => ∃ changes, t = { s with
    configChanges := changes
    aboveTop := false
    occluded := if (s.judge c k r).uncovered then r.occludesParent else s.occluded })
    (fun changes => ⟨changes, rfl⟩) ?_
  rintro _ ⟨changes, rfl⟩
  refine ⟨changes, if_neg fun closes => ?_⟩
  -- with the flag down, the activity is the root of its task and covers nothing
  simp only [Bool.and_eq_true, Bool.not_eq_true'] at closes
  obtain ⟨⟨down, home⟩, root⟩ := closes
  cases uncovered : (s.judge c k r).uncovered with
  | true =>
    rw [uncovered, leaves.occludesParent uncovered held (isHome home) root] at down
    contradiction
  | false =>
    have up : s.occluded = true := by
      simpa [Walk.judge] using (Bool.or_eq_false_iff.mp uncovered).1
    rw [uncovered, up] at down
    contradiction

/-- Where a walk over the children of `C` is past those in `above`, and its flag is up only if the
query answers that `C` is hidden or that they cover what is left. -/
structure Warranted (h : Hierarchy) (C : NodeId) (above : List NodeId) (s : Walk) : Prop where
  world : s.world = { hierarchy := h }
  occluded : s.occluded = true →
    h.shouldBeVisible C none = false ∨ h.coversAll none (h.bounds C) [] above = true
  partners : ∀ x ∈ s.partners, ∃ j ∈ above,
    h.isFragmentLike j = true ∧ h.hasRunningActivity j = true ∧ h.adjacent? j = some x
  homeOccludes : s.homeOccludes = false

theorem Warranted.hierarchy (warranted : Warranted h C above s) : s.world.hierarchy = h := by
  rw [warranted.world]

theorem warranted_begin (calm : p.starting = none) (hidden : Bool)
    (harmless : hidden = true → h.shouldBeVisible k none = false) :
    Warranted h k [] ((Container.look locked p h k).begin { hierarchy := h } hidden) where
  world := rfl
  occluded up := by
    simp only [Container.begin, Container.look, calm, Bool.or_eq_true, Bool.not_eq_true'] at up
    exact .inl (up.elim id harmless)
  partners _ member := by contradiction
  homeOccludes := rfl

theorem begin_of_harmless (calm : p.starting = none) (w : World) {hidden : Bool}
    (harmless : hidden = true → h.shouldBeVisible k none = false) :
    (Container.look locked p h k).begin w hidden = (Container.look locked p h k).begin w false := by
  cases hidden with
  | false => rfl
  | true => simp [Container.begin, Container.look, calm, harmless rfl]

/-- The flag may go up where the child that is passed covers what is left. -/
theorem Warranted.cover (warranted : Warranted h C above s) {t : Walk} (world : t.world = s.world)
    (home : t.homeOccludes = s.homeOccludes)
    (partners : ∀ x ∈ t.partners, x ∈ s.partners ∨
      h.isFragmentLike k = true ∧ h.hasRunningActivity k = true ∧ h.adjacent? k = some x)
    (occluded : t.occluded = true →
      s.occluded = true ∨ h.coversNext none (h.bounds C) above k = true) :
    Warranted h C (above ++ [k]) t where
  world := world.trans warranted.world
  occluded up := by
    rw [coversAll_concat, Bool.or_eq_true]
    rcases occluded up with before | now
    · exact (warranted.occluded before).imp_right .inl
    · exact .inr (.inr now)
  partners x member := by
    rcases partners x member with before | now
    · obtain ⟨j, passed, paired⟩ := warranted.partners x before
      exact ⟨j, List.mem_append_left _ passed, paired⟩
    · exact ⟨k, List.mem_append_right _ (List.mem_singleton_self k), now⟩
  homeOccludes := home.trans warranted.homeOccludes

/-- An activity that is not gone hides what the query takes it to cover, and nothing else. -/
theorem Warranted.pass (warranted : Warranted h C above s) (held : h.activity? k = some r)
    (lives : (s.judge c k r).uncovered = true → h.activityHas ActivityRecord.shades k = false)
    (leaves : LeavesOpen h C [s.judge c k r])
    (isHome : c.isHome = true → h.activityType C = .home) :
    Warranted h C (above ++ [k]) (s.pass c k r) := by
  have world := warranted.hierarchy
  subst world
  obtain ⟨changes, passed⟩ := pass_of_leavesOpen leaves held isHome
  rw [passed]
  refine warranted.cover rfl rfl (fun _ member => .inl member) fun up => ?_
  dsimp only at up
  split at up
  · rename_i uncovered
    have lives := lives uncovered
    rw [activityHas_of_activity? held, ActivityRecord.shades, up, Bool.and_true] at lives
    have lasts : r.finishing = false := by
      simp only [ActivityRecord.occludesParent, Bool.and_eq_true, Bool.not_eq_true'] at up
      exact up.1
    exact .inr (by simp [coversNext, held, ActivityRecord.isRunning, lasts, up, bne, lives])
  · exact .inl up

theorem mem_partners_leave {x : NodeId} (member : x ∈ (s.leave c k inner).partners) :
    x ∈ s.partners ∨ inner.world.hierarchy.adjacent? k = some x := by
  unfold Walk.leave at member
  dsimp only at member
  split at member
  · exact .inl member
  split at member
  · exact .inl member
  · rcases List.mem_append.mp member with own | before
    · exact .inr (Option.mem_toList.mp own)
    · exact .inl before

/-- A container that was gone through hides what the query takes it to cover, alone or with its
partner above, and nothing else. -/
theorem Warranted.leave (warranted : Warranted h C above s) (symmetric : Symmetric h)
    (container : h.isFragmentLike k = true) (runs : h.hasRunningActivity k = true)
    (calm : c.params.starting = none) (bounds : c.bounds = h.bounds C)
    (world : inner.world = s.world) (away : inner.homeOccludes = false) :
    Warranted h C (above ++ [k]) (s.leave c k inner) := by
  have hierarchy : inner.world.hierarchy = h := world ▸ warranted.hierarchy
  refine warranted.cover ((world_leave s inner).trans world) ?_ (fun x member => ?_) fun up => ?_
  · rw [homeOccludes_leave, away, Bool.or_false]
  · exact (mem_partners_leave member).imp_right fun own =>
      ⟨container, runs, hierarchy ▸ own⟩
  have solid : ∀ j, h.hasRunningActivity j = true → h.isTranslucent j none = false →
      h.isOpaque j none = true := by
    intro j runs opaque_
    rw [isOpaque, runs, opaque_]
    rfl
  simp only [coversNext, activity?_of_isFragmentLike container]
  cases filled : s.occluded || (h.bounds k == h.bounds C && !h.isTranslucent k none) with
  | true =>
    rcases (Bool.or_eq_true ..).mp filled with before | fills
    · exact .inl before
    · simp only [Bool.and_eq_true, Bool.not_eq_true'] at fills
      rw [solid k runs fills.2, fills.1]
      exact .inr rfl
  | false =>
    by_cases member : k ∈ s.partners
    · obtain ⟨j, passed, containerJ, runsJ, paired⟩ := warranted.partners k member
      rw [(leave_of_mem calm bounds hierarchy away filled member).2, symmetric j k paired] at up
      simp only [Option.any_some, Bool.and_eq_true, Bool.not_eq_true'] at up
      have both : h.pairedAbove none above k = true := by
        apply List.any_eq_true.mpr
        refine ⟨j, passed, ?_⟩
        simp [activity?_of_isFragmentLike containerJ, solid j runsJ up.2, paired]
      rw [solid k runs up.1, both, Bool.or_true]
      exact .inr rfl
    · rw [(leave_of_not_mem calm bounds hierarchy away filled member).2] at up
      contradiction

section
variable (forest : Forest h)
include forest

/-- A walk that finds nothing to close the root task leaves it open. -/
theorem open_survey (L : Layers) : ∀ (C : NodeId) (s : Walk), Shows h C L →
    s.world.hierarchy = h → LeavesOpen h C (survey locked (Container.look locked p h C) s L).2 →
    s.homeOccludes = false →
      (survey locked (Container.look locked p h C) s L).1.homeOccludes = false := by
  induction L with
  | nil => exact fun _ _ _ _ _ away => away
  | node k inside below deeper rest =>
    intro C s shows world leaves away
    obtain ⟨next, here, meets⟩ := exists_meets locked (Container.look locked p h C) s k inside
    rw [meets.survey_eq] at leaves ⊢
    refine rest C next shows.lower (meets.world ▸ world)
      (leaves.of_subset (List.subset_append_right ..)) ?_
    have near : LeavesOpen h C here := leaves.of_subset (List.subset_append_left ..)
    subst world
    cases meets with
    | @enter nested found container _ looks walks =>
      have type := shows.activityType_eq forest container
      subst looks walks
      rw [homeOccludes_leave, away, Bool.false_or]
      exact deeper k _ (shows.deeper forest container) rfl (near.of_type type) rfl
    | visit held _ =>
      obtain ⟨changes, passed⟩ := pass_of_leavesOpen near held (by simp [Container.look])
      rw [passed]
      exact away
    | skip _ _ => exact away

/-- One child, whatever becomes of it. -/
theorem Warranted.step (warranted : Warranted h C above s) (symmetric : Symmetric h)
    (calm : p.starting = none) (shows : Shows h C (.node k inside below))
    (lives : ∀ v ∈ here, v.uncovered = true → v.activity = k →
      h.activityHas ActivityRecord.shades v.activity = false)
    (leaves : LeavesOpen h C here)
    (meets : Meets locked (Container.look locked p h C) s k inside next here) :
    Warranted h C (above ++ [k]) next := by
  have world := warranted.hierarchy
  subst world
  cases meets with
  | @enter nested found container runs looks walks =>
    have type := shows.activityType_eq forest container
    subst looks walks
    exact warranted.leave symmetric container runs calm rfl (world_survey ..)
      (open_survey forest inside k _ (shows.deeper forest container) rfl (leaves.of_type type) rfl)
  | visit held _ =>
    exact warranted.pass held (fun uncovered => lives _ (List.mem_singleton_self _) uncovered rfl)
      leaves (by simp [Container.look])
  | skip _ _ =>
    exact warranted.cover rfl rfl (fun _ member => .inl member) .inl

theorem hasRunningActivity_of_around (runs : h.hasRunningActivity D = true)
    (place : D = k ∨ Inside h D k) : h.hasRunningActivity k = true := by
  obtain ⟨x, deep, running⟩ := forest.hasRunningActivity_iff.mp runs
  refine forest.hasRunningActivity_iff.mpr ⟨x, ?_, running⟩
  rcases place with rfl | within
  · exact deep
  · rcases deep with rfl | further
    · exact .inr within
    · exact .inr (further.trans within)

/-- Where the flag is up, the next child that runs something is hidden. -/
theorem Warranted.harmless (warranted : Warranted h C above s)
    (container : h.isFragmentLike C = true)
    (shown : (h.children C).reverse = above ++ k :: below.tops)
    (runs : h.hasRunningActivity k = true) :
    s.occluded = true → h.shouldBeVisible k none = false := by
  intro up
  rw [forest.shouldBeVisible_child container shown runs]
  rcases warranted.occluded up with hidden | covered
  · rw [hidden, Bool.false_and]
  · rw [covered, Bool.not_true, Bool.and_false]

/-- What a walk finds that starts at a container is found as well by one that comes down to it. -/
theorem subset_survey (symmetric : Symmetric h) (calm : p.starting = none)
    (container : h.isFragmentLike D = true) (runs : h.hasRunningActivity D = true) (L : Layers) :
    ∀ (C : NodeId) (s : Walk) (above : List NodeId), (h.children C).reverse = above ++ L.tops →
      Shows h C L → Warranted h C above s → D ∈ L.ids →
      (∀ v ∈ (survey locked (Container.look locked p h C) s L).2, v.uncovered = true →
        v.activity ∈ L.passed D → h.activityHas ActivityRecord.shades v.activity = false) →
      (∀ v ∈ (survey locked (Container.look locked p h C) s L).2,
        [v.activity, D].Sublist L.ids → LeavesOpen h C [v]) →
        let d := Container.look locked p h D
        (survey locked d (d.begin { hierarchy := h } false) (h.contents D)).2 ⊆
          (survey locked (Container.look locked p h C) s L).2 := by
  induction L with
  | nil =>
    intro C s above _ _ _ listed
    contradiction
  | node k inside below deeper rest =>
    intro C s above shown shows warranted listed lives leaves
    obtain ⟨next, here, meets⟩ := exists_meets locked (Container.look locked p h C) s k inside
    rw [meets.survey_eq] at lives leaves ⊢
    have parts : (Layers.node k inside below).ids = (k :: inside.ids) ++ below.ids := rfl
    rw [parts] at listed leaves
    rw [List.forall_mem_append] at lives leaves
    rcases List.mem_append.mp listed with near | low
    · refine List.subset_append_of_subset_left _ ?_
      have child := shows.children k List.mem_cons_self
      have place : D = k ∨ Inside h D k := by
        rwa [List.mem_cons, shows.inside_eq forest, forest.mem_ids_contents] at near
      have kind : h.isFragmentLike k = true := by
        by_contra plain
        obtain ⟨r, held⟩ :=
          forest.exists_activity?_of_child shows.container child (Bool.eq_false_iff.mpr plain)
        rw [shows.inside_eq forest] at near
        rw [forest.eq_of_mem_activity held D near] at container
        exact plain container
      have runsK := hasRunningActivity_of_around forest runs place
      have harmless := warranted.harmless forest shows.container shown runsK
      have world := warranted.world
      cases meets with
      | @enter nested found _ _ looks walks =>
        rw [warranted.hierarchy] at looks
        rw [world] at walks
        have looks : nested = Container.look locked p h k := looks
        subst looks walks
        rcases List.mem_cons.mp near with rfl | within
        · rw [shows.inside_eq forest, begin_of_harmless calm _ harmless]
          exact List.Subset.refl _
        · refine deeper k _ [] ?_ (shows.deeper forest kind) (warranted_begin calm _ harmless)
            within (fun v found uncovered passed => lives.1 v found uncovered ?_)
            fun v found order => ?_
          · rw [shows.inside_eq forest, (forest.faithful_contents k).1]
            rfl
          · exact List.mem_append_left _ passed
          · have type := shows.activityType_eq forest kind
            exact (leaves.1 v found
              ((order.cons k).trans (List.sublist_append_left ..))).of_type type
      | visit held _ =>
        rw [warranted.hierarchy, activity?_of_isFragmentLike kind] at held
        contradiction
      | skip idle _ =>
        rw [warranted.hierarchy] at idle
        rw [idle kind] at runsK
        contradiction
    · have open_ : LeavesOpen h C here := .of_forall fun v found => leaves.1 v found
        ((List.singleton_sublist.mpr (meets.mem_ids found)).append (List.singleton_sublist.mpr low))
      have lasts : ∀ v ∈ here, v.uncovered = true → v.activity = k →
          h.activityHas ActivityRecord.shades v.activity = false := by
        intro v found uncovered same
        exact lives.1 v found uncovered (by simp [Layers.passed, low, same])
      have further := warranted.step forest symmetric calm shows lasts open_ meets
      refine List.subset_append_of_subset_right _ (rest C next (above ++ [k]) ?_ shows.lower further
        low (fun v found uncovered passed => lives.2 v found uncovered ?_)
        fun v found order => leaves.2 v found (order.trans (List.sublist_append_right ..)))
      · rw [shown, Layers.tops, List.append_assoc]
        rfl
      · simp [Layers.passed, low, passed]

end

section
variable {w : World} (forest : Forest w.hierarchy)
include forest

/-- What a pass over a display has found is settled where it leaves off. -/
theorem settled_of_mem_displayVerdicts (member : v ∈ displayVerdicts locked p w.hierarchy display)
    (held : (updateDisplay locked p w display).1.hierarchy.activity? v.activity = some r) :
    Settled p v r := by
  have nodup : ((displayVerdicts locked p w.hierarchy display).map Verdict.activity).Nodup :=
    nodup_displayVerdicts forest display
  have seen := sameView_carryOut (p := p) (displayVerdicts locked p w.hierarchy display) w
  rw [updateDisplay_world (.refl _) display] at held
  obtain ⟨r₀, before, _⟩ := seen.symm.exists_activity? held
  rw [activity?_carryOut nodup member before, Option.some.injEq] at held
  rw [← held]
  exact settled_turn

/-- The verdicts on a container in a root task are among those on the display. -/
theorem verdicts_subset (symmetric : Symmetric w.hierarchy) (calm : p.starting = none)
    (member : R ∈ w.hierarchy.rootTasks display) (around : C = R ∨ Inside w.hierarchy C R)
    (container : w.hierarchy.isFragmentLike C = true)
    (lives : ∀ v ∈ displayVerdicts locked p w.hierarchy display, v.uncovered = true →
      v.activity ∈ (w.hierarchy.contents R).passed C →
        w.hierarchy.activityHas ActivityRecord.shades v.activity = false)
    (leaves : ∀ v ∈ displayVerdicts locked p w.hierarchy display,
      [v.activity, C].Sublist (w.hierarchy.subtree R).ids → LeavesOpen w.hierarchy R [v])
    (runs : C = R ∨ w.hierarchy.hasRunningActivity C = true) :
    verdicts locked p w.hierarchy C ⊆ displayVerdicts locked p w.hierarchy display := by
  obtain ⟨task, _, _, inArea⟩ := mem_rootTasks.mp member
  have outer := isFragmentLike_of_isTask task
  have part : verdicts locked p w.hierarchy R ⊆ displayVerdicts locked p w.hierarchy display :=
    fun _ found => List.mem_flatMap.mpr ⟨R, member, found⟩
  by_cases same : C = R
  · rw [same]
    exact part
  refine List.Subset.trans ?_ part
  have deep := forest.mem_ids_contents.mpr (around.resolve_left same)
  rw [verdicts, if_pos outer] at part
  rw [verdicts, if_pos container, verdicts, if_pos outer]
  refine subset_survey forest symmetric calm container (runs.resolve_left same)
    (w.hierarchy.contents R) R _ [] (forest.faithful_contents R).1.symm
    (shows_contents forest outer) (warranted_begin calm false (by simp)) deep
    (fun v found => lives v (part found)) fun v found order => leaves v (part found) ?_
  rw [subtree, if_pos (forest.child inArea).1]
  simpa [Layers.ids] using order.cons R

/-- After a pass over a display, a refresh of a container in one of its root tasks leaves every
activity that runs as it is, and every activity at all if the container is the root task or runs
something. That takes no activity that is gone and that the pass finds uncovered to shade the
container on the way down to it, and in a home root task no activity that comes before it, is found
uncovered, is the root of its task and lets through what lies behind it. -/
theorem updateContainer_updateDisplay (symmetric : Symmetric w.hierarchy)
    (calm : p.starting = none) (locked : DisplayId → Bool)
    (member : R ∈ w.hierarchy.rootTasks display) (around : C = R ∨ Inside w.hierarchy C R)
    (container : w.hierarchy.isFragmentLike C = true)
    (lives : ∀ v ∈ displayVerdicts locked p w.hierarchy display, v.uncovered = true →
      v.activity ∈ (w.hierarchy.contents R).passed C →
        w.hierarchy.activityHas ActivityRecord.shades v.activity = false)
    (solid : w.hierarchy.activityType R = .home →
      ∀ v ∈ displayVerdicts locked p w.hierarchy display, v.uncovered = true →
        [v.activity, C].Sublist (w.hierarchy.subtree R).ids →
        w.hierarchy.isRootOfTask v.activity = true →
          w.hierarchy.activityHas (·.info.translucent) v.activity = false) :
    let once := (updateDisplay locked p w display).1
    let again := (updateContainer locked p once C).1
    ∀ k r, once.hierarchy.activity? k = some r →
      (r.isRunning = true ∨ C = R ∨ w.hierarchy.hasRunningActivity C = true) →
        again.hierarchy.activity? k = some r := by
  intro once again k r held concerned
  have leaves : ∀ v ∈ displayVerdicts locked p w.hierarchy display,
      [v.activity, C].Sublist (w.hierarchy.subtree R).ids → LeavesOpen w.hierarchy R [v] := by
    intro v found order home u single uncovered root
    obtain rfl := List.mem_singleton.mp single
    exact solid home u found uncovered order root
  have seen : SameView w.hierarchy once.hierarchy := by
    rw [show once = carryOut p w _ from updateDisplay_world (.refl _) display]
    exact sameView_carryOut _ w
  have second : again = carryOut p once (verdicts locked p w.hierarchy C) :=
    updateContainer_world seen C
  rw [second]
  by_cases runs : C = R ∨ w.hierarchy.hasRunningActivity C = true
  · have part : verdicts locked p w.hierarchy C ⊆ displayVerdicts locked p w.hierarchy display :=
      verdicts_subset forest symmetric calm member around container lives leaves runs
    rw [hierarchy_carryOut_of_settled fun v found r held =>
      settled_of_mem_displayVerdicts forest (part found) held]
    exact held
  · -- nothing in the container runs, so the refresh does not come to what does
    have running := concerned.resolve_right runs
    have idle : w.hierarchy.hasRunningActivity C = false :=
      Bool.eq_false_iff.mpr fun some_ => runs (.inr some_)
    rw [activity?_carryOut_of_not_mem]
    · exact held
    · intro listed
      have within := (sublist_verdicts w.hierarchy C).subset listed
      have still := forest.hasRunningActivity_eq_false_iff.mp idle k (List.mem_cons_of_mem _ within)
      obtain ⟨r₀, before, same⟩ := seen.symm.exists_activity? held
      rw [activityHas_of_activity? before, ActivityRecord.isRunning_eq_of_still same] at still
      rw [running] at still
      contradiction

end

/-- A fragment in a nested task, beside which a note fills the left half and before which a toast
is gone, is refreshed without effect. -/
theorem updateContainer_updateDisplay_of_pane :
    let record (name : String) : ActivityRecord :=
      { ActivityRecord.create { component := ⟨"mail", name⟩, uid := ⟨10010⟩ } {} with
        state := .stopped, attached := true }
    let toast : ActivityRecord :=
      { record "Toast" with
        info := { component := ⟨"mail", "Toast"⟩, uid := ⟨10010⟩, translucent := true }
        state := .destroyed }
    let calls : List Mutation :=
      [.addDisplay ⟨0⟩ ⟨0, 0, 1920, 1080⟩, .createRootTask ⟨2⟩ .fullscreen .standard .top,
        .createTask ⟨3⟩ {} .top, .createFragment ⟨4⟩ none .top,
        .addActivity ⟨5⟩ (record "List") .top, .addActivity ⟨4⟩ toast .top,
        .createFragment ⟨3⟩ (some ⟨0, 0, 960, 1080⟩) .top, .addActivity ⟨8⟩ (record "Note") .top]
    let before := afterCalls calls
    let once := (updateDisplay (fun _ => false) {} { hierarchy := before } ⟨1⟩).1
    let again := (updateContainer (fun _ => false) {} once ⟨5⟩).1
    once.hierarchy.activityHas (·.visibleIgnoringKeyguard) ⟨6⟩ = true ∧
      ∀ k r, once.hierarchy.activity? k = some r → again.hierarchy.activity? k = some r := by
  intro record toast calls before once again
  have forest : Forest before := (wellFormed_afterCalls calls).forest
  have symmetric : Symmetric before := symmetric_of_lt_next (by decide +kernel)
  have member : ⟨3⟩ ∈ before.rootTasks ⟨1⟩ := by decide +kernel
  have inTask : before.parent? ⟨5⟩ = some ⟨4⟩ := by decide +kernel
  have inRoot : before.parent? ⟨4⟩ = some ⟨3⟩ := by decide +kernel
  have container : before.isFragmentLike ⟨5⟩ = true := by decide +kernel
  have lives : ∀ a ∈ (before.contents ⟨3⟩).passed ⟨5⟩,
      before.activityHas ActivityRecord.shades a = false := by decide +kernel
  have away : before.activityType ⟨3⟩ ≠ .home := by decide +kernel
  have runs : before.hasRunningActivity ⟨5⟩ = true := by decide +kernel
  have seen : once.hierarchy.activityHas (·.visibleIgnoringKeyguard) ⟨6⟩ = true := by
    decide +kernel
  clear_value before
  exact ⟨seen, fun k r held => updateContainer_updateDisplay (w := { hierarchy := before }) forest
    symmetric rfl (fun _ => false) member (.inr (.deeper inTask (.child inRoot)))
    container (fun v _ _ => lives v.activity) (fun home => absurd home away) k r held
    (.inr (.inr runs))⟩

/-- Three refreshes that do change something. In the first root task a pane holds a draft that is
finishing: the display pass goes past it, since nothing in it runs. In the second one a draft that
is gone shades a pane with a list from the display pass alone. In the third, a home root task, a
translucent launcher closes the task of a list for the display pass alone. -/
theorem changed_of_refresh :
    let record (name : String) (translucent : Bool) : ActivityRecord :=
      { ActivityRecord.create
          { component := ⟨"mail", name⟩, uid := ⟨10010⟩, translucent := translucent } {} with
        state := .stopped, attached := true }
    let before := afterCalls
      [.addDisplay ⟨0⟩ ⟨0, 0, 1920, 1080⟩,
        .createRootTask ⟨2⟩ .freeform .standard .top, .createFragment ⟨3⟩ none .top,
        .addActivity ⟨4⟩
          { record "Draft" false with finishing := true, visibleIgnoringKeyguard := true } .top,
        .createRootTask ⟨2⟩ .freeform .standard .top, .createFragment ⟨6⟩ none .top,
        .addActivity ⟨7⟩ (record "List" false) .top,
        .addActivity ⟨6⟩ { record "Draft" false with state := .destroyed } .top,
        .addActivity ⟨6⟩ (record "Hint" true) .top,
        .createRootTask ⟨2⟩ .freeform .home .top, .createTask ⟨11⟩ {} .top,
        .addActivity ⟨12⟩ (record "List" false) .top, .createTask ⟨11⟩ {} .top,
        .addActivity ⟨14⟩ (record "Launcher" true) .top]
    let once := (updateDisplay (fun _ => false) {} { hierarchy := before } ⟨1⟩).1
    let refresh (C : NodeId) := (updateContainer (fun _ => false) {} once C).1.hierarchy
    before.WellFormed ∧
      (∀ C ∈ [⟨4⟩, ⟨7⟩, ⟨12⟩], before.isFragmentLike C = true ∧ before.displayOf? C = some ⟨1⟩) ∧
      once.hierarchy.activityHas (·.visibleIgnoringKeyguard) ⟨5⟩ = true ∧
      (refresh ⟨4⟩).activityHas (·.visibleIgnoringKeyguard) ⟨5⟩ = false ∧
      once.hierarchy.activityHas (·.visibleIgnoringKeyguard) ⟨8⟩ = false ∧
      (refresh ⟨7⟩).activityHas (·.visibleIgnoringKeyguard) ⟨8⟩ = true ∧
      once.hierarchy.activityHas (·.visibleIgnoringKeyguard) ⟨13⟩ = false ∧
      (refresh ⟨12⟩).activityHas (·.visibleIgnoringKeyguard) ⟨13⟩ = true := by
  intro record before once refresh
  exact ⟨wellFormed_afterCalls _, by decide +kernel⟩

end Visibility
end WindowHost
