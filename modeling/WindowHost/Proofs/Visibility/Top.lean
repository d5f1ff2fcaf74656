import WindowHost.Proofs.Hierarchy.Cover
import WindowHost.Proofs.Visibility.Focus

/-! The activity with the focus is seen. Nothing that runs lies above it, and what does not run
hides nothing, so a pass comes to it with nothing hidden yet. -/
namespace WindowHost.Hierarchy
variable {h : Hierarchy} {starting : Option NodeId} {bounds : Rect} {display j k root : NodeId}
  {above : List NodeId}

theorem Forest.coversAll_of_quiet (forest : Forest h)
    (quiet : ∀ j ∈ above, h.hasRunningActivity j = false) (partners : List NodeId) :
    h.coversAll starting bounds partners above = false := by
  induction above generalizing partners with
  | nil => rfl
  | cons j above ih =>
    obtain ⟨here, quiet⟩ := List.forall_mem_cons.mp quiet
    rw [coversAll]
    cases held : h.activity? j with
    | none => simp [isOpaque, here, ih quiet]
    | some r =>
      have still := forest.hasRunningActivity_eq_false_iff.mp here j List.mem_cons_self
      rw [activityHas, held] at still
      simp_all

theorem coversRoots_of_quiet
    (quiet : ∀ j ∈ above, h.hasRunningActivity j = false ∨ h.mode j = .pinned)
    (partners : List NodeId) : h.coversRoots starting partners above = false := by
  induction above generalizing partners with
  | nil => rfl
  | cons j above ih =>
    obtain ⟨here, quiet⟩ := List.forall_mem_cons.mp quiet
    rw [coversRoots]
    rcases here with idle | pinned
    · simp [isOpaque, idle, ih quiet]
    · simp [pinned, WindowingMode.isSplit, ih quiet]

/-- Root tasks above the focused one run nothing or are pinned. -/
theorem Forest.quiet_above_focus (forest : Forest h)
    (focus : h.focusedRootTask? display = some root)
    (runs : h.hasRunningActivity root = true) {area : NodeId}
    (member : area ∈ h.children display) (inArea : root ∈ h.children area) :
    ∀ j ∈ h.siblingsAbove area root, h.isTask j = true →
      h.hasRunningActivity j = false ∨ h.mode j = .pinned := by
  let counts := fun j => h.mode j != .pinned
  have found : ((h.rootTasks display).filter counts).find? h.hasRunningActivity = some root := by
    unfold focusedRootTask? at focus
    dsimp only at focus
    cases first : ((h.rootTasks display).filter counts).find? h.hasRunningActivity with
    | some r => rwa [first, Option.some_or] at focus
    | none =>
      rw [first, Option.none_or] at focus
      exact absurd runs (List.find?_eq_none.mp first root (List.mem_of_head? focus))
  have task : h.isTask root = true :=
    (mem_rootTasks.mp (List.mem_filter.mp (List.mem_of_find?_eq_some found)).1).1
  obtain ⟨earlier, later, areas⟩ := List.append_of_mem (List.mem_reverse.mpr member)
  obtain ⟨above, lower, roots⟩ := List.append_of_mem (List.mem_reverse.mpr inArea)
  let tasks := fun a => (h.children a).reverse.filter h.isTask
  have shown : h.rootTasks display = (earlier.flatMap tasks ++ above.filter h.isTask) ++
      root :: (lower.filter h.isTask ++ later.flatMap tasks) := by
    have inner : tasks area = above.filter h.isTask ++ root :: lower.filter h.isTask := by
      simp only [tasks, roots, List.filter_append, List.filter_cons_of_pos task]
    rw [show h.rootTasks display = (h.children display).reverse.flatMap tasks from rfl, areas,
      List.flatMap_append, List.flatMap_cons, inner]
    simp only [List.append_assoc, List.cons_append]
  have nodup := forest.nodup_rootTasks display
  rw [shown] at nodup found
  rw [siblingsAbove_eq (forest.nodup_children area) roots]
  intro j higher kind
  by_contra busy
  simp only [not_or, Bool.not_eq_false] at busy
  have before : j ∈ earlier.flatMap tasks ++ above.filter h.isTask :=
    List.mem_append_right _ (List.mem_filter.mpr ⟨higher, kind⟩)
  have listed := List.mem_filter.mpr ⟨before, show counts j = true from bne_iff_ne.mpr busy.2⟩
  rw [List.filter_append, List.find?_append] at found
  cases first : (List.filter counts _).find? h.hasRunningActivity with
  | none => exact List.find?_eq_none.mp first j listed busy.1
  | some r =>
    rw [first, Option.some_or, Option.some.injEq] at found
    have early := (List.mem_filter.mp (List.mem_of_find?_eq_some first)).1
    exact (List.nodup_append.mp nodup).2.2 r early root List.mem_cons_self found

/-- Nothing covers the focused root task of a display. -/
theorem Forest.isUncovered_focus (forest : Forest h) (shown : (h.display? display).isSome = true)
    (focus : h.focusedRootTask? display = some root) (member : root ∈ h.rootTasks display)
    (runs : h.hasRunningActivity root = true) (starting : Option NodeId) :
    h.isUncovered starting root (h.ancestors root) = true := by
  obtain ⟨_, area, onDisplay, inArea⟩ := mem_rootTasks.mp member
  have under := (forest.child inArea).2
  have placeable : (h.area? area).isSome = true :=
    (forest.isSome_area?_of_parent (forest.child onDisplay).2).trans shown
  have quiet : ∀ j ∈ h.siblingsAbove area root, h.hasRunningActivity j = false ∨
      h.mode j = .pinned := by
    intro j higher
    have sibling : j ∈ h.children area := mem_of_mem_siblingsAbove higher
    exact forest.quiet_above_focus focus runs onDisplay inArea j higher
      (forest.isTask_of_parent (forest.child sibling).2 placeable)
  rw [forest.ancestors_of_parent under, isUncovered, if_pos placeable, isRootTaskUncovered, under]
  simp [coversRoots_of_quiet quiet]

end WindowHost.Hierarchy

namespace WindowHost.Visibility
open Hierarchy
variable {locked : DisplayId → Bool} {p : VisibilityParams} {h : Hierarchy} {display k x C : NodeId}
  {above : List NodeId} {L inside below : Layers} {s : Walk} {r : ActivityRecord}

/-- A walk over the children of `C` that has met nothing that runs when those in `above` are done,
and finds the activity `x` first among those of `L`. -/
structure Ahead (p : VisibilityParams) (h : Hierarchy) (display x C : NodeId)
    (above : List NodeId) (L : Layers) (s : Walk) : Prop where
  world : s.world.hierarchy = h
  occluded : s.occluded = false
  aboveTop : s.aboveTop = true
  container : h.isFragmentLike C = true
  placed : h.displayOf? C = some display
  uncovered : h.isUncovered p.starting C (h.ancestors C) = true
  top : h.topRunningActivity? C = some x
  shown : (h.children C).reverse = above ++ L.tops
  quiet : ∀ j ∈ above, h.hasRunningActivity j = false
  first : L.ids.find? (h.activityHas ActivityRecord.isRunning) = some x

theorem Ahead.shouldBeVisible (ahead : Ahead p h display x C above L s) :
    h.shouldBeVisible C p.starting = true := by
  simp [Hierarchy.shouldBeVisible, hasRunningActivity, ahead.top, ahead.uncovered]

/-- What runs nothing is passed over. -/
theorem Ahead.skip (ahead : Ahead p h display x C above (.node k inside below) s)
    (idle : h.hasRunningActivity k = false)
    (quiet : ∀ j ∈ k :: inside.ids, h.activityHas ActivityRecord.isRunning j = false) :
    Ahead p h display x C (above ++ [k]) below s := by
  obtain ⟨still, quiet⟩ := List.forall_mem_cons.mp quiet
  refine { ahead with shown := ?_, quiet := ?_, first := ?_ }
  · rw [ahead.shown]
    simp [Layers.tops]
  · exact List.forall_mem_append.mpr ⟨ahead.quiet, by simpa using idle⟩
  · have first := ahead.first
    rwa [Layers.ids, List.find?_cons_of_neg (by simp [still]), List.find?_append,
      List.find?_eq_none.mpr (by simpa using quiet), Option.none_or] at first

/-- The walk through the container that holds the top starts with nothing hidden either. -/
theorem Ahead.enter (ahead : Ahead p h display x C above (.node k inside below) s)
    (forest : Forest h) (locked : DisplayId → Bool) (container : h.isFragmentLike k = true)
    (runs : h.hasRunningActivity k = true) (shows : inside = h.contents k) :
    Ahead p h display x k [] inside ((Container.look locked p h k).begin s.world s.occluded) := by
  have member : k ∈ h.children C := by
    rw [← List.mem_reverse, ahead.shown]
    simp [Layers.tops]
  have under := (forest.child member).2
  have itself : h.activityHas ActivityRecord.isRunning k = false := by
    simp [activityHas, activity?_of_isFragmentLike container]
  obtain ⟨y, top⟩ := Option.isSome_iff_exists.mp runs
  have within := top
  rw [topRunningActivity?_of_isFragmentLike container, ← shows] at within
  have first := ahead.first
  rw [Layers.ids, List.find?_cons_of_neg (by simp [itself]), List.find?_append, within,
    Option.some_or, Option.some.injEq] at first
  subst first
  have uncovered : h.isUncovered p.starting k (h.ancestors k) = true := by
    rw [forest.ancestors_of_parent under, isUncovered,
      if_neg (by simp [area?_of_isFragmentLike ahead.container]), ahead.container,
      isCoveredBySiblings, siblingsAbove_eq (forest.nodup_children C) ahead.shown,
      forest.coversAll_of_quiet ahead.quiet, ahead.uncovered]
    rfl
  have visible : h.shouldBeVisible k p.starting = true := by
    simp [Hierarchy.shouldBeVisible, runs, uncovered]
  constructor
  · exact ahead.world
  · simp [Container.begin, Container.look, visible, ahead.occluded]
  · simp [Container.begin, Container.look, top]
  · exact container
  · rw [forest.displayOf?_of_parent under, ahead.placed]
  · exact uncovered
  · exact top
  · rw [shows, (forest.faithful_contents k).1, List.nil_append]
  · simp
  · exact within

/-- What a pass finds about the top activity of a display. -/
structure Verdict.ShowsTop (locked : DisplayId → Bool) (h : Hierarchy) (display x : NodeId)
    (v : Verdict) : Prop where
  activity : v.activity = x
  uncovered : v.uncovered = true
  isTop : v.isTop = true
  admitted : ∀ r, h.activity? x = some r →
    v.admitted = (!(h.displayId? display).any locked || r.info.showWhenLocked)

theorem Ahead.exists_verdict (forest : Forest h) (L : Layers) :
    ∀ (C : NodeId) (above : List NodeId) (s : Walk), L.Faithful h →
      Ahead p h display x C above L s →
        ∃ v ∈ (survey locked (Container.look locked p h C) s L).2,
          v.ShowsTop locked h display x := by
  induction L with
  | nil =>
    intro C above s _ ahead
    have first := ahead.first
    contradiction
  | node k inside below inner rest =>
    intro C above s faithful ahead
    obtain ⟨deep, faithfulInside, faithfulBelow⟩ := faithful
    have shows : inside = h.contents k :=
      faithfulInside.unique (forest.faithful_contents k).2
        (deep.trans (forest.faithful_contents k).1.symm)
    have passed : h.hasRunningActivity k = false →
        ∃ v ∈ (survey locked (Container.look locked p h C) s below).2,
          v.ShowsTop locked h display x := by
      intro idle
      have quiet := forest.hasRunningActivity_eq_false_iff.mp idle
      rw [← shows] at quiet
      exact rest C (above ++ [k]) s faithfulBelow (ahead.skip idle quiet)
    rw [survey]
    simp only [ahead.world]
    cases kind : h.isFragmentLike k with
    | true =>
      cases runs : h.hasRunningActivity k with
      | true =>
        obtain ⟨v, met, found⟩ :=
          inner k [] _ faithfulInside (ahead.enter forest locked kind runs shows)
        exact ⟨v, List.mem_append_left _ met, found⟩
      | false => exact passed runs
    | false =>
      have member : k ∈ h.children C := by
        rw [← List.mem_reverse, ahead.shown]
        simp [Layers.tops]
      obtain ⟨r, held⟩ := forest.exists_activity?_of_child ahead.container member kind
      simp only [held, Bool.false_eq_true, if_false]
      have top : (Container.look locked p h C).top = some x := ahead.top
      by_cases same : x = k
      · subst same
        rw [if_neg (by simp [top])]
        refine ⟨_, List.mem_append_left _ (List.mem_singleton_self _), rfl, ?_, ?_, ?_⟩
        · simp [Walk.judge, ahead.occluded]
        · simp [Walk.judge, top]
        · intro r' held'
          rw [held, Option.some.injEq] at held'
          simp [Walk.judge, Container.look, ahead.shouldBeVisible, ahead.placed, held']
      · rw [if_pos (by simp [top, same, ahead.aboveTop])]
        refine passed (forest.hasRunningActivity_eq_false_iff.mpr fun j listed => ?_)
        rw [forest.eq_of_mem_activity held j listed]
        by_contra running
        have first := ahead.first
        rw [Layers.ids, List.find?_cons_of_pos (by simpa using running)] at first
        exact same (Option.some.inj first).symm

/-- A pass over a display comes to the activity with the focus and finds nothing that hides it. -/
theorem exists_displayVerdict_of_focus (forest : Forest h) (locked : DisplayId → Bool)
    (shown : (h.display? display).isSome = true) (focus : focusOf? h display = some x) :
    ∃ v ∈ displayVerdicts locked p h display, v.ShowsTop locked h display x := by
  obtain ⟨root, focused, top⟩ := Option.bind_eq_some_iff.mp focus
  have member := mem_rootTasks_of_focusedRootTask? focused
  have container := isFragmentLike_of_isTask (mem_rootTasks.mp member).1
  have runs : h.hasRunningActivity root = true := by simp [hasRunningActivity, top]
  obtain ⟨tops, faithful⟩ := forest.faithful_contents root
  have uncovered := forest.isUncovered_focus shown focused member runs p.starting
  have ahead : Ahead p h display x root [] (h.contents root)
      ((Container.look locked p h root).begin { hierarchy := h } false) := by
    constructor
    · rfl
    · simp [Container.begin, Container.look, Hierarchy.shouldBeVisible, runs, uncovered]
    · simp [Container.begin, Container.look, top]
    · exact container
    · exact forest.displayOf?_of_inside shown (forest.inside_of_mem_rootTasks member)
    · exact uncovered
    · exact top
    · rw [tops, List.nil_append]
    · simp
    · exact topRunningActivity?_of_isFragmentLike container ▸ top
  obtain ⟨v, found, shows⟩ := Ahead.exists_verdict forest _ root [] _ faithful ahead
  refine ⟨v, List.mem_flatMap.mpr ⟨root, member, ?_⟩, shows⟩
  rw [verdicts, if_pos container]
  exact found

end WindowHost.Visibility
