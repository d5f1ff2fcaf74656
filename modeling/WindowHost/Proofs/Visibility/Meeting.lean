import WindowHost.Proofs.Hierarchy.Cover
import WindowHost.Proofs.Visibility.Passes

/-! A walk, child by child. What a walk makes of a child is one of three things, so what holds of
each of them holds of whole walks. A walk passes over nothing that runs: every container that runs
something is gone through, and every activity that runs gets its verdict. -/
namespace WindowHost.Visibility
open Hierarchy
variable {locked : DisplayId → Bool} {p : VisibilityParams} {h : Hierarchy} {c : Container}
  {s next inner : Walk} {here : List Verdict} {v : Verdict} {j k x C display : NodeId}
  {L inside below : Layers} {r : ActivityRecord}

/-- What a walk makes of a child and of what lies in it: how far it is then, and its verdicts. -/
inductive Meets (locked : DisplayId → Bool) (c : Container) (s : Walk) (k : NodeId)
    (inside : Layers) : Walk → List Verdict → Prop where
  /-- A container that runs something is gone through. -/
  | enter {nested : Container} {found : Walk × List Verdict}
      (container : s.world.hierarchy.isFragmentLike k = true)
      (runs : s.world.hierarchy.hasRunningActivity k = true)
      (looks : nested = Container.look locked c.params s.world.hierarchy k)
      (walks : found = survey locked nested (nested.begin s.world s.occluded) inside) :
      Meets locked c s k inside (s.leave c k found.1) found.2
  | visit {r : ActivityRecord} (held : s.world.hierarchy.activity? k = some r)
      (met : (s.aboveTop && c.top != some k) = false) :
      Meets locked c s k inside (s.pass c k r) [s.judge c k r]
  /-- A container that runs nothing is passed over, and an activity above the top. -/
  | skip (idle : s.world.hierarchy.isFragmentLike k = true →
        s.world.hierarchy.hasRunningActivity k = false)
      (early : ∀ r, s.world.hierarchy.activity? k = some r →
        (s.aboveTop && c.top != some k) = true) :
      Meets locked c s k inside s []

theorem Meets.survey_eq (meets : Meets locked c s k inside next here) (below : Layers) :
    survey locked c s (.node k inside below) =
      ((survey locked c next below).1, here ++ (survey locked c next below).2) := by
  rw [survey]
  cases meets with
  | enter container runs looks walks => simp [container, runs, looks, walks]
  | @visit r held met =>
    have plain : s.world.hierarchy.isFragmentLike k = false :=
      Bool.eq_false_iff.mpr fun container => by
        simp [activity?_of_isFragmentLike container] at held
    simp [plain, held, met]
  | skip idle early =>
    cases container : s.world.hierarchy.isFragmentLike k with
    | true => simp [idle container]
    | false =>
      cases held : s.world.hierarchy.activity? k with
      | none => simp
      | some r => simp [early r held]

theorem exists_meets (locked : DisplayId → Bool) (c : Container) (s : Walk) (k : NodeId)
    (inside : Layers) : ∃ next here, Meets locked c s k inside next here := by
  cases container : s.world.hierarchy.isFragmentLike k with
  | true =>
    have plain := activity?_of_isFragmentLike container
    cases runs : s.world.hierarchy.hasRunningActivity k with
    | true => exact ⟨_, _, .enter container runs rfl rfl⟩
    | false => exact ⟨_, _, .skip (fun _ => runs) (by simp [plain])⟩
  | false =>
    cases held : s.world.hierarchy.activity? k with
    | none => exact ⟨_, _, .skip (by simp [container]) (by simp [held])⟩
    | some r =>
      cases early : s.aboveTop && c.top != some k with
      | true => exact ⟨_, _, .skip (by simp [container]) (fun _ _ => early)⟩
      | false => exact ⟨_, _, .visit held early⟩

theorem Meets.world (meets : Meets locked c s k inside next here) : next.world = s.world := by
  cases meets with
  | enter _ _ _ walks => rw [world_leave, walks, world_survey]; rfl
  | visit _ _ => exact world_pass s
  | skip _ _ => rfl

theorem mem_ids_of_mem_survey (member : v ∈ (survey locked c s L).2) : v.activity ∈ L.ids :=
  (sublist_survey L c s).subset (List.mem_map_of_mem member)

theorem Meets.mem_ids (meets : Meets locked c s k inside next here) (member : v ∈ here) :
    v.activity ∈ k :: inside.ids := by
  cases meets with
  | enter _ _ _ walks =>
    rw [walks] at member
    exact List.mem_cons_of_mem _ (mem_ids_of_mem_survey member)
  | visit _ _ =>
    rw [List.mem_singleton.mp member]
    exact List.mem_cons_self
  | skip _ _ => contradiction

/-- A walk that has not come to the top of its container finds it first among what is left. -/
def Seeks (h : Hierarchy) (c : Container) (L : Layers) (s : Walk) : Prop :=
  s.aboveTop = true → c.top = L.ids.find? (h.activityHas ActivityRecord.isRunning)

theorem seeks_begin (locked : DisplayId → Bool) (container : h.isFragmentLike k = true)
    (w : World) (hidden : Bool) : Seeks h (Container.look locked p h k) (h.contents k)
      ((Container.look locked p h k).begin w hidden) :=
  fun _ => topRunningActivity?_of_isFragmentLike container

theorem Seeks.skip (seeks : Seeks h c (.node k inside below) s)
    (quiet : ∀ x ∈ k :: inside.ids, h.activityHas ActivityRecord.isRunning x = false) :
    Seeks h c below s := by
  obtain ⟨still, quiet⟩ := List.forall_mem_cons.mp quiet
  intro waits
  rw [seeks waits, Layers.ids, List.find?_cons_of_neg (by simp [still]), List.find?_append,
    List.find?_eq_none.mpr (by simpa using quiet), Option.none_or]

/-- An activity that is not the top one a walk waits for does not run. -/
theorem Seeks.still_of_waits (seeks : Seeks h c (.node k inside below) s)
    (passed : (s.aboveTop && c.top != some k) = true) :
    h.activityHas ActivityRecord.isRunning k = false := by
  obtain ⟨waits, other⟩ := (Bool.and_eq_true ..).mp passed
  apply Bool.eq_false_iff.mpr
  intro running
  rw [seeks waits, Layers.ids, List.find?_cons_of_pos running] at other
  simp at other

/-- The first child that runs something holds the top. -/
theorem Seeks.top_within (seeks : Seeks h c (.node k inside below) s) (forest : Forest h)
    (container : h.isFragmentLike k = true) (runs : h.hasRunningActivity k = true)
    (shows : inside = h.contents k) (waits : s.aboveTop = true) :
    c.top.any (h.isDescendantOf · k) = true := by
  have itself : h.activityHas ActivityRecord.isRunning k = false := by
    simp [activityHas, activity?_of_isFragmentLike container]
  rw [hasRunningActivity, topRunningActivity?_of_isFragmentLike container, ← shows] at runs
  obtain ⟨y, found⟩ := Option.isSome_iff_exists.mp runs
  have lies : h.isDescendantOf y k = true := by
    refine forest.isDescendantOf_iff.mpr (forest.mem_ids_contents.mp ?_)
    rw [← shows]
    exact List.mem_of_find?_eq_some found
  rw [seeks waits, Layers.ids, List.find?_cons_of_neg (by simp [itself]), List.find?_append,
    found, Option.some_or]
  exact lies

theorem aboveTop_leave (c : Container) (s inner : Walk) (k : NodeId) :
    (s.leave c k inner).aboveTop =
      (s.aboveTop && !c.top.any (inner.world.hierarchy.isDescendantOf · k)) := by
  unfold Walk.leave
  dsimp only
  split
  · rfl
  split <;> rfl

theorem Seeks.leave (seeks : Seeks h c (.node k inside below) s) (forest : Forest h)
    (container : h.isFragmentLike k = true) (runs : h.hasRunningActivity k = true)
    (shows : inside = h.contents k) (world : inner.world.hierarchy = h) :
    Seeks h c below (s.leave c k inner) := by
  intro waits
  rw [aboveTop_leave, world, Bool.and_eq_true] at waits
  rw [seeks.top_within forest container runs shows waits.1] at waits
  simp at waits

theorem aboveTop_closeHome (c : Container) (s : Walk) (k : NodeId) :
    (s.closeHome c k).aboveTop = s.aboveTop := by
  unfold Walk.closeHome
  split <;> rfl

theorem aboveTop_pass (c : Container) (s : Walk) (k : NodeId) (r : ActivityRecord) :
    (s.pass c k r).aboveTop = false :=
  pass_induct (motive := fun t => t.aboveTop = false) (fun _ => rfl)
    fun t down => (aboveTop_closeHome c t k).trans down

theorem Seeks.pass (s : Walk) (k : NodeId) (r : ActivityRecord) :
    Seeks h c below (s.pass c k r) := by
  intro waits
  rw [aboveTop_pass] at waits
  contradiction

/-- The children that a walk over `C` has still to go through, with all that they hold. -/
structure Shows (h : Hierarchy) (C : NodeId) (L : Layers) : Prop where
  container : h.isFragmentLike C = true
  children : ∀ t ∈ L.tops, t ∈ h.children C
  faithful : L.Faithful h

theorem shows_contents (forest : Forest h) (container : h.isFragmentLike C = true) :
    Shows h C (h.contents C) := by
  obtain ⟨tops, faithful⟩ := forest.faithful_contents C
  refine ⟨container, fun t member => ?_, faithful⟩
  rwa [tops, List.mem_reverse] at member

section
variable (shows : Shows h C (.node k inside below)) (forest : Forest h)
include shows

theorem Shows.lower : Shows h C below :=
  ⟨shows.container, fun t member => shows.children t (List.mem_cons_of_mem _ member),
    shows.faithful.2.2⟩

include forest

theorem Shows.inside_eq : inside = h.contents k := by
  obtain ⟨deep, faithful, _⟩ := shows.faithful
  exact faithful.unique (forest.faithful_contents k).2
    (deep.trans (forest.faithful_contents k).1.symm)

theorem Shows.deeper (container : h.isFragmentLike k = true) : Shows h k inside :=
  shows.inside_eq forest ▸ shows_contents forest container

/-- The walk through a container starts at its top. -/
theorem Shows.begins (locked : DisplayId → Bool) (p : VisibilityParams)
    (container : h.isFragmentLike k = true) (w : World) (hidden : Bool) :
    Seeks h (Container.look locked p h k) inside ((Container.look locked p h k).begin w hidden) :=
  shows.inside_eq forest ▸ seeks_begin locked container w hidden

/-- Nothing that a walk passes over runs. -/
theorem Shows.quiet (seeks : Seeks h c (.node k inside below) s)
    (idle : h.isFragmentLike k = true → h.hasRunningActivity k = false)
    (early : ∀ r, h.activity? k = some r → (s.aboveTop && c.top != some k) = true) :
    ∀ x ∈ k :: inside.ids, h.activityHas ActivityRecord.isRunning x = false := by
  rw [shows.inside_eq forest] at seeks ⊢
  cases container : h.isFragmentLike k with
  | true => exact forest.hasRunningActivity_eq_false_iff.mp (idle container)
  | false =>
    have child := shows.children k List.mem_cons_self
    obtain ⟨r, held⟩ := forest.exists_activity?_of_child shows.container child container
    intro x listed
    rw [forest.eq_of_mem_activity held x listed]
    exact seeks.still_of_waits (early r held)

theorem Shows.seeks (seeks : Seeks h c (.node k inside below) s) (world : s.world.hierarchy = h)
    (meets : Meets locked c s k inside next here) : Seeks h c below next := by
  subst world
  cases meets with
  | enter container runs _ walks =>
    refine seeks.leave forest container runs (shows.inside_eq forest) ?_
    rw [walks, world_survey]
    rfl
  | visit _ _ => exact .pass s k _
  | skip idle early => exact seeks.skip (shows.quiet forest seeks idle early)

end

/-- Every activity that runs gets a verdict. -/
theorem exists_verdict_of_running (forest : Forest h) (L : Layers) : ∀ (C : NodeId) (c : Container)
    (s : Walk), Shows h C L → Seeks h c L s → s.world.hierarchy = h → ∀ x ∈ L.ids,
      h.activityHas ActivityRecord.isRunning x = true →
        ∃ v ∈ (survey locked c s L).2, v.activity = x := by
  induction L with
  | nil =>
    intro C c s _ _ _ x listed
    contradiction
  | node k inside below inner rest =>
    intro C c s shows seeks world x listed running
    obtain ⟨next, here, meets⟩ := exists_meets locked c s k inside
    have further := shows.seeks forest seeks world meets
    rw [meets.survey_eq]
    rcases List.mem_append.mp (show x ∈ (k :: inside.ids) ++ below.ids from listed) with near | low
    · suffices ∃ v ∈ here, v.activity = x by
        obtain ⟨v, met, same⟩ := this
        exact ⟨v, List.mem_append_left _ met, same⟩
      subst world
      cases meets with
      | @enter nested found container runs looks walks =>
        have begins : Seeks s.world.hierarchy nested inside (nested.begin s.world s.occluded) :=
          looks ▸ shows.begins forest locked c.params container s.world s.occluded
        rcases List.mem_cons.mp near with rfl | within
        · simp [activityHas, activity?_of_isFragmentLike container] at running
        · rw [walks]
          exact inner k nested _ (shows.deeper forest container) begins rfl x within running
      | visit held met =>
        rw [shows.inside_eq forest] at near
        exact ⟨_, List.mem_singleton_self _, (forest.eq_of_mem_activity held x near).symm⟩
      | skip idle early =>
        rw [shows.quiet forest seeks idle early x near] at running
        contradiction
    · obtain ⟨v, met, same⟩ :=
        rest C c next shows.lower further (meets.world ▸ world) x low running
      exact ⟨v, List.mem_append_right _ met, same⟩

/-- Every container that runs something is gone through, from some flag on. -/
theorem exists_walk_of_running (forest : Forest h) (L : Layers) : ∀ (C : NodeId) (c : Container)
    (s : Walk), c.params = p → Shows h C L → Seeks h c L s → s.world.hierarchy = h → ∀ D ∈ L.ids,
      h.isFragmentLike D = true → h.hasRunningActivity D = true →
        ∃ hidden, let d := Container.look locked p h D
          (survey locked d (d.begin s.world hidden) (h.contents D)).2 ⊆
            (survey locked c s L).2 := by
  induction L with
  | nil =>
    intro C c s _ _ _ _ D listed
    contradiction
  | node k inside below inner rest =>
    intro C c s params shows seeks world D listed container runs
    obtain ⟨next, here, meets⟩ := exists_meets locked c s k inside
    have same := meets.world
    have further := shows.seeks forest seeks world meets
    rw [meets.survey_eq]
    rcases List.mem_append.mp (show D ∈ (k :: inside.ids) ++ below.ids from listed) with near | low
    · suffices ∃ hidden, let d := Container.look locked p h D
          (survey locked d (d.begin s.world hidden) (h.contents D)).2 ⊆ here by
        obtain ⟨hidden, part⟩ := this
        exact ⟨hidden, List.subset_append_of_subset_left _ part⟩
      subst world
      cases meets with
      | @enter nested found outer runsOuter looks walks =>
        subst params
        rw [walks]
        rcases List.mem_cons.mp near with rfl | within
        · rw [looks, shows.inside_eq forest]
          exact ⟨s.occluded, List.Subset.refl _⟩
        · have begins : Seeks s.world.hierarchy nested inside
              (nested.begin s.world s.occluded) :=
            looks ▸ shows.begins forest locked c.params outer s.world s.occluded
          exact inner k nested _ (looks ▸ rfl) (shows.deeper forest outer) begins rfl D within
            container runs
      | visit held met =>
        rw [shows.inside_eq forest] at near
        rw [forest.eq_of_mem_activity held D near] at container
        rw [activity?_of_isFragmentLike container] at held
        contradiction
      | skip idle early =>
        have quiet := shows.quiet forest seeks idle early
        rw [shows.inside_eq forest] at near quiet
        obtain ⟨x, place, running⟩ := forest.hasRunningActivity_iff.mp runs
        have within : x ∈ k :: (s.world.hierarchy.contents k).ids := by
          rcases place with rfl | inD
          · exact near
          · refine List.mem_cons_of_mem _ (forest.mem_ids_contents.mpr ?_)
            rcases List.mem_cons.mp near with rfl | deep
            · exact inD
            · exact inD.trans (forest.mem_ids_contents.mp deep)
        rw [quiet x within] at running
        contradiction
    · obtain ⟨hidden, part⟩ :=
        rest C c next params shows.lower further (same ▸ world) D low container runs
      exact ⟨hidden, List.subset_append_of_subset_right _ (same ▸ part)⟩

/-- A pass over a display goes through every container on it that runs something. -/
theorem exists_walk_of_display (forest : Forest h) (locked : DisplayId → Bool)
    (p : VisibilityParams) (shown : (h.display? display).isSome = true)
    (placed : Inside h C display) (container : h.isFragmentLike C = true)
    (runs : h.hasRunningActivity C = true) :
    ∃ hidden, let c := Container.look locked p h C
      (survey locked c (c.begin { hierarchy := h } hidden) (h.contents C)).2 ⊆
        displayVerdicts locked p h display := by
  obtain ⟨root, member, around⟩ :=
    forest.exists_rootTask shown placed (area?_of_isFragmentLike container)
  have outer := isFragmentLike_of_isTask (mem_rootTasks.mp member).1
  have part : verdicts locked p h root ⊆ displayVerdicts locked p h display :=
    fun _ found => List.mem_flatMap.mpr ⟨root, member, found⟩
  rw [verdicts, if_pos outer] at part
  rcases around with rfl | inside
  · exact ⟨false, part⟩
  · obtain ⟨hidden, within⟩ := exists_walk_of_running forest (h.contents root) root
      (Container.look locked p h root) _ rfl (shows_contents forest outer)
      (seeks_begin locked outer { hierarchy := h } false) rfl C
      (forest.mem_ids_contents.mpr inside) container runs
    exact ⟨hidden, List.Subset.trans within part⟩

end WindowHost.Visibility
