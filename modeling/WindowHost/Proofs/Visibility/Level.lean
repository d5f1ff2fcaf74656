import WindowHost.Proofs.Visibility.Meeting

/-! Where a walk stands, told in the terms of the hierarchy's own query. The walk carries one flag
down; the query looks up again at every level. The flag says at each child what the query would
find there: that the container is hidden, or that the siblings passed so far cover the rest. -/
namespace WindowHost.Visibility
open Hierarchy
variable {locked : DisplayId → Bool} {p : VisibilityParams} {h : Hierarchy} {c : Container}
  {s inner : Walk} {j k C x : NodeId} {above : List NodeId} {L inside below : Layers}
  {r : ActivityRecord}

/-- Partners point at each other. -/
def Symmetric (h : Hierarchy) : Prop :=
  ∀ a b, h.adjacent? a = some b → h.adjacent? b = some a

/-- An activity that a pass treats as the query does. -/
def Ordinary (h : Hierarchy) (k : NodeId) : Prop :=
  ∀ r, h.activity? k = some r → r.state ≠ .destroyed ∧ r.launchTaskBehind = false

/-- Where a walk over the children of `C` stands when those in `above` are done and those of `L`
are left. -/
structure Level (h : Hierarchy) (c : Container) (C : NodeId) (above : List NodeId) (L : Layers)
    (s : Walk) : Prop where
  world : s.world.hierarchy = h
  occluded : s.occluded = (!h.shouldBeVisible C none || h.coversAll none (h.bounds C) [] above)
  partners : s.occluded = false → ∀ x ∈ L.tops, x ∈ s.partners ↔ ∃ j ∈ above,
    h.isFragmentLike j = true ∧ h.hasRunningActivity j = true ∧ h.adjacent? j = some x
  aboveTop : Seeks h c L s
  homeOccludes : s.homeOccludes = false

/-- Where a walk starts, nothing is passed and the flag is the query's answer for the container. -/
theorem level_begin (locked : DisplayId → Bool) {w : World} (world : w.hierarchy = h)
    (container : h.isFragmentLike k = true) (calm : p.starting = none) (hidden : Bool)
    (harmless : hidden = true → h.shouldBeVisible k none = false) :
    Level h (Container.look locked p h k) k [] (h.contents k)
      ((Container.look locked p h k).begin w hidden) where
  world := world
  occluded := by
    cases hidden with
    | false => simp [Container.begin, Container.look, calm, coversAll]
    | true => simp [Container.begin, Container.look, calm, coversAll, harmless rfl]
  partners _ x _ := by simp [Container.begin]
  aboveTop := seeks_begin locked container w hidden
  homeOccludes := rfl

/-- What runs nothing and is passed over covers nothing. -/
theorem Level.skip (level : Level h c C above (.node k inside below) s)
    (idle : h.hasRunningActivity k = false)
    (quiet : ∀ x ∈ k :: inside.ids, h.activityHas ActivityRecord.isRunning x = false) :
    Level h c C (above ++ [k]) below s := by
  have still := quiet k List.mem_cons_self
  have bare : h.coversNext none (h.bounds C) above k = false := by
    unfold coversNext
    cases held : h.activity? k with
    | none => simp [isOpaque, idle]
    | some r =>
      rw [activityHas_of_activity? held] at still
      simp [still]
  constructor
  · exact level.world
  · rw [coversAll_concat, bare, Bool.or_false]
    exact level.occluded
  · intro open_ x member
    rw [level.partners open_ x (List.mem_cons_of_mem _ member)]
    simp [idle, or_and_right, exists_or]
  · exact level.aboveTop.skip quiet
  · exact level.homeOccludes

/-- Away from home, a visit leaves the walk as it is but for what the activity hides. -/
theorem pass_of_away (away : c.isHome = false) (s : Walk) (k : NodeId) (r : ActivityRecord) :
    ∃ changes, s.pass c k r =
      { s with
        configChanges := changes
        aboveTop := false
        occluded := if !s.occluded || r.launchTaskBehind then r.occludesParent
          else s.occluded } := by
  have closed : ∀ s : Walk, s.closeHome c k = s := fun s => by simp [Walk.closeHome, away]
  unfold Walk.pass
  simp only [closed]
  split
  · split <;> exact ⟨_, rfl⟩
  · exact ⟨_, rfl⟩

/-- An activity that is met hides what lies below it when it is opaque. -/
theorem Level.pass (level : Level h c C above (.node k inside below) s)
    (held : h.activity? k = some r) (ordinary : Ordinary h k) (away : c.isHome = false) :
    Level h c C (above ++ [k]) below (s.pass c k r) := by
  obtain ⟨lives, front⟩ := ordinary r held
  obtain ⟨changes, passed⟩ := pass_of_away away s k r
  have hides : (r.isRunning && r.occludesParent) = r.occludesParent := by
    cases ends : r.finishing <;>
      simp [ActivityRecord.isRunning, ActivityRecord.occludesParent, ends, lives]
  have merged : (if (!s.occluded || r.launchTaskBehind) = true then r.occludesParent
      else s.occluded) = (s.occluded || r.occludesParent) := by
    cases s.occluded <;> simp [front]
  rw [passed, merged]
  constructor
  · exact level.world
  · rw [coversAll_concat, coversNext, held]
    simp only [hides, ← Bool.or_assoc, ← level.occluded]
  · intro open_ x member
    have before := (Bool.or_eq_false_iff.mp open_).1
    have plain : ¬ h.isFragmentLike k = true := by
      intro container
      rw [activity?_of_isFragmentLike container] at held
      contradiction
    refine (level.partners before x (List.mem_cons_of_mem _ member)).trans ?_
    simp [plain, or_and_right, exists_or]
  · intro waits
    contradiction
  · exact level.homeOccludes

theorem Level.pairedAbove_of_mem (symmetric : Symmetric h)
    (level : Level h c C above (.node k inside below) s) (open_ : s.occluded = false)
    (member : k ∈ s.partners) : ∃ j ∈ above, h.adjacent? k = some j ∧
      h.pairedAbove none above k = !h.isTranslucent j none := by
  obtain ⟨j, passed, container, runs, paired⟩ :=
    (level.partners open_ k List.mem_cons_self).mp member
  refine ⟨j, passed, symmetric j k paired, ?_⟩
  rw [Bool.eq_iff_iff]
  simp only [pairedAbove, List.any_eq_true, Bool.and_eq_true, Option.isNone_iff_eq_none, beq_iff_eq]
  constructor
  · rintro ⟨i, _, ⟨_, solid⟩, other⟩
    have same : i = j :=
      Option.some.inj ((symmetric i k other).symm.trans (symmetric j k paired))
    rw [isOpaque, same, runs, Bool.true_and] at solid
    exact solid
  · intro solid
    exact ⟨j, passed, ⟨activity?_of_isFragmentLike container, by rw [isOpaque, runs, solid]; rfl⟩,
      paired⟩

theorem Level.pairedAbove_of_not_mem (level : Level h c C above (.node k inside below) s)
    (open_ : s.occluded = false) (missing : k ∉ s.partners) :
    h.pairedAbove none above k = false := by
  refine Bool.eq_false_iff.mpr fun paired => missing ?_
  simp only [pairedAbove, List.any_eq_true, Bool.and_eq_true, Option.isNone_iff_eq_none,
    beq_iff_eq] at paired
  obtain ⟨j, passed, ⟨_, solid⟩, other⟩ := paired
  rw [isOpaque, Bool.and_eq_true] at solid
  exact (level.partners open_ k List.mem_cons_self).mpr
    ⟨j, passed, isFragmentLike_of_adjacent? other, solid.1, other⟩

theorem homeOccludes_leave (c : Container) (s inner : Walk) (k : NodeId) :
    (s.leave c k inner).homeOccludes = (s.homeOccludes || inner.homeOccludes) := by
  unfold Walk.leave
  dsimp only
  split
  · rfl
  split <;> rfl

section
variable (calm : c.params.starting = none) (bounds : c.bounds = h.bounds C)
  (world : inner.world.hierarchy = h) (away : inner.homeOccludes = false)
include calm bounds world away

theorem leave_of_filled
    (filled : (s.occluded || (h.bounds k == h.bounds C && !h.isTranslucent k none)) = true) :
    (s.leave c k inner).occluded = true := by
  unfold Walk.leave
  simp only [world, calm, bounds, away, Bool.or_false, filled, if_true]

theorem leave_of_mem
    (filled : (s.occluded || (h.bounds k == h.bounds C && !h.isTranslucent k none)) = false)
    (member : k ∈ s.partners) : (s.leave c k inner).partners = s.partners ∧
      (s.leave c k inner).occluded = (!h.isTranslucent k none &&
        (h.adjacent? k).any fun partner => !h.isTranslucent partner none) := by
  unfold Walk.leave
  simp [world, calm, bounds, away, filled, member]

theorem leave_of_not_mem
    (filled : (s.occluded || (h.bounds k == h.bounds C && !h.isTranslucent k none)) = false)
    (missing : k ∉ s.partners) :
    (s.leave c k inner).partners = (h.adjacent? k).toList ++ s.partners ∧
      (s.leave c k inner).occluded = false := by
  unfold Walk.leave
  simp [world, calm, bounds, away, filled, missing]

end

section
variable (level : Level h c C above (.node k inside below) s) (forest : Forest h)
  (symmetric : Symmetric h) (shown : (h.children C).reverse = above ++ k :: below.tops)
  (container : h.isFragmentLike k = true) (runs : h.hasRunningActivity k = true)
  (calm : c.params.starting = none) (bounds : c.bounds = h.bounds C)
  (world : inner.world.hierarchy = h) (away : inner.homeOccludes = false)

include level symmetric container runs calm bounds world away in
/-- A container that runs something hides what lies below it when it is opaque and fills its own
container, or when it is opaque and so is its partner above. -/
theorem Level.occluded_leave : (s.leave c k inner).occluded =
    (s.occluded || h.coversNext none (h.bounds C) above k) := by
  have solid : h.isOpaque k none = !h.isTranslucent k none := by
    rw [isOpaque, runs, Bool.true_and]
  rw [coversNext, activity?_of_isFragmentLike container]
  simp only [solid]
  cases filled : s.occluded || (h.bounds k == h.bounds C && !h.isTranslucent k none) with
  | true =>
    rw [leave_of_filled calm bounds world away filled]
    rcases (Bool.or_eq_true ..).mp filled with hidden | fills
    · simp [hidden]
    · obtain ⟨whole, opaque_⟩ := (Bool.and_eq_true ..).mp fills
      simp [whole, opaque_]
  | false =>
    have open_ := (Bool.or_eq_false_iff.mp filled).1
    by_cases member : k ∈ s.partners
    · obtain ⟨j, _, paired, solidAbove⟩ := level.pairedAbove_of_mem symmetric open_ member
      rw [(leave_of_mem calm bounds world away filled member).2, solidAbove, paired]
      cases lets : h.isTranslucent k none <;> simp_all
    · rw [(leave_of_not_mem calm bounds world away filled member).2,
        level.pairedAbove_of_not_mem open_ member]
      cases lets : h.isTranslucent k none <;> simp_all

include level forest symmetric shown container runs calm bounds world away in
/-- Its own partner is noted, unless that partner lies above. -/
theorem Level.partners_leave (still : (s.leave c k inner).occluded = false) (x : NodeId)
    (lower : x ∈ below.tops) : x ∈ (s.leave c k inner).partners ↔ ∃ j ∈ above ++ [k],
      h.isFragmentLike j = true ∧ h.hasRunningActivity j = true ∧ h.adjacent? j = some x := by
  have listed : x ∈ (Layers.node k inside below).tops := List.mem_cons_of_mem _ lower
  cases filled : s.occluded || (h.bounds k == h.bounds C && !h.isTranslucent k none) with
  | true =>
    rw [leave_of_filled calm bounds world away filled] at still
    contradiction
  | false =>
    have open_ := (Bool.or_eq_false_iff.mp filled).1
    have before := level.partners open_ x listed
    by_cases member : k ∈ s.partners
    · obtain ⟨j, passed, paired, _⟩ := level.pairedAbove_of_mem symmetric open_ member
      -- `j` lies above `k`, so it is none of those that are left
      have apart : x ≠ j := by
        rintro rfl
        have nodup := List.nodup_reverse.mpr (forest.nodup_children C)
        rw [shown] at nodup
        exact (List.nodup_append.mp nodup).2.2 x passed x (List.mem_cons_of_mem _ lower) rfl
      rw [(leave_of_mem calm bounds world away filled member).1, before]
      simp [or_and_right, exists_or, paired, apart.symm]
    · rw [(leave_of_not_mem calm bounds world away filled member).1, List.mem_append, before]
      simp [or_and_right, exists_or, container, runs, or_comm]

include level forest symmetric shown container runs calm bounds world away in
theorem Level.leave (shows : inside = h.contents k) :
    Level h c C (above ++ [k]) below (s.leave c k inner) := by
  constructor
  · rw [world_leave, world]
  · rw [level.occluded_leave symmetric container runs calm bounds world away, coversAll_concat,
      ← Bool.or_assoc, ← level.occluded]
  · exact level.partners_leave forest symmetric shown container runs calm bounds world away
  · exact level.aboveTop.leave forest container runs shows world
  · rw [homeOccludes_leave, level.homeOccludes, away]
    rfl

end

/-- The walk through a container starts with the answer for the container. -/
theorem Level.enter (level : Level h c C above (.node k inside below) s) (forest : Forest h)
    (outside : h.isFragmentLike C = true)
    (shown : (h.children C).reverse = above ++ k :: below.tops)
    (container : h.isFragmentLike k = true) (runs : h.hasRunningActivity k = true)
    (shows : inside = h.contents k) (calm : p.starting = none) :
    Level h (Container.look locked p h k) k [] inside
      ((Container.look locked p h k).begin s.world s.occluded) := by
  rw [shows]
  apply level_begin locked level.world container calm s.occluded
  intro hidden
  rw [forest.shouldBeVisible_child outside shown runs, ← Bool.not_eq_true', Bool.not_and,
    Bool.not_not, ← level.occluded, hidden]

end WindowHost.Visibility
