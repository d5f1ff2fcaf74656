import WindowHost.Proofs.Hierarchy.Partners
import WindowHost.Proofs.Hierarchy.Spared
import WindowHost.Proofs.Visibility.Alike
import WindowHost.Proofs.Visibility.Passes

/-! Displays that nothing has touched. All that a pass asks about a node is read off what lies on
the display of the node, so where that is as it was, a pass comes to the verdicts that it came to.
Nor does it matter whether an activity that runs counts as starting. -/
namespace WindowHost.Hierarchy
variable {h h' : Hierarchy} {display j k p : NodeId} {starting : Option NodeId}

theorem Forest.displayOf?_eq_of_mem_activities (forest : Forest h) (member : j ∈ h.activities k) :
    h.displayOf? j = h.displayOf? k := by
  have listed := (List.mem_filter.mp member).1
  rcases (forest.mem_ids_subtree (contains_of_mem_subtree listed)).mp listed with rfl | inside
  · rfl
  · exact forest.displayOf?_eq_of_inside inside

namespace Forest
variable (forest : Forest h) (placed : h.displayOf? k = some display)
include forest placed

theorem displayOf?_above (member : j ∈ k :: h.ancestors k) : h.displayOf? j = some display := by
  rcases List.mem_cons.mp member with rfl | above
  · exact placed
  · rw [← forest.displayOf?_eq_of_inside (forest.mem_ancestors.mp above), placed]

theorem displayOf?_of_mem_lineage (member : j ∈ h.lineage k) : h.displayOf? j = some display := by
  unfold lineage at member
  split at member
  · exact forest.displayOf?_above placed member
  · contradiction

theorem displayOf?_of_mem_contents (member : j ∈ (h.contents k).ids) :
    h.displayOf? j = some display :=
  (forest.displayOf?_eq_of_inside (forest.mem_ids_contents.mp member)).trans placed

theorem displayOf?_of_mem_activities (member : j ∈ h.activities k) :
    h.displayOf? j = some display :=
  (forest.displayOf?_eq_of_mem_activities member).trans placed

theorem displayOf?_of_mem_children (member : j ∈ h.children k) :
    h.displayOf? j = some display :=
  (forest.displayOf?_of_parent (forest.child member).2).trans placed

end Forest

namespace Spares
variable (spares : Spares h h' display) (forest : Forest h) (forest' : Forest h')
include spares

theorem activity? (placed : h.displayOf? k = some display) : h'.activity? k = h.activity? k :=
  activity?_of_data? (spares.data? placed)

theorem adjacent? (placed : h.displayOf? k = some display) : h'.adjacent? k = h.adjacent? k :=
  adjacent?_of_data? (spares.data? placed)

theorem isFragmentLike (placed : h.displayOf? k = some display) :
    h'.isFragmentLike k = h.isFragmentLike k :=
  isFragmentLike_of_data? (spares.data? placed)

theorem task? (placed : h.displayOf? k = some display) : h'.task? k = h.task? k := by
  rw [Hierarchy.task?, Hierarchy.task?, spares.data? placed]

theorem area? (placed : h.displayOf? k = some display) : h'.area? k = h.area? k := by
  rw [Hierarchy.area?, Hierarchy.area?, spares.data? placed]

theorem isTask (placed : h.displayOf? k = some display) : h'.isTask k = h.isTask k := by
  rw [Hierarchy.isTask, Hierarchy.isTask, spares.task? placed]

theorem activityHas (placed : h.displayOf? k = some display) (q : ActivityRecord → Bool) :
    h'.activityHas q k = h.activityHas q k := by
  rw [Hierarchy.activityHas, Hierarchy.activityHas, spares.activity? placed]

theorem siblingsAbove (placed : h.displayOf? k = some display) (child : NodeId) :
    h'.siblingsAbove k child = h.siblingsAbove k child := by
  rw [Hierarchy.siblingsAbove, Hierarchy.siblingsAbove, spares.children placed]

include forest

theorem isRootTask (placed : h.displayOf? k = some display) :
    h'.isRootTask k = h.isRootTask k := by
  rw [Hierarchy.isRootTask, Hierarchy.isRootTask, spares.isTask placed, spares.parent? placed]
  cases above : h.parent? k with
  | none => rfl
  | some p =>
    rw [Option.bind_some, Option.bind_some,
      spares.area? ((forest.displayOf?_of_parent above).symm.trans placed)]

theorem rootTasks (placed : h.displayOf? display = some display) :
    h'.rootTasks display = h.rootTasks display := by
  rw [Hierarchy.rootTasks, Hierarchy.rootTasks, spares.children placed]
  refine List.flatMap_congr fun area member => ?_
  have onDisplay := forest.displayOf?_of_mem_children placed (List.mem_reverse.mp member)
  rw [spares.children onDisplay]
  refine List.filter_congr fun root listed => ?_
  exact spares.isTask (forest.displayOf?_of_mem_children onDisplay (List.mem_reverse.mp listed))

include forest'

theorem ancestors (placed : h.displayOf? k = some display) : h'.ancestors k = h.ancestors k :=
  forest.ancestors_congr forest' fun _ member =>
    spares.parent? (forest.displayOf?_above placed member)

theorem lineage (placed : h.displayOf? k = some display) : h'.lineage k = h.lineage k := by
  rw [Hierarchy.lineage, Hierarchy.lineage, contains_congr (spares.data? placed),
    spares.ancestors forest forest' placed]

theorem find?_lineage {f f' : NodeId → Bool} (placed : h.displayOf? k = some display)
    (same : ∀ j, h.displayOf? j = some display → f' j = f j) :
    (h'.lineage k).find? f' = (h.lineage k).find? f := by
  rw [spares.lineage forest forest' placed]
  exact List.find?_congr fun j member => same j (forest.displayOf?_of_mem_lineage placed member)

theorem findSome?_lineage {α : Type} {f f' : NodeId → Option α}
    (placed : h.displayOf? k = some display)
    (same : ∀ j, h.displayOf? j = some display → f' j = f j) :
    (h'.lineage k).findSome? f' = (h.lineage k).findSome? f := by
  have mapped : (h.lineage k).map f' = (h.lineage k).map f :=
    List.map_congr_left fun j member => same j (forest.displayOf?_of_mem_lineage placed member)
  rw [spares.lineage forest forest' placed]
  rw [← Function.id_comp f', ← Function.id_comp f, ← List.findSome?_map, mapped,
    List.findSome?_map]

theorem contents (placed : h.displayOf? k = some display) : h'.contents k = h.contents k := by
  obtain ⟨tops, faithful⟩ := forest.faithful_contents k
  obtain ⟨tops', faithful'⟩ := forest'.faithful_contents k
  refine faithful'.unique (faithful.congr fun j member => ?_) ?_
  · exact spares.children (forest.displayOf?_of_mem_contents placed member)
  · rw [tops, tops', spares.children placed]

theorem displayOf? (placed : h.displayOf? k = some display) :
    h'.displayOf? k = h.displayOf? k := by
  refine spares.find?_lineage forest forest' placed fun j onDisplay => ?_
  rw [display?, display?, spares.data? onDisplay]

theorem rootTaskOf? (placed : h.displayOf? k = some display) :
    h'.rootTaskOf? k = h.rootTaskOf? k :=
  spares.find?_lineage forest forest' placed fun _ => spares.isRootTask forest

theorem taskAround? (placed : h.displayOf? k = some display) :
    h'.taskAround? k = h.taskAround? k := by
  rw [Hierarchy.taskAround?, Hierarchy.taskAround?, spares.parent? placed]
  cases above : h.parent? k with
  | none => rfl
  | some p =>
    exact spares.find?_lineage forest forest'
      ((forest.displayOf?_of_parent above).symm.trans placed) fun _ => spares.isTask

theorem mode (placed : h.displayOf? k = some display) : h'.mode k = h.mode k := by
  rw [Hierarchy.mode, Hierarchy.mode,
    spares.findSome?_lineage forest forest' placed fun j onDisplay => by
      rw [spares.task? onDisplay]]

theorem bounds (placed : h.displayOf? k = some display) : h'.bounds k = h.bounds k := by
  rw [Hierarchy.bounds, Hierarchy.bounds,
    spares.findSome?_lineage forest forest' placed fun j onDisplay => by
      rw [spares.data? onDisplay]]

theorem activityType (placed : h.displayOf? k = some display) :
    h'.activityType k = h.activityType k := by
  unfold Hierarchy.activityType
  rw [spares.activity? placed, spares.rootTaskOf? forest forest' placed]
  cases around : h.rootTaskOf? k with
  | none => rfl
  | some root =>
    have onDisplay := forest.displayOf?_of_mem_lineage placed (List.mem_of_find?_eq_some around)
    rw [Option.bind_some, Option.bind_some, spares.task? onDisplay]

theorem activities (placed : h.displayOf? k = some display) :
    h'.activities k = h.activities k := by
  have same : h'.subtree k = h.subtree k := by
    rw [subtree, subtree, contains_congr (spares.data? placed),
      spares.contents forest forest' placed]
  rw [Hierarchy.activities, Hierarchy.activities, same]
  refine List.filter_congr fun j listed => ?_
  rw [isActivity, isActivity, spares.activity?]
  rcases (forest.mem_ids_subtree (contains_of_mem_subtree listed)).mp listed with rfl | inside
  · exact placed
  · exact (forest.displayOf?_eq_of_inside inside).trans placed

theorem topRunningActivity? (placed : h.displayOf? k = some display) :
    h'.topRunningActivity? k = h.topRunningActivity? k := by
  rw [Hierarchy.topRunningActivity?, Hierarchy.topRunningActivity?,
    spares.activities forest forest' placed]
  exact List.find?_congr fun j member =>
    spares.activityHas (forest.displayOf?_of_mem_activities placed member) _

theorem hasRunningActivity (placed : h.displayOf? k = some display) :
    h'.hasRunningActivity k = h.hasRunningActivity k := by
  rw [Hierarchy.hasRunningActivity, Hierarchy.hasRunningActivity,
    spares.topRunningActivity? forest forest' placed]

theorem isRootOfTask (placed : h.displayOf? k = some display) :
    h'.isRootOfTask k = h.isRootOfTask k := by
  unfold Hierarchy.isRootOfTask
  rw [spares.taskAround? forest forest' placed]
  cases around : h.taskAround? k with
  | none => rfl
  | some task =>
    obtain ⟨p, above, found⟩ := Option.bind_eq_some_iff.mp around
    have onDisplay := forest.displayOf?_of_mem_lineage
      ((forest.displayOf?_of_parent above).symm.trans placed) (List.mem_of_find?_eq_some found)
    dsimp only
    rw [spares.activities forest forest' onDisplay]
    congr 1
    exact List.find?_congr fun j member => spares.activityHas
      (forest.displayOf?_of_mem_activities onDisplay (List.mem_reverse.mp member)) _

variable (begun : ∀ x, starting = some x → h.activityHas ActivityRecord.isRunning x = true)
include begun

theorem isTranslucent (placed : h.displayOf? k = some display) :
    h'.isTranslucent k none = h.isTranslucent k starting := by
  have covers : ∀ j ∈ h.activities k,
      h'.activityHas (fun r => (r.isRunning || some j == none) && r.occludesParent) j =
        h.activityHas (fun r => (r.isRunning || some j == starting) && r.occludesParent) j := by
    intro j member
    rw [spares.activityHas (forest.displayOf?_of_mem_activities placed member)]
    by_cases starts : starting = some j
    · obtain ⟨r, held, runs⟩ := exists_of_activityHas (begun j starts)
      simp [Hierarchy.activityHas, held, runs]
    · have other : (some j == starting) = false := by simpa using Ne.symm starts
      simp only [other, Option.some_beq_none]
  unfold Hierarchy.isTranslucent
  rw [spares.activities forest forest' placed]
  congr 1
  rw [Bool.eq_iff_iff, List.any_eq_true, List.any_eq_true]
  exact exists_congr fun j => and_congr_right fun member => by rw [covers j member]

theorem isOpaque (placed : h.displayOf? k = some display) :
    h'.isOpaque k none = h.isOpaque k starting := by
  rw [Hierarchy.isOpaque, Hierarchy.isOpaque, spares.hasRunningActivity forest forest' placed,
    spares.isTranslucent forest forest' begun placed]

theorem coversAll {ks : List NodeId} (placed : ∀ k ∈ ks, h.displayOf? k = some display)
    (bounds : Rect) (partners : List NodeId) :
    h'.coversAll none bounds partners ks = h.coversAll starting bounds partners ks := by
  induction ks generalizing partners with
  | nil => rfl
  | cons k below ih =>
    obtain ⟨here, placed⟩ := List.forall_mem_cons.mp placed
    simp only [Hierarchy.coversAll, spares.activity? here,
      spares.isOpaque forest forest' begun here, spares.bounds forest forest' here,
      spares.adjacent? here, ih placed]

theorem coversRoots {ks : List NodeId} (placed : ∀ k ∈ ks, h.displayOf? k = some display)
    (partners : List NodeId) :
    h'.coversRoots none partners ks = h.coversRoots starting partners ks := by
  induction ks generalizing partners with
  | nil => rfl
  | cons k below ih =>
    obtain ⟨here, placed⟩ := List.forall_mem_cons.mp placed
    simp only [Hierarchy.coversRoots, spares.isOpaque forest forest' begun here,
      spares.mode forest forest' here, spares.adjacent? here, ih placed]

theorem isRootTaskUncovered (placed : h.displayOf? k = some display) :
    h'.isRootTaskUncovered k none = h.isRootTaskUncovered k starting := by
  unfold Hierarchy.isRootTaskUncovered
  rw [spares.mode forest forest' placed, spares.parent? placed]
  cases above : h.parent? k with
  | none => rfl
  | some area =>
    have onDisplay := (forest.displayOf?_of_parent above).symm.trans placed
    dsimp only
    rw [spares.siblingsAbove onDisplay, spares.coversRoots forest forest' begun]
    exact fun j higher =>
      forest.displayOf?_of_mem_children onDisplay (mem_of_mem_siblingsAbove higher)

theorem isUncovered {above : List NodeId}
    (placed : ∀ j ∈ k :: above, h.displayOf? j = some display) :
    h'.isUncovered none k above = h.isUncovered starting k above := by
  induction above generalizing k with
  | nil => rfl
  | cons parent further ih =>
    obtain ⟨here, placed⟩ := List.forall_mem_cons.mp placed
    have around := placed parent List.mem_cons_self
    have covered : h'.isCoveredBySiblings parent k none =
        h.isCoveredBySiblings parent k starting := by
      rw [isCoveredBySiblings, isCoveredBySiblings, spares.bounds forest forest' around,
        spares.siblingsAbove around, spares.coversAll forest forest' begun]
      exact fun j higher =>
        forest.displayOf?_of_mem_children around (mem_of_mem_siblingsAbove higher)
    simp only [Hierarchy.isUncovered, spares.area? around, spares.isFragmentLike around, covered,
      spares.isRootTaskUncovered forest forest' begun here, ih placed]

theorem shouldBeVisible (placed : h.displayOf? k = some display) :
    h'.shouldBeVisible k none = h.shouldBeVisible k starting := by
  have counts : (h.hasRunningActivity k || starting.any (h.isDescendantOf · k)) =
      h.hasRunningActivity k := by
    cases starts : starting with
    | none => simp
    | some x =>
      cases within : h.isDescendantOf x k with
      | false => simp [within]
      | true =>
        have runs : h.hasRunningActivity k = true := forest.hasRunningActivity_iff.mpr
          ⟨x, .inr (forest.isDescendantOf_iff.mp within), begun x starts⟩
        simp [runs]
  rw [Hierarchy.shouldBeVisible, Hierarchy.shouldBeVisible, counts,
    spares.hasRunningActivity forest forest' placed, Option.any_none, Bool.or_false,
    spares.ancestors forest forest' placed,
    spares.isUncovered forest forest' begun fun j => forest.displayOf?_above placed]

end Spares
end WindowHost.Hierarchy

namespace WindowHost.Visibility
open Hierarchy
variable {locked : DisplayId → Bool} {p p' : VisibilityParams} {S : NodeId → Prop}
  {h h' : Hierarchy} {display k : NodeId} {starting : Option NodeId}

theorem Alike.verdicts (alike : Alike locked p p' S h h') (here : S k)
    (within : ∀ j ∈ (h.contents k).ids, S j) (contents : h'.contents k = h.contents k) :
    (verdicts locked p' h' k).map Verdict.outcome =
      (verdicts locked p h k).map Verdict.outcome := by
  unfold Visibility.verdicts
  rw [alike.container k here, contents]
  split
  · obtain ⟨b, looks⟩ := alike.looks k here
    let c := Container.look locked p h k
    have walked := alike.survey (h.contents k) c (c.begin { hierarchy := h } false)
      { hierarchy := h' } b rfl rfl rfl (alike.top k here) (by simp [Noted, Container.begin]) within
    rw [← alike.begin false rfl { hierarchy := h' } { hierarchy := h }, ← looks] at walked
    exact walked.2.1
  · rfl

theorem Alike.displayVerdicts (alike : Alike locked p p' S h h')
    (roots : h'.rootTasks display = h.rootTasks display)
    (here : ∀ k ∈ h.rootTasks display, S k ∧ (∀ j ∈ (h.contents k).ids, S j) ∧
      h'.contents k = h.contents k) :
    (displayVerdicts locked p' h' display).map Verdict.outcome =
      (displayVerdicts locked p h display).map Verdict.outcome := by
  rw [Visibility.displayVerdicts, Visibility.displayVerdicts, List.map_flatMap, List.map_flatMap,
    roots]
  refine List.flatMap_congr fun k member => ?_
  obtain ⟨itself, within, contents⟩ := here k member
  exact alike.verdicts itself within contents

section
variable (spares : Spares h h' display) (forest : Forest h) (forest' : Forest h')
  (begun : ∀ x, starting = some x → h.activityHas ActivityRecord.isRunning x = true)
include spares forest forest' begun

theorem look_of_spares (locked : DisplayId → Bool) (placed : h.displayOf? k = some display) :
    ∃ b, Container.look locked {} h' k =
      { Container.look locked { starting := starting } h k with
        params := {}, resumesTop := b } := by
  have named : h'.displayId? display = h.displayId? display := by
    have itself := displayOf?_self (isSome_display?_of_displayOf? placed)
    rw [displayId?, displayId?, display?, display?, spares.data? itself]
  refine ⟨(Container.look locked {} h' k).resumesTop, ?_⟩
  simp only [Container.look, spares.topRunningActivity? forest forest' placed,
    spares.shouldBeVisible forest forest' begun placed, spares.displayOf? forest forest' placed,
    placed, Option.bind_some, named, spares.activityType forest forest' placed,
    spares.bounds forest forest' placed]

theorem alike_of_spares (locked : DisplayId → Bool) (paired : Paired h) :
    Alike locked { starting := starting } {} (fun k => h.displayOf? k = some display) h h' where
  changes := rfl
  container _ := spares.isFragmentLike
  runs _ := spares.hasRunningActivity forest forest'
  activity _ := spares.activity?
  adjacent _ := spares.adjacent?
  bounds _ := spares.bounds forest forest'
  lets _ := spares.isTranslucent forest forest' begun
  rootOfTask _ := spares.isRootOfTask forest forest'
  within j _ placed _ := by
    rw [isDescendantOf, isDescendantOf, spares.ancestors forest forest' placed]
  looks _ := look_of_spares spares forest forest' begun locked
  top _ placed _ top :=
    forest.displayOf?_of_mem_activities placed (List.mem_of_find?_eq_some top)
  pairs j k placed _ joined x other := by
    rw [(paired j k joined).2, Option.some.injEq] at other
    exact other ▸ placed

/-- A pass finds on a spared display what it found there before. -/
theorem outcomes_of_spares (locked : DisplayId → Bool) (paired : Paired h)
    (shown : (h.display? display).isSome = true) :
    (displayVerdicts locked {} h' display).map Verdict.outcome =
      (displayVerdicts locked { starting := starting } h display).map Verdict.outcome := by
  have alike := alike_of_spares spares forest forest' begun locked paired
  refine alike.displayVerdicts (spares.rootTasks forest (displayOf?_self shown)) fun k member => ?_
  have placed := forest.displayOf?_of_inside shown (forest.inside_of_mem_rootTasks member)
  exact ⟨placed, fun j => forest.displayOf?_of_mem_contents placed,
    spares.contents forest forest' placed⟩

end

end WindowHost.Visibility
