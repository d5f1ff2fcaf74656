import Mathlib.Data.List.Nodup
import WindowHost.Hierarchy.Navigation
import WindowHost.Proofs.Hierarchy.Stack

/-! The root tasks of a display: all lie two levels below it, so none lies in another one, and
every task, fragment or activity on the display lies in one of them. -/
namespace WindowHost.Hierarchy
variable {h : Hierarchy} {display root k p x : NodeId}

theorem mem_rootTasks : root ∈ h.rootTasks display ↔
    h.isTask root = true ∧ ∃ area ∈ h.children display, root ∈ h.children area := by
  simp only [rootTasks, List.mem_flatMap, List.mem_reverse, List.mem_filter]
  grind

theorem mem_rootTasks_of_focusedRootTask?
    (focus : h.focusedRootTask? display = some root) : root ∈ h.rootTasks display := by
  unfold focusedRootTask? at focus
  rcases Option.or_eq_some_iff.mp focus with found | ⟨_, first⟩
  · exact (List.mem_filter.mp (List.mem_of_find?_eq_some found)).1
  · exact (List.mem_filter.mp (List.mem_of_head? first)).1

/-- Displays hold areas, and nothing else holds any. -/
theorem Fits.isSome_area? (fits : Fits h p k) : (h.area? k).isSome = (h.display? p).isSome := by
  obtain ⟨outer, inner, foundOuter, foundInner, allowed⟩ := fits
  cases outer <;> cases inner <;>
    simp_all [display?, area?, NodeData.display?, NodeData.area?, NodeData.canContain]

theorem isSome_display?_of_displayOf? (placed : h.displayOf? x = some display) :
    (h.display? display).isSome = true := by
  have shown := List.find?_some placed
  exact shown

namespace Forest
variable (forest : Forest h)
include forest

theorem nodup_ids_contents (k : NodeId) : (h.contents k).ids.Nodup := by
  obtain ⟨shown, faithful⟩ := forest.faithful_contents k
  refine forest.nodup_ids faithful ?_ ?_
  · rw [shown]
    exact List.nodup_reverse.mpr (forest.nodup_children k)
  · rw [shown]
    intro s left t right
    exact forest.apart_children k s (List.mem_reverse.mp left) t (List.mem_reverse.mp right)

theorem length_ancestors_of_inside {a : NodeId} (inside : Inside h x a) :
    (h.ancestors a).length < (h.ancestors x).length := by
  induction inside with
  | child placed =>
    rw [forest.ancestors_of_parent placed]
    exact Nat.lt_succ_self _
  | deeper placed _ ih =>
    rw [forest.ancestors_of_parent placed]
    exact Nat.lt_succ_of_lt ih

theorem ancestors_of_mem_rootTasks (member : root ∈ h.rootTasks display) :
    ∃ area, h.ancestors root = area :: display :: h.ancestors display := by
  obtain ⟨_, area, onDisplay, inArea⟩ := mem_rootTasks.mp member
  refine ⟨area, ?_⟩
  rw [forest.ancestors_of_parent (forest.child inArea).2,
    forest.ancestors_of_parent (forest.child onDisplay).2]

theorem inside_of_mem_rootTasks (member : root ∈ h.rootTasks display) : Inside h root display := by
  obtain ⟨_, area, onDisplay, inArea⟩ := mem_rootTasks.mp member
  exact .deeper (forest.child inArea).2 (.child (forest.child onDisplay).2)

theorem nodup_rootTasks (display : NodeId) : (h.rootTasks display).Nodup := by
  refine List.nodup_flatMap.mpr ⟨fun area _ => ?_, ?_⟩
  · exact (List.nodup_reverse.mpr (forest.nodup_children area)).filter _
  · apply (List.nodup_reverse.mpr (forest.nodup_children display)).imp
    intro a b apart t left right
    have under := (forest.child (List.mem_reverse.mp (List.mem_filter.mp left).1)).2
    have under' := (forest.child (List.mem_reverse.mp (List.mem_filter.mp right).1)).2
    exact apart (Option.some.inj (under.symm.trans under'))

/-- No node lies in two root tasks of a display. -/
theorem rootTask_unique {root' : NodeId} (member : root ∈ h.rootTasks display)
    (member' : root' ∈ h.rootTasks display) (inside : Inside h x root)
    (inside' : Inside h x root') : root = root' := by
  obtain ⟨_, level⟩ := forest.ancestors_of_mem_rootTasks member
  obtain ⟨_, level'⟩ := forest.ancestors_of_mem_rootTasks member'
  have same : (h.ancestors root).length = (h.ancestors root').length := by
    rw [level, level', List.length_cons, List.length_cons, List.length_cons, List.length_cons]
  rcases inside.comparable inside' with equal | up | down
  · exact equal
  · exact absurd (forest.length_ancestors_of_inside up) (by omega)
  · exact absurd (forest.length_ancestors_of_inside down) (by omega)

theorem lineage_of_parent (placed : h.parent? k = some p) : h.lineage k = k :: h.lineage p := by
  rw [lineage, lineage, if_pos (contains_of_parent? placed),
    if_pos (forest.contains_parent placed), forest.ancestors_of_parent placed]

/-- A display lies in nothing. -/
theorem display?_of_parent (placed : h.parent? k = some p) : h.display? k = none := by
  obtain ⟨outer, inner, _, found, allowed⟩ := forest.kinds placed
  cases outer <;> cases inner <;> simp_all [display?, NodeData.display?, NodeData.canContain]

theorem isSome_area?_of_parent (placed : h.parent? k = some p) :
    (h.area? k).isSome = (h.display? p).isSome :=
  (forest.kinds placed).isSome_area?

theorem isTask_of_parent (placed : h.parent? k = some p) (area : (h.area? p).isSome = true) :
    h.isTask k = true := by
  obtain ⟨outer, inner, foundOuter, foundInner, allowed⟩ := forest.kinds placed
  cases outer <;> cases inner <;>
    simp_all [isTask, task?, area?, NodeData.task?, NodeData.area?, NodeData.canContain]

theorem exists_area_of_mem_rootTasks (shown : (h.display? display).isSome = true)
    (member : root ∈ h.rootTasks display) :
    ∃ area, h.parent? root = some area ∧ (h.area? area).isSome = true := by
  obtain ⟨_, area, onDisplay, inArea⟩ := mem_rootTasks.mp member
  exact ⟨area, (forest.child inArea).2,
    (forest.isSome_area?_of_parent (forest.child onDisplay).2).trans shown⟩

theorem isRootTask_of_mem_rootTasks (shown : (h.display? display).isSome = true)
    (member : root ∈ h.rootTasks display) : h.isRootTask root = true := by
  obtain ⟨area, under, isArea⟩ := forest.exists_area_of_mem_rootTasks shown member
  rw [isRootTask, (mem_rootTasks.mp member).1, under, Option.bind_some, isArea]
  rfl

theorem displayOf?_of_parent (placed : h.parent? k = some p) : h.displayOf? k = h.displayOf? p := by
  rw [displayOf?, displayOf?, forest.lineage_of_parent placed,
    List.find?_cons_of_neg (by simp [forest.display?_of_parent placed])]

theorem displayOf?_eq_of_inside (inside : Inside h x k) : h.displayOf? x = h.displayOf? k := by
  induction inside with
  | child placed => exact forest.displayOf?_of_parent placed
  | deeper placed _ ih => exact (forest.displayOf?_of_parent placed).trans ih

theorem displayOf?_of_inside (shown : (h.display? display).isSome = true)
    (inside : Inside h x display) : h.displayOf? x = some display := by
  rw [forest.displayOf?_eq_of_inside inside, displayOf?, lineage,
    if_pos (forest.contains_of_inside inside)]
  exact List.find?_cons_of_pos (by simpa using shown)

theorem inside_of_displayOf? (found : h.displayOf? x = some display)
    (plain : h.display? x = none) : Inside h x display := by
  have shown := isSome_display?_of_displayOf? found
  have listed := List.mem_of_find?_eq_some found
  rw [lineage] at listed
  split at listed
  · rcases List.mem_cons.mp listed with rfl | above
    · rw [plain] at shown
      contradiction
    · exact forest.mem_ancestors.mp above
  · contradiction

/-- A display area lies in its display and in nothing else. -/
theorem parent_of_area {area : DisplayArea} (held : h.area? k = some area)
    (inside : Inside h k p) : h.parent? k = some p := by
  cases inside with
  | child placed => exact placed
  | @deeper _ q _ placed further =>
    have shown := forest.isSome_area?_of_parent placed
    obtain ⟨_, above⟩ := further.parent
    rw [held, forest.display?_of_parent above] at shown
    contradiction

/-- All that lies on a display, its areas apart, lies in a root task of it or is one. -/
theorem exists_rootTask (shown : (h.display? display).isSome = true)
    (inside : Inside h x display) (plain : h.area? x = none) :
    ∃ root ∈ h.rootTasks display, x = root ∨ Inside h x root := by
  induction inside with
  | child placed =>
    have area := forest.isSome_area?_of_parent placed
    rw [plain, shown] at area
    contradiction
  | @deeper x q display placed further ih =>
    cases within : h.area? q with
    | none =>
      obtain ⟨root, member, same | deep⟩ := ih shown within
      · exact ⟨root, member, .inr (same ▸ .child placed)⟩
      · exact ⟨root, member, .inr (.deeper placed deep)⟩
    | some area =>
      have onDisplay : h.parent? q = some display := forest.parent_of_area within further
      have task := forest.isTask_of_parent placed (by simp [within])
      exact ⟨x, mem_rootTasks.mpr ⟨task, q, forest.mem_children_iff.mpr onDisplay,
        forest.mem_children_iff.mpr placed⟩, .inl rfl⟩

/-- Every activity on a display lies in a root task of it. -/
theorem exists_rootTask_of_activity {r : ActivityRecord} (placed : h.displayOf? x = some display)
    (held : h.activity? x = some r) : ∃ root ∈ h.rootTasks display, Inside h x root := by
  have other : h.display? x = none ∧ h.area? x = none ∧ h.isTask x = false := by
    cases found : h.data? x with
    | none => simp [activity?, found] at held
    | some d => cases d <;> simp_all [activity?, display?, area?, isTask, task?,
        NodeData.activity?, NodeData.display?, NodeData.area?, NodeData.task?]
  obtain ⟨plain, placeable, small⟩ := other
  have shown := isSome_display?_of_displayOf? placed
  obtain ⟨root, member, rfl | within⟩ :=
    forest.exists_rootTask shown (forest.inside_of_displayOf? placed plain) placeable
  · rw [(mem_rootTasks.mp member).1] at small
    contradiction
  · exact ⟨root, member, within⟩

end Forest
end WindowHost.Hierarchy
