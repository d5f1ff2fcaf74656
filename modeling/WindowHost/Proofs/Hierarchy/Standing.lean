import WindowHost.Proofs.Hierarchy.Reachable

/-! What becomes of a task while it is moved and cleared. Moves keep every node, and clearing a task
takes activities alone, so an activity can still be added to it afterwards. -/
namespace WindowHost.Hierarchy
variable {h h' : Hierarchy} {j k p c : NodeId} {i : TaskId} {position : Position}

theorem isActivity_eq_true_iff : h.isActivity k = true ↔ h.tag? k = some .activity := by
  cases found : h.data? k with
  | none => simp [isActivity, activity?, tag?, found]
  | some data =>
    cases data <;> simp [isActivity, activity?, tag?, found, NodeData.activity?, NodeData.tag]

theorem isTask_eq_true_iff : h.isTask k = true ↔ ∃ i, h.tag? k = some (.task i) := by
  simp [isTask, Option.isSome_iff_exists, tag?_eq_task_iff]

theorem contains_of_isTask (task : h.isTask k = true) : h.contains k = true := by
  obtain ⟨i, held⟩ := isTask_eq_true_iff.mp task
  simp [contains_eq_isSome_tag?, held]

theorem isTask_of_data? (same : h'.data? k = h.data? k) (task : h.isTask k = true) :
    h'.isTask k = true := by
  rwa [isTask, task?, same]

theorem isSome_area?_iff : (h.area? k).isSome = true ↔ h.tag? k = some .area := by
  cases found : h.data? k with
  | none => simp [area?, tag?, found]
  | some d => cases d <;> simp [area?, tag?, found, NodeData.area?, NodeData.tag]

section
variable (same : h'.tag? k = h.tag? k)
include same

theorem isActivity_congr : h'.isActivity k = h.isActivity k := by
  rw [Bool.eq_iff_iff, isActivity_eq_true_iff, isActivity_eq_true_iff, same]

theorem isTask_congr : h'.isTask k = h.isTask k := by
  rw [Bool.eq_iff_iff, isTask_eq_true_iff, isTask_eq_true_iff, same]

theorem isSome_area?_congr : (h'.area? k).isSome = (h.area? k).isSome := by
  rw [Bool.eq_iff_iff, isSome_area?_iff, isSome_area?_iff, same]

end

theorem tag?_reorder (h : Hierarchy) (c : NodeId) (position : Position) (k : NodeId) :
    (h.reorder c position).tag? k = h.tag? k := by
  unfold reorder
  split
  · rfl
  · rw [tag?_link, tag?_unlink]

theorem tag?_raise (h : Hierarchy) (c k : NodeId) : (h.raise c).1.tag? k = h.tag? k := by
  unfold raise
  split
  · rfl
  · split
    · rfl
    · exact tag?_reorder h c .top k

theorem tag?_raiseWithin (above : List NodeId) (k : NodeId) :
    ∀ (h : Hierarchy) (c : NodeId), (h.raiseWithin c above).1.tag? k = h.tag? k := by
  induction above with
  | nil => exact fun _ _ => rfl
  | cons parent further ih =>
    intro h c
    rw [raiseWithin]
    dsimp only
    split
    · exact (ih _ parent).trans (tag?_raise h c k)
    · exact tag?_raise h c k

theorem tag?_moveDisplayToTop (h : Hierarchy) (display k : NodeId) :
    (h.moveDisplayToTop display).1.tag? k = h.tag? k := by
  unfold moveDisplayToTop
  split <;> rfl

theorem tag?_moveTaskToFront (h : Hierarchy) (c k : NodeId) :
    (h.moveTaskToFront c).1.tag? k = h.tag? k := by
  unfold moveTaskToFront
  dsimp only
  split
  · exact tag?_raiseWithin _ k h c
  · exact (tag?_moveDisplayToTop ..).trans (tag?_raiseWithin _ k h c)

theorem tag?_reparent (moved : h.reparent c p position = .ok h') (k : NodeId) :
    h'.tag? k = h.tag? k := by
  obtain ⟨_, placed⟩ := reparent_eq_ok_iff.mp moved
  obtain ⟨_, _, _, _, _, _, _, _, _, _, rfl⟩ := attach_eq_ok_iff.mp placed
  rw [tag?_link, tag?_unlink]

theorem WellFormed.moveTaskToFront (formed : h.WellFormed) (c : NodeId) :
    (h.moveTaskToFront c).1.WellFormed :=
  formed.changes (changes_moveTaskToFront h c)

theorem WellFormed.reparent (formed : h.WellFormed) (moved : h.reparent c p position = .ok h') :
    h'.WellFormed := by
  obtain ⟨_, placed⟩ := reparent_eq_ok_iff.mp moved
  exact (formed.unlink c).attach placed

/-- Nothing lies in an activity. -/
theorem Forest.childless_of_activity (forest : Forest h) (leaf : h.tag? k = some .activity) :
    h.children k = [] := by
  apply List.eq_nil_iff_forall_not_mem.mpr
  intro c member
  obtain ⟨outer, inner, found, _, allowed⟩ := forest.kinds (forest.child member).2
  rw [tag?, found, Option.map_some, Option.some.injEq] at leaf
  rw [NodeData.canContain_eq_holds, leaf] at allowed
  contradiction

theorem Forest.ids_subtree_of_childless (forest : Forest h) (live : h.contains k = true)
    (childless : h.children k = []) : (h.subtree k).ids = [k] := by
  have empty : h.contents k = .nil :=
    Layers.eq_nil_of_tops (by rw [(forest.faithful_contents k).1, childless, List.reverse_nil])
  simp [subtree, live, empty, Layers.ids]

theorem tag?_createTask {spec : TaskSpec} (live : h.contains j = true)
    (made : h.createTask p spec position = .ok (h', k)) : h'.tag? j = h.tag? j := by
  obtain ⟨_, added, rfl, _⟩ := createTask_eq_ok_iff.mp made
  obtain ⟨_, _, _, _, _, rfl⟩ := insertUnder_eq_ok_iff.mp added
  exact (tag?_link ..).trans (tag?_insert_of_contains live)

/-- A task takes every activity. -/
theorem exists_addActivity (held : h.tag? p = some (.task i)) (record : ActivityRecord)
    (position : Position) : ∃ grown, h.addActivity p record position = .ok grown := by
  obtain ⟨outer, found, same⟩ := Option.map_eq_some_iff.mp held
  have allowed : outer.canContain (.activity record) = true := by
    rw [NodeData.canContain_eq_holds, same]
    rfl
  have added : h.insertUnder p (.activity record) position =
      .ok ((h.insert (.activity record)).link p h.nextId position) :=
    insertUnder_eq_ok_iff.mpr ⟨outer, found, allowed, by simp [checkPinnedRoot, NodeData.task?],
      by simp [checkPinnedGuest, NodeData.task?], rfl⟩
  exact ⟨(_, h.nextId), addActivity_eq_ok_iff.mpr ⟨added, rfl⟩⟩

end WindowHost.Hierarchy
