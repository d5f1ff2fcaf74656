import WindowHost.Proofs.Hierarchy.Standing

/-! Records and parents while nodes come, move and go. Moves leave every record alone, raising
leaves every parent alone, a removal takes the records of what it removes, and keys only
ever grow. -/
namespace WindowHost.Hierarchy
variable {h h' h'' : Hierarchy} {c j k p : NodeId} {position : Position} {r : ActivityRecord}

theorem activity?_of_data? (same : h'.data? k = h.data? k) : h'.activity? k = h.activity? k :=
  congrArg (Option.bind · NodeData.activity?) same

theorem contains_of_activity? (held : h.activity? k = some r) : h.contains k = true := by
  obtain ⟨d, found, _⟩ := Option.bind_eq_some_iff.mp held
  exact contains_of_data? found

theorem contains_congr (same : h'.data? k = h.data? k) : h'.contains k = h.contains k := by
  rw [contains_eq_isSome_data?, contains_eq_isSome_data?, same]

theorem exists_of_activityHas {q : ActivityRecord → Bool} (held : h.activityHas q k = true) :
    ∃ r, h.activity? k = some r ∧ q r = true :=
  (Option.any_eq_true ..).mp held

theorem exists_of_topRunningActivity? (top : h.topRunningActivity? c = some k) :
    ∃ r, h.activity? k = some r ∧ r.isRunning = true :=
  exists_of_activityHas (List.find?_some top)

theorem activity?_modifyActivity (h : Hierarchy) (k : NodeId)
    (f : ActivityRecord → ActivityRecord) (j : NodeId) :
    (h.modifyActivity k f).activity? j =
      if j = k then (h.activity? j).map f else h.activity? j := by
  rw [modifyActivity, activity?, activity?, data?_modifyData]
  split
  · cases h.data? j with
    | none => rfl
    | some d => cases d <;> rfl
  · rfl

theorem data?_reorder (h : Hierarchy) (c : NodeId) (position : Position) (j : NodeId) :
    (h.reorder c position).data? j = h.data? j := by
  unfold reorder
  split
  · rfl
  · rw [data?_link, data?_unlink]

theorem data?_raise (h : Hierarchy) (c j : NodeId) : (h.raise c).1.data? j = h.data? j := by
  unfold raise
  split
  · rfl
  split
  · rfl
  · exact data?_reorder h c .top j

theorem data?_raiseWithin (above : List NodeId) (j : NodeId) :
    ∀ (h : Hierarchy) (c : NodeId), (h.raiseWithin c above).1.data? j = h.data? j := by
  induction above with
  | nil => exact fun _ _ => rfl
  | cons parent further ih =>
    intro h c
    rw [raiseWithin]
    dsimp only
    split
    · exact (ih _ parent).trans (data?_raise h c j)
    · exact data?_raise h c j

theorem data?_moveDisplayToTop (h : Hierarchy) (display j : NodeId) :
    (h.moveDisplayToTop display).1.data? j = h.data? j := by
  unfold moveDisplayToTop
  split <;> rfl

theorem data?_moveTaskToFront (h : Hierarchy) (c j : NodeId) :
    (h.moveTaskToFront c).1.data? j = h.data? j := by
  unfold moveTaskToFront
  dsimp only
  split
  · exact data?_raiseWithin _ j h c
  · exact (data?_moveDisplayToTop ..).trans (data?_raiseWithin _ j h c)

theorem data?_reparent (moved : h.reparent c p position = .ok h') (j : NodeId) :
    h'.data? j = h.data? j := by
  obtain ⟨_, placed⟩ := reparent_eq_ok_iff.mp moved
  obtain ⟨_, _, _, _, _, _, _, _, _, _, rfl⟩ := attach_eq_ok_iff.mp placed
  rw [data?_link, data?_unlink]

theorem parent?_reorder (h : Hierarchy) (k : NodeId) (position : Position) (j : NodeId) :
    (h.reorder k position).parent? j = h.parent? j := by
  unfold reorder
  cases placed : h.parent? k with
  | none => rfl
  | some p =>
    dsimp only
    rw [parent?_link, parent?_unlink, contains_unlink, contains_of_parent? placed]
    by_cases same : j = k <;> simp [same, placed]

theorem parent?_raise (h : Hierarchy) (k j : NodeId) :
    (h.raise k).1.parent? j = h.parent? j := by
  unfold raise
  split
  · rfl
  split
  · rfl
  · exact parent?_reorder h k .top j

theorem parent?_raiseWithin (above : List NodeId) (j : NodeId) :
    ∀ (h : Hierarchy) (k : NodeId), (h.raiseWithin k above).1.parent? j = h.parent? j := by
  induction above with
  | nil => exact fun _ _ => rfl
  | cons parent further ih =>
    intro h k
    rw [raiseWithin]
    dsimp only
    split
    · exact (ih _ parent).trans (parent?_raise h k j)
    · exact parent?_raise h k j

theorem parent?_moveDisplayToTop (h : Hierarchy) (display j : NodeId) :
    (h.moveDisplayToTop display).1.parent? j = h.parent? j := by
  unfold moveDisplayToTop
  split <;> rfl

theorem parent?_moveTaskToFront (h : Hierarchy) (k j : NodeId) :
    (h.moveTaskToFront k).1.parent? j = h.parent? j := by
  unfold moveTaskToFront
  dsimp only
  split
  · exact parent?_raiseWithin _ j h k
  · exact (parent?_moveDisplayToTop ..).trans (parent?_raiseWithin _ j h k)

theorem parent?_reparent (moved : h.reparent c p position = .ok h') (other : j ≠ c) :
    h'.parent? j = h.parent? j := by
  obtain ⟨_, placed⟩ := reparent_eq_ok_iff.mp moved
  obtain ⟨_, _, _, _, _, _, _, _, _, _, rfl⟩ := attach_eq_ok_iff.mp placed
  rw [parent?_link, if_neg (by simp [other]), parent?_unlink, if_neg other]

theorem parent?_insertUnder {data : NodeData} (added : h.insertUnder p data position = .ok h')
    (other : j ≠ h.nextId) : h'.parent? j = h.parent? j := by
  obtain ⟨_, _, _, _, _, rfl⟩ := insertUnder_eq_ok_iff.mp added
  rw [parent?_link, if_neg (by simp [other]), parent?_insert]

theorem parent?_new_insertUnder {data : NodeData}
    (added : h.insertUnder p data position = .ok h') : h'.parent? h.nextId = some p := by
  obtain ⟨_, _, _, _, _, rfl⟩ := insertUnder_eq_ok_iff.mp added
  rw [parent?_link, if_pos ⟨rfl, by simp [contains_eq_isSome_data?, data?_insert]⟩]

theorem data?_insertUnder {data : NodeData} (added : h.insertUnder p data position = .ok h')
    (j : NodeId) : h'.data? j = if j = h.nextId then some data else h.data? j := by
  obtain ⟨_, _, _, _, _, rfl⟩ := insertUnder_eq_ok_iff.mp added
  rw [data?_link, data?_insert]

theorem data?_createTask {spec : TaskSpec} (made : h.createTask p spec position = .ok (h', k))
    (j : NodeId) : h'.data? j =
      if j = k then some (.task { spec with id := h.nextTaskId }) else h.data? j := by
  obtain ⟨_, added, rfl, rfl⟩ := createTask_eq_ok_iff.mp made
  exact data?_insertUnder added j

theorem parent?_new_createTask {spec : TaskSpec}
    (made : h.createTask p spec position = .ok (h', k)) : h'.parent? k = some p := by
  obtain ⟨grown, added, rfl, rfl⟩ := createTask_eq_ok_iff.mp made
  have placed : grown.parent? h.nextId = some p := parent?_new_insertUnder added
  exact placed

theorem data?_addActivity (added : h.addActivity p r position = .ok (h', k)) (j : NodeId) :
    h'.data? j = if j = k then some (.activity r) else h.data? j := by
  obtain ⟨grown, rfl⟩ := addActivity_eq_ok_iff.mp added
  exact data?_insertUnder grown j

theorem activity?_addActivity (added : h.addActivity p r position = .ok (h', k)) (j : NodeId) :
    h'.activity? j = if j = k then some r else h.activity? j := by
  rw [activity?, data?_addActivity added]
  split <;> rfl

section blind
variable {α : Type} {f : NodeData → Option α}
  (blind : ∀ partner d, f (d.withAdjacent partner) = f d)
include blind

theorem bind_data?_withAdjacent (h : Hierarchy) (c : NodeId) (partner : Option NodeId)
    (j : NodeId) :
    ((h.modifyData c (NodeData.withAdjacent partner)).data? j).bind f = (h.data? j).bind f := by
  rw [data?_modifyData]
  split
  · cases h.data? j with
    | none => rfl
    | some d => exact blind partner d
  · rfl

theorem bind_data?_clearAdjacent (h : Hierarchy) (c j : NodeId) :
    ((h.clearAdjacent c).data? j).bind f = (h.data? j).bind f := by
  unfold clearAdjacent
  cases h.adjacent? c with
  | none => exact bind_data?_withAdjacent blind ..
  | some partner =>
    exact (bind_data?_withAdjacent blind ..).trans (bind_data?_withAdjacent blind ..)

theorem bind_data?_erase (h : Hierarchy) (c j : NodeId) :
    ((h.erase c).data? j).bind f = if j = c then none else (h.data? j).bind f := by
  rw [← bind_data?_clearAdjacent blind h c j]
  by_cases same : j = c <;> simp [data?, node?_erase, same]

theorem bind_data?_foldl_erase (ks : List NodeId) (j : NodeId) : ∀ h : Hierarchy,
    ((ks.foldl erase h).data? j).bind f = if j ∈ ks then none else (h.data? j).bind f := by
  induction ks with
  | nil => simp
  | cons k ks ih =>
    intro h
    rw [List.foldl_cons, ih, bind_data?_erase blind]
    by_cases later : j ∈ ks <;> by_cases now : j = k <;> simp [later, now]

theorem bind_data?_remove (h : Hierarchy) (k j : NodeId) :
    ((h.remove k).data? j).bind f =
      if j ∈ (h.subtree k).ids then none else (h.data? j).bind f := by
  rw [remove, bind_data?_foldl_erase blind, data?_unlink]

end blind

theorem activity?_remove (h : Hierarchy) (k j : NodeId) :
    (h.remove k).activity? j = if j ∈ (h.subtree k).ids then none else h.activity? j :=
  bind_data?_remove (fun _ d => by cases d <;> rfl) h k j

theorem next_link (h : Hierarchy) (p c : NodeId) (position : Position) :
    (h.link p c position).nodes.next = h.nodes.next :=
  (Arena.next_modify ..).trans (Arena.next_modify ..)

theorem next_unlink (h : Hierarchy) (c : NodeId) : (h.unlink c).nodes.next = h.nodes.next := by
  unfold unlink
  split
  · rfl
  · exact (Arena.next_modify ..).trans (Arena.next_modify ..)

theorem next_clearAdjacent (h : Hierarchy) (c : NodeId) :
    (h.clearAdjacent c).nodes.next = h.nodes.next := by
  unfold clearAdjacent
  split
  · exact Arena.next_modify ..
  · exact (Arena.next_modify ..).trans (Arena.next_modify ..)

theorem next_erase (h : Hierarchy) (c : NodeId) : (h.erase c).nodes.next = h.nodes.next :=
  Array.size_setIfInBounds.trans (next_clearAdjacent h c)

theorem next_remove (h : Hierarchy) (k : NodeId) : (h.remove k).nodes.next = h.nodes.next := by
  have erased : ∀ (ks : List NodeId) (h : Hierarchy),
      (ks.foldl erase h).nodes.next = h.nodes.next := by
    intro ks
    induction ks with
    | nil => exact fun _ => rfl
    | cons k ks ih => exact fun h => (ih _).trans (next_erase h k)
  exact (erased _ _).trans (next_unlink h k)

theorem next_insertUnder {data : NodeData} (added : h.insertUnder p data position = .ok h') :
    h'.nodes.next = h.nodes.next + 1 := by
  obtain ⟨_, _, _, _, _, rfl⟩ := insertUnder_eq_ok_iff.mp added
  rw [next_link]
  exact Array.size_push _

theorem next_reorder (h : Hierarchy) (c : NodeId) (position : Position) :
    (h.reorder c position).nodes.next = h.nodes.next := by
  unfold reorder
  split
  · rfl
  · exact (next_link ..).trans (next_unlink h c)

theorem next_raise (h : Hierarchy) (c : NodeId) : (h.raise c).1.nodes.next = h.nodes.next := by
  unfold raise
  split
  · rfl
  split
  · rfl
  · exact next_reorder h c .top

theorem next_raiseWithin (above : List NodeId) :
    ∀ (h : Hierarchy) (c : NodeId), (h.raiseWithin c above).1.nodes.next = h.nodes.next := by
  induction above with
  | nil => exact fun _ _ => rfl
  | cons parent further ih =>
    intro h c
    rw [raiseWithin]
    dsimp only
    split
    · exact (ih _ parent).trans (next_raise h c)
    · exact next_raise h c

theorem next_moveTaskToFront (h : Hierarchy) (c : NodeId) :
    (h.moveTaskToFront c).1.nodes.next = h.nodes.next := by
  have display : ∀ (h : Hierarchy) d, (h.moveDisplayToTop d).1.nodes.next = h.nodes.next := by
    intro h d
    unfold moveDisplayToTop
    split <;> rfl
  unfold moveTaskToFront
  dsimp only
  split
  · exact next_raiseWithin _ h c
  · exact (display ..).trans (next_raiseWithin _ h c)

theorem next_reparent (moved : h.reparent c p position = .ok h') :
    h'.nodes.next = h.nodes.next := by
  obtain ⟨_, placed⟩ := reparent_eq_ok_iff.mp moved
  obtain ⟨_, _, _, _, _, _, _, _, _, _, rfl⟩ := attach_eq_ok_iff.mp placed
  exact (next_link ..).trans (next_unlink h c)

end WindowHost.Hierarchy
