import WindowHost.Proofs.Hierarchy.Records

/-! Places of nodes, and what a call does to them: it takes some away, gives one to a new node, or
gives another one to a node that is there, and only the last two are checked. -/
namespace WindowHost.Hierarchy
variable {h h' h'' : Hierarchy} {c j k p : NodeId} {position : Position}

/-- The mode that a task has on its own account, and not by the task around it. -/
def ownMode? (h : Hierarchy) (k : NodeId) : Option WindowingMode :=
  (h.data? k).bind fun d => d.task?.map (·.mode)

theorem ownMode?_eq_map (h : Hierarchy) (k : NodeId) : h.ownMode? k = (h.task? k).map (·.mode) := by
  cases found : h.data? k <;> simp [ownMode?, task?, found]

theorem isTask_of_ownMode? {mode : WindowingMode} (own : h.ownMode? k = some mode) :
    h.isTask k = true := by
  rw [ownMode?_eq_map, Option.map_eq_some_iff] at own
  obtain ⟨t, held, _⟩ := own
  rw [isTask, held, Option.isSome_some]

/-- What has a place in `h'` has the same one in `h`, and its parent and it are what they were. -/
structure Thins (h h' : Hierarchy) : Prop where
  parent : ∀ {k p}, h'.parent? k = some p → h.parent? k = some p
  tag : ∀ {k p}, h'.parent? k = some p → h'.tag? k = h.tag? k
  parent_tag : ∀ {k p}, h'.parent? k = some p → h'.tag? p = h.tag? p
  ownMode : ∀ {k p}, h'.parent? k = some p → h'.ownMode? k = h.ownMode? k

theorem Thins.trans (first : Thins h h') (second : Thins h' h'') : Thins h h'' where
  parent placed := first.parent (second.parent placed)
  tag placed := (second.tag placed).trans (first.tag (second.parent placed))
  parent_tag placed := (second.parent_tag placed).trans (first.parent_tag (second.parent placed))
  ownMode placed := (second.ownMode placed).trans (first.ownMode (second.parent placed))

theorem thins_of_data? (parent : ∀ j, h'.parent? j = h.parent? j)
    (data : ∀ j, h'.data? j = h.data? j) : Thins h h' where
  parent placed := (parent _).symm.trans placed
  tag _ := by rw [tag?, tag?, data]
  parent_tag _ := by rw [tag?, tag?, data]
  ownMode _ := by rw [ownMode?, ownMode?, data]

theorem thins_unlink (h : Hierarchy) (c : NodeId) : Thins h (h.unlink c) where
  parent placed := (parent?_unlink_eq_some_iff.mp placed).2
  tag _ := tag?_unlink h c _
  parent_tag _ := tag?_unlink h c _
  ownMode _ := by rw [ownMode?, ownMode?, data?_unlink]

theorem Thins.of_sameFrame (frame : SameFrame h h') (own : ∀ k, h'.ownMode? k = h.ownMode? k) :
    Thins h h' where
  parent placed := (frame.parent _).symm.trans placed
  tag _ := frame.tag _
  parent_tag _ := frame.tag _
  ownMode _ := own _

theorem thins_clearAdjacent (h : Hierarchy) (k : NodeId) : Thins h (h.clearAdjacent k) :=
  .of_sameFrame (sameFrame_clearAdjacent h k)
    (bind_data?_clearAdjacent (fun _ d => by cases d <;> rfl) h k)

theorem thins_setAdjacent {a b : NodeId} (paired : h.setAdjacent a b = .ok h') : Thins h h' := by
  refine .of_sameFrame (sameFrame_setAdjacent paired) fun j => ?_
  obtain ⟨_, _, _, rfl⟩ := setAdjacent_eq_ok_iff.mp paired
  have blind : ∀ partner (d : NodeData),
      (d.withAdjacent partner).task?.map (·.mode) = d.task?.map (·.mode) :=
    fun partner d => by cases d <;> rfl
  exact (bind_data?_withAdjacent blind ..).trans <| (bind_data?_withAdjacent blind ..).trans <|
    (bind_data?_clearAdjacent blind ..).trans (bind_data?_clearAdjacent blind ..)

theorem Forest.thins_insert (forest : Forest h) (data : NodeData) : Thins h (h.insert data) := by
  have parent : ∀ {k p}, (h.insert data).parent? k = some p → h.parent? k = some p :=
    fun placed => (parent?_insert ..).symm.trans placed
  refine ⟨parent, fun placed => ?_, fun placed => ?_, fun placed => ?_⟩
  · exact tag?_insert_of_contains (contains_of_parent? (parent placed))
  · exact tag?_insert_of_contains (forest.contains_parent (parent placed))
  · rw [ownMode?, ownMode?, data?_insert,
      if_neg (ne_nextId_of_contains (contains_of_parent? (parent placed)))]

theorem Forest.thins_remove (forest : Forest h) (k : NodeId) : Thins h (h.remove k) := by
  have kept : ∀ {j p}, (h.remove k).parent? j = some p →
      j ∉ (h.subtree k).ids ∧ p ∉ (h.subtree k).ids ∧ h.parent? j = some p := by
    intro j p placed
    rw [parent?_remove] at placed
    split at placed
    · contradiction
    · refine ⟨‹_›, ?_, (parent?_unlink_eq_some_iff.mp placed).2⟩
      rwa [← forest.mem_subtree_iff_of_parent placed]
  refine ⟨fun placed => (kept placed).2.2, fun placed => ?_, fun placed => ?_, fun placed => ?_⟩
  · rw [tag?_remove, if_neg (kept placed).1]
  · rw [tag?_remove, if_neg (kept placed).2.1]
  · exact (bind_data?_remove (fun _ d => by cases d <;> rfl) h k _).trans (if_neg (kept placed).1)

/-- A new display is there before its first area comes. -/
theorem Forest.addDisplay_cases (forest : Forest h) (id : DisplayId) (bounds : Rect) :
    (h.addDisplay id bounds).1 = h ∨ ∃ g data position, Forest g ∧ Thins h g ∧
      g.insertUnder h.nextId data position = .ok (h.addDisplay id bounds).1 := by
  cases taken : h.displayWithId? id with
  | some k => exact .inl (by simp [addDisplay, taken])
  | none =>
    let display : NodeData := .display { id := id, bounds := bounds }
    let shown : Hierarchy := { h.insert display with displays := h.displays ++ [h.nextId] }
    have thins : Thins h shown :=
      (forest.thins_insert display).trans (thins_of_data? (fun _ => rfl) fun _ => rfl)
    refine .inr ⟨shown, .area { name := "DefaultTaskDisplayArea" }, .top,
      (forest.insert display).congr (fun _ => rfl) (fun _ => rfl) (fun _ => rfl), thins, ?_⟩
    refine insertUnder_eq_ok_iff.mpr ⟨display, (data?_insert ..).trans (if_pos rfl), rfl,
      by simp [checkPinnedRoot, NodeData.task?], by simp [checkPinnedGuest, NodeData.task?], ?_⟩
    simp only [addDisplay, taken, shown, display]
    rfl

/-- What a call does to places. It takes some away, gives one to a new node, or gives a node that
is there another one, which goes before it by a check of the two nodes. -/
theorem mutate_induct {motive : Hierarchy → Prop} (formed : h.WellFormed) (call : Mutation)
    (start : motive h) (thin : ∀ {g g'}, motive g → Thins g g' → motive g')
    (grow : ∀ {g g' p data position}, Forest g → motive g →
      g.insertUnder p data position = .ok g' → motive g')
    (place : ∀ {p c position}, (h.unlink c).attach p c position = .ok (h.mutate call) →
      motive (h.mutate call)) :
    motive (h.mutate call) := by
  have task : ∀ {g g' : Hierarchy} {p k spec position}, Forest g → motive g →
      g.createTask p spec position = .ok (g', k) → motive g' := by
    intro g g' p k spec position forest before made
    obtain ⟨grown, added, rfl, _⟩ := createTask_eq_ok_iff.mp made
    exact thin (grow forest before added) (thins_of_data? (fun _ => rfl) fun _ => rfl)
  have forest := formed.forest
  cases call with
  | addDisplay id bounds =>
    rcases forest.addDisplay_cases id bounds with same | ⟨_, _, _, shown, thins, added⟩
    · rwa [mutate, same]
    · exact grow shown (thin start thins) added
  | createRootTask => exact settle_induct start fun _ _ made => task forest start made
  | createTask => exact settle_induct start fun _ _ made => task forest start made
  | createFragment =>
    exact settle_induct start fun _ _ made =>
      grow forest start (createFragment_eq_ok_iff.mp made).1
  | createActivity record => exact thin start (forest.thins_insert _)
  | addActivity =>
    exact settle_induct start fun _ _ made => grow forest start (addActivity_eq_ok_iff.mp made).1
  | createSplitPair =>
    refine settle_induct start fun _ _ made => ?_
    refine (createSplitPair_induct (motive := fun g => g.WellFormed ∧ motive g) made
      ⟨formed, start⟩ ?_ ?_).2
    · exact fun before made => ⟨before.1.createTask made, task before.1.forest before.2 made⟩
    · exact fun before paired => ⟨before.1.of_sameFrame (sameFrame_setAdjacent paired),
        thin before.2 (thins_setAdjacent paired)⟩
  | getOrCreateRootTask =>
    refine settle_induct start fun _ _ made => ?_
    rcases getOrCreateRootTask_eq_ok made with ⟨_, rfl⟩ | ⟨_, created⟩
    · exact start
    · exact task forest start created
  | attach p c position =>
    cases placed : h.attach p c position with
    | error e => simpa [mutate, placed, Except.toOption] using start
    | ok h' =>
      obtain ⟨_, _, _, _, alone, _⟩ := attach_eq_ok_iff.mp placed
      have same : h.mutate (.attach p c position) = h' := by simp [mutate, placed, Except.toOption]
      have loose : h.unlink c = h := by rw [unlink, alone]
      exact place (by rw [loose, same, placed])
  | detach child =>
    refine getD_induct start fun _ taken => ?_
    obtain ⟨_, rfl⟩ := detach_eq_ok_iff.mp taken
    exact thin start (thins_unlink h child)
  | reparent c p position =>
    cases moved : h.reparent c p position with
    | error e => simpa [mutate, moved, Except.toOption] using start
    | ok h' =>
      have same : h.mutate (.reparent c p position) = h' := by
        simp [mutate, moved, Except.toOption]
      exact place (same ▸ (reparent_eq_ok_iff.mp moved).2)
  | positionChild child position =>
    refine getD_induct start fun _ moved => ?_
    obtain ⟨_, rfl⟩ := positionChild_eq_ok_iff.mp moved
    exact thin start (thins_of_data? (parent?_reorder h child position)
      (data?_reorder h child position))
  | remove k => exact thin start (forest.thins_remove k)
  | setAdjacent =>
    exact getD_induct start fun _ paired => thin start (thins_setAdjacent paired)
  | clearAdjacent k => exact thin start (thins_clearAdjacent h k)
  | moveDisplayToTop k =>
    exact thin start (thins_of_data? (parent?_moveDisplayToTop h k) (data?_moveDisplayToTop h k))
  | moveTaskToFront k =>
    exact thin start (thins_of_data? (parent?_moveTaskToFront h k) (data?_moveTaskToFront h k))

end WindowHost.Hierarchy
