import WindowHost.Proofs.Hierarchy.Standing

/-! Taking back what was made. Removing a node that was added without children leaves every other
node as it was; only keys and task ids stay used up. -/
namespace WindowHost.Hierarchy
variable {h h' h'' : Hierarchy} {j k p : NodeId}

/-- The same nodes under the same keys, with the same places and data, and the same order of
displays. Keys and task ids may have been used up. -/
structure SameNodes (h h' : Hierarchy) : Prop where
  node : ∀ k, h'.node? k = h.node? k
  displays : h'.displays = h.displays
  nextTaskId : h.nextTaskId.value ≤ h'.nextTaskId.value

namespace SameNodes

theorem refl (h : Hierarchy) : SameNodes h h := ⟨fun _ => rfl, rfl, Int.le_refl _⟩

theorem trans (first : SameNodes h h') (second : SameNodes h' h'') : SameNodes h h'' where
  node k := (second.node k).trans (first.node k)
  displays := second.displays.trans first.displays
  nextTaskId := Int.le_trans first.nextTaskId second.nextTaskId

variable (same : SameNodes h h')
include same

theorem parent? (k : NodeId) : h'.parent? k = h.parent? k := by
  rw [Hierarchy.parent?, Hierarchy.parent?, same.node]

theorem children (k : NodeId) : h'.children k = h.children k := by
  rw [Hierarchy.children, Hierarchy.children, same.node]

theorem data? (k : NodeId) : h'.data? k = h.data? k := by
  rw [Hierarchy.data?, Hierarchy.data?, same.node]

theorem tag? (k : NodeId) : h'.tag? k = h.tag? k := by
  rw [Hierarchy.tag?, Hierarchy.tag?, same.data?]

theorem contains (k : NodeId) : h'.contains k = h.contains k := by
  rw [Hierarchy.contains, Hierarchy.contains, same.node]

theorem adjacent? (k : NodeId) : h'.adjacent? k = h.adjacent? k := by
  rw [Hierarchy.adjacent?, Hierarchy.adjacent?, same.data?]

theorem forest (forest : Forest h) : Forest h' :=
  forest.congr same.parent? same.children same.tag?

theorem subtree (forest : Forest h) (k : NodeId) : h'.subtree k = h.subtree k := by
  have forest' := same.forest forest
  refine ((forest'.faithful_subtree k).congr fun j _ => (same.children j).symm).unique
    (forest.faithful_subtree k) ?_
  unfold Hierarchy.subtree
  rw [same.contains]
  split <;> rfl

theorem unlink (c : NodeId) : SameNodes (h.unlink c) (h'.unlink c) where
  node j := by
    refine node?_congr ?_ ?_ ?_
    · rw [parent?_unlink, parent?_unlink, same.parent?]
    · rw [children_unlink, children_unlink, same.parent?, same.children]
    · rw [data?_unlink, data?_unlink, same.data?]
  displays := by rw [displays_unlink, displays_unlink, same.displays]
  nextTaskId := by
    rw [nextTaskId_unlink, nextTaskId_unlink]
    exact same.nextTaskId

theorem modifyData (k : NodeId) (f : NodeData → NodeData) :
    SameNodes (h.modifyData k f) (h'.modifyData k f) where
  node j := by
    refine node?_congr ?_ ?_ ?_
    · rw [parent?_modifyData, parent?_modifyData, same.parent?]
    · rw [children_modifyData, children_modifyData, same.children]
    · rw [data?_modifyData, data?_modifyData, same.data?]
  displays := same.displays
  nextTaskId := same.nextTaskId

theorem clearAdjacent (k : NodeId) : SameNodes (h.clearAdjacent k) (h'.clearAdjacent k) := by
  unfold Hierarchy.clearAdjacent
  rw [same.adjacent?]
  cases h.adjacent? k with
  | none => exact same.modifyData k _
  | some partner => exact (same.modifyData partner _).modifyData k _

theorem erase (k : NodeId) : SameNodes (h.erase k) (h'.erase k) where
  node j := by rw [node?_erase, node?_erase, (same.clearAdjacent k).node]
  displays := by rw [displays_erase, displays_erase, same.displays]
  nextTaskId := by
    rw [nextTaskId_erase, nextTaskId_erase]
    exact same.nextTaskId

omit same in
theorem foldl_erase (ks : List NodeId) : ∀ {h h' : Hierarchy}, SameNodes h h' →
    SameNodes (ks.foldl Hierarchy.erase h) (ks.foldl Hierarchy.erase h') := by
  induction ks with
  | nil => exact fun same => same
  | cons k ks ih => exact fun same => ih (same.erase k)

theorem remove (forest : Forest h) (k : NodeId) : SameNodes (h.remove k) (h'.remove k) := by
  unfold Hierarchy.remove
  rw [same.subtree forest]
  exact foldl_erase _ (same.unlink k)

end SameNodes

theorem SameNodes.foldl_remove (ks : List NodeId) : ∀ {h h' : Hierarchy}, Forest h →
    SameNodes h h' → SameNodes (ks.foldl Hierarchy.remove h) (ks.foldl Hierarchy.remove h') := by
  induction ks with
  | nil => exact fun _ same => same
  | cons k ks ih => exact fun forest same => ih (forest.remove k) (same.remove forest k)

/-- `h'` is `h` with one node more, which holds nothing and has no partner. -/
structure Sprout (h h' : Hierarchy) (k : NodeId) : Prop where
  fresh : h.contains k = false
  live : h'.contains k = true
  childless : h'.children k = []
  alone : h'.adjacent? k = none
  parent : ∀ j ≠ k, h'.parent? j = h.parent? j
  children : ∀ j ≠ k, (h'.children j).filter (· != k) = h.children j
  data : ∀ j ≠ k, h'.data? j = h.data? j
  displays : h'.displays = h.displays
  nextTaskId : h.nextTaskId.value ≤ h'.nextTaskId.value

theorem adjacent?_unlink (h : Hierarchy) (c k : NodeId) :
    (h.unlink c).adjacent? k = h.adjacent? k := by
  rw [adjacent?, adjacent?, data?_unlink]

theorem WellFormed.not_mem_displays (formed : h.WellFormed) (stale : h.contains k = false) :
    k ∉ h.displays := by
  intro member
  obtain ⟨d, shown⟩ := formed.listed.mp member
  rw [display?] at shown
  obtain ⟨data, found, _⟩ := Option.bind_eq_some_iff.mp shown
  rw [contains_of_data? found] at stale
  contradiction

/-- A new task under a parent is a sprout. -/
theorem WellFormed.sprout_createTask {spec : TaskSpec} {position : Position}
    (formed : h.WellFormed) (made : h.createTask p spec position = .ok (h', k)) :
    Sprout h h' k := by
  obtain ⟨_, added, rfl, rfl⟩ := createTask_eq_ok_iff.mp made
  obtain ⟨outer, found, allowed, _, _, rfl⟩ := insertUnder_eq_ok_iff.mp added
  have apart := ne_nextId_of_contains (contains_of_data? found)
  have data : ∀ j, ((h.insert (.task { spec with id := h.nextTaskId })).link p h.nextId
      position).data? j = if j = h.nextId then some (.task { spec with id := h.nextTaskId })
        else h.data? j :=
    fun j => (data?_link ..).trans (data?_insert ..)
  have unlisted : ∀ j, h.nextId ∉ h.children j := by
    intro j member
    have live := (formed.forest.child member).1
    rw [contains_nextId] at live
    contradiction
  refine ⟨contains_nextId h, ?_, ?_, ?_, ?_, ?_, ?_, rfl, ?_⟩
  · exact contains_of_data? ((data h.nextId).trans (if_pos rfl))
  · refine (children_link ..).trans ?_
    rw [if_neg (fun same => apart same.1.symm), children_insert]
    exact children_of_not_contains (contains_nextId h)
  · exact congrArg (Option.bind · NodeData.adjacent?) ((data h.nextId).trans (if_pos rfl))
  · intro j other
    refine (parent?_link ..).trans ?_
    rw [if_neg (fun same => other same.1), parent?_insert]
  · intro j other
    have kept : ∀ ks : List NodeId, h.nextId ∉ ks → ks.filter (· != h.nextId) = ks := by
      intro ks missing
      apply List.filter_eq_self.mpr
      intro c member
      simpa using fun same : c = h.nextId => missing (same ▸ member)
    refine (congrArg _ (children_link ..)).trans ?_
    rw [children_insert, children_insert]
    split
    · rename_i under
      obtain ⟨rfl, _⟩ := under
      rw [position.filter_place, kept _ (unlisted j)]
    · exact kept _ (unlisted j)
  · exact fun j other => (data j).trans (if_neg other)
  · exact Int.le_of_lt (Int.lt_succ _)

/-- Editing the new node, its partner apart, leaves it one. -/
theorem Sprout.modifyTask (sprout : Sprout h h' k) {f : Task → Task}
    (keeps : ∀ t, (f t).adjacent = t.adjacent) : Sprout h (h'.modifyTask k f) k where
  fresh := sprout.fresh
  live := by
    rw [contains_eq_isSome_data?, Hierarchy.modifyTask, data?_modifyData, if_pos rfl,
      Option.isSome_map, ← contains_eq_isSome_data?]
    exact sprout.live
  childless := (children_modifyData ..).trans sprout.childless
  alone := by
    have same : NodeData.adjacent? ∘ NodeData.mapTask f = NodeData.adjacent? := by
      funext d
      cases d <;> simp [NodeData.mapTask, NodeData.adjacent?, keeps]
    rw [adjacent?, Hierarchy.modifyTask, data?_modifyData, if_pos rfl, Option.bind_map, same]
    exact sprout.alone
  parent j other := (parent?_modifyData ..).trans (sprout.parent j other)
  children j other := (congrArg _ (children_modifyData ..)).trans (sprout.children j other)
  data j other := ((data?_modifyData ..).trans (if_neg other)).trans (sprout.data j other)
  displays := sprout.displays
  nextTaskId := sprout.nextTaskId

/-- Removing the new node gives back what was there before. -/
theorem Sprout.remove (sprout : Sprout h h' k) (forest : Forest h') (unlisted : k ∉ h.displays) :
    SameNodes h (h'.remove k) := by
  have single : (h'.subtree k).ids = [k] :=
    forest.ids_subtree_of_childless sprout.live sprout.childless
  refine ⟨fun j => ?_, ?_, ?_⟩
  · by_cases gone : j = k
    · subst gone
      have stale : h.node? j = none := by simpa [contains] using sprout.fresh
      rw [Hierarchy.remove, single, List.foldl_cons, List.foldl_nil, node?_erase, if_pos rfl, stale]
    · have kept : j ∉ (h'.subtree k).ids := by simpa [single] using gone
      refine node?_congr ?_ ?_ ?_
      · rw [parent?_remove, if_neg kept, parent?_unlink, if_neg gone, sprout.parent j gone]
      · rw [children_remove, if_neg kept, children_unlink, ← sprout.children j gone]
        split
        · rfl
        · refine (List.filter_eq_self.mpr fun c member => ?_).symm
          have other : c ≠ k := by
            rintro rfl
            exact ‹¬ _› (forest.child member).2
          simpa using other
      · rw [Hierarchy.remove, single, List.foldl_cons, List.foldl_nil, data?, node?_erase,
          if_neg gone, ← data?, clearAdjacent, adjacent?_unlink, sprout.alone, data?_modifyData,
          if_neg gone, data?_unlink, sprout.data j gone]
  · rw [displays_remove, single, sprout.displays]
    apply List.filter_eq_self.mpr
    intro j member
    have other : j ≠ k := by
      rintro rfl
      exact unlisted member
    simpa using other
  · rw [nextTaskId_remove]
    exact sprout.nextTaskId

end WindowHost.Hierarchy
