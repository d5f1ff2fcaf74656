import Mathlib.Data.List.Find
import WindowHost.Proofs.Hierarchy.Front

/-! Displays that an operation does not touch. Every operation changes nodes on the displays of its
arguments alone, so another display keeps all that lies on it. -/
namespace WindowHost.Hierarchy
variable {h h' h'' : Hierarchy} {display c k p : NodeId} {position : Position}

/-- All that lies on the display is as it was. -/
def Spares (h h' : Hierarchy) (display : NodeId) : Prop :=
  ∀ k, h.displayOf? k = some display → h'.node? k = h.node? k

theorem Spares.refl (h : Hierarchy) (display : NodeId) : Spares h h display := fun _ _ => rfl

theorem displayOf?_self (shown : (h.display? display).isSome = true) :
    h.displayOf? display = some display := by
  have live : h.contains display = true := by
    rw [contains_eq_isSome_data?]
    cases held : h.data? display with
    | none => simp [display?, held] at shown
    | some _ => rfl
  rw [displayOf?, lineage, if_pos live]
  exact List.find?_cons_of_pos (by simpa using shown)

namespace Forest
variable (forest : Forest h)
include forest

/-- A node on a display is the display or lies in it. -/
theorem displayOf?_eq_some_iff (shown : (h.display? display).isSome = true) :
    h.displayOf? k = some display ↔ k = display ∨ Inside h k display := by
  constructor
  · intro placed
    cases plain : h.display? k with
    | none => exact .inr (forest.inside_of_displayOf? placed plain)
    | some d =>
      have itself : h.displayOf? k = some k := displayOf?_self (by rw [plain]; rfl)
      exact .inl (Option.some.inj (itself.symm.trans placed))
  · rintro (rfl | inside)
    · exact displayOf?_self shown
    · exact forest.displayOf?_of_inside shown inside

end Forest

section
variable (spares : Spares h h' display) (forest : Forest h) (forest' : Forest h')
include spares

theorem Spares.parent? (placed : h.displayOf? k = some display) : h'.parent? k = h.parent? k := by
  rw [Hierarchy.parent?, Hierarchy.parent?, spares k placed]

theorem Spares.children (placed : h.displayOf? k = some display) :
    h'.children k = h.children k := by
  rw [Hierarchy.children, Hierarchy.children, spares k placed]

theorem Spares.data? (placed : h.displayOf? k = some display) : h'.data? k = h.data? k := by
  rw [Hierarchy.data?, Hierarchy.data?, spares k placed]

include forest forest'

/-- No node comes to a spared display, and none leaves it. -/
theorem Spares.displayOf?_iff (shown : (h.display? display).isSome = true) :
    h'.displayOf? k = some display ↔ h.displayOf? k = some display := by
  have itself : h.displayOf? display = some display := displayOf?_self shown
  have shown' : (h'.display? display).isSome = true := by
    rwa [display?, spares.data? itself]
  rw [forest'.displayOf?_eq_some_iff shown', forest.displayOf?_eq_some_iff shown]
  -- every step of the climb to the display is the same in both
  refine or_congr_right ⟨fun inside => ?_, fun inside => ?_⟩
  · induction inside with
    | @child k display placed =>
      have member := forest'.mem_children_iff.mpr placed
      rw [spares.children itself] at member
      exact .child (forest.mem_children_iff.mp member)
    | @deeper k p display placed _ ih =>
      have above := ih spares shown itself shown'
      have member := forest'.mem_children_iff.mpr placed
      rw [spares.children (forest.displayOf?_of_inside shown above)] at member
      exact .deeper (forest.mem_children_iff.mp member) above
  · induction inside with
    | @child k display placed =>
      refine .child ((spares.parent? ?_).trans placed)
      exact forest.displayOf?_of_inside shown (.child placed)
    | @deeper k p display placed further ih =>
      refine .deeper ((spares.parent? ?_).trans placed) (ih spares shown itself shown')
      exact forest.displayOf?_of_inside shown (.deeper placed further)

theorem Spares.trans (further : Spares h' h'' display) : Spares h h'' display := by
  intro k placed
  have shown := isSome_display?_of_displayOf? placed
  exact (further k ((spares.displayOf?_iff forest forest' shown).mpr placed)).trans
    (spares k placed)

end

theorem Climb.unique {l m : List NodeId} (first : Climb h k l) (second : Climb h k m) : l = m := by
  induction l generalizing k m with
  | nil =>
    cases m with
    | nil => rfl
    | cons q m => exact absurd (second.1.symm.trans first) (by simp)
  | cons p l ih =>
    cases m with
    | nil => exact absurd (first.1.symm.trans second) (by simp)
    | cons q m =>
      obtain rfl : p = q := Option.some.inj (first.1.symm.trans second.1)
      rw [ih first.2 second.2]

/-- The way up from a node is known by the parents on it. -/
theorem Forest.ancestors_congr (forest : Forest h) (forest' : Forest h')
    (parents : ∀ j ∈ k :: h.ancestors k, h'.parent? j = h.parent? j) :
    h'.ancestors k = h.ancestors k := by
  have climbs : ∀ (l : List NodeId) (k : NodeId), Climb h k l →
      (∀ j ∈ k :: l, h'.parent? j = h.parent? j) → Climb h' k l := by
    intro l
    induction l with
    | nil =>
      intro k climb same
      exact (same k List.mem_cons_self).trans climb
    | cons p l ih =>
      intro k climb same
      obtain ⟨itself, above⟩ := List.forall_mem_cons.mp same
      exact ⟨itself.trans climb.1, ih p climb.2 above⟩
  exact (forest'.climb_ancestors k).unique (climbs _ k (forest.climb_ancestors k) parents)

/-- The display of a node is read off the way up from it. -/
theorem Forest.displayOf?_congr (forest : Forest h) (forest' : Forest h')
    (parents : ∀ j ∈ k :: h.ancestors k, h'.parent? j = h.parent? j)
    (data : ∀ j ∈ k :: h.ancestors k, h'.data? j = h.data? j) :
    h'.displayOf? k = h.displayOf? k := by
  have way := forest.ancestors_congr forest' parents
  have live : h'.contains k = h.contains k := contains_congr (data k List.mem_cons_self)
  rw [displayOf?, displayOf?, lineage, lineage, live, way]
  split
  · refine List.find?_congr fun j member => ?_
    rw [display?, display?, data j member]
  · rfl

theorem SameFrame.displayOf? (frame : SameFrame h h') (forest : Forest h) (forest' : Forest h')
    (k : NodeId) : h'.displayOf? k = h.displayOf? k := by
  have way : h'.ancestors k = h.ancestors k :=
    (forest'.climb_ancestors k).unique ((forest.climb_ancestors k).congr frame.parent)
  have shown : ∀ j, (h'.display? j).isSome = (h.display? j).isSome := by
    intro j
    rw [Bool.eq_iff_iff, Option.isSome_iff_exists, Option.isSome_iff_exists, exists_display?_iff,
      exists_display?_iff, frame.tag]
  simp only [Hierarchy.displayOf?, lineage, contains_eq_isSome_tag?, frame.tag, way, shown]

/-- A new node changes the display of no other. -/
theorem displayOf?_insertUnder {data : NodeData} (forest : Forest h) (forest' : Forest h')
    (added : h.insertUnder p data position = .ok h') (old : k ≠ h.nextId) :
    h'.displayOf? k = h.displayOf? k := by
  have others : ∀ j ∈ k :: h.ancestors k, j ≠ h.nextId := by
    intro j member
    rcases List.mem_cons.mp member with rfl | above
    · exact old
    · rintro rfl
      have live := forest.contains_of_inside (forest.mem_ancestors.mp above)
      rw [contains_nextId] at live
      contradiction
  refine forest.displayOf?_congr forest' (fun j member => ?_) fun j member => ?_
  · exact parent?_insertUnder added (others j member)
  · rw [data?_insertUnder added, if_neg (others j member)]

theorem displayOf?_parent_insertUnder {data : NodeData} (forest : Forest h) (forest' : Forest h')
    (added : h.insertUnder p data position = .ok h') : h'.displayOf? p = h.displayOf? p := by
  obtain ⟨_, found, _⟩ := insertUnder_eq_ok_iff.mp added
  exact displayOf?_insertUnder forest forest' added
    (ne_nextId_of_contains (contains_of_data? found))

/-- A new node is on the display of its parent. -/
theorem displayOf?_nextId_insertUnder {data : NodeData} (forest : Forest h) (forest' : Forest h')
    (added : h.insertUnder p data position = .ok h') :
    h'.displayOf? h.nextId = h.displayOf? p := by
  rw [forest'.displayOf?_of_parent (parent?_new_insertUnder added),
    displayOf?_parent_insertUnder forest forest' added]

section
variable {spec : TaskSpec} (formed : h.WellFormed)
  (made : h.createTask p spec position = .ok (h', c))
include formed made

theorem forest_createTask : ∃ grown, h.insertUnder p (.task { spec with id := h.nextTaskId })
    position = .ok grown ∧ Forest grown ∧ h.nextId = c ∧
      ∀ j, h'.displayOf? j = grown.displayOf? j := by
  have formed' := formed.createTask made
  obtain ⟨grown, added, rfl, fresh⟩ := createTask_eq_ok_iff.mp made
  have forest : Forest grown :=
    formed'.forest.congr (fun _ => rfl) (fun _ => rfl) fun _ => rfl
  exact ⟨grown, added, forest, fresh, displayOf?_congr rfl (fun _ => rfl) fun _ => rfl⟩

theorem displayOf?_createTask (old : k ≠ c) : h'.displayOf? k = h.displayOf? k := by
  obtain ⟨grown, added, forest, rfl, same⟩ := forest_createTask formed made
  rw [same, displayOf?_insertUnder formed.forest forest added old]

theorem displayOf?_new_createTask : h'.displayOf? c = h.displayOf? p := by
  obtain ⟨grown, added, forest, rfl, same⟩ := forest_createTask formed made
  rw [same, displayOf?_nextId_insertUnder formed.forest forest added]

end

theorem spares_insertUnder {data : NodeData} (added : h.insertUnder p data position = .ok h')
    (apart : h.displayOf? p ≠ some display) : Spares h h' display := by
  obtain ⟨_, _, _, _, _, rfl⟩ := insertUnder_eq_ok_iff.mp added
  intro k placed
  have old : k ≠ h.nextId := by
    rintro rfl
    simp [displayOf?, lineage, contains_nextId] at placed
  have other : k ≠ p := by
    rintro rfl
    exact apart placed
  refine node?_congr ?_ ?_ ?_
  · rw [parent?_link, if_neg (by simp [old]), parent?_insert]
  · rw [children_link, if_neg (by simp [other]), children_insert]
  · rw [data?_link, data?_insert, if_neg old]

theorem spares_createTask {spec : TaskSpec} (made : h.createTask p spec position = .ok (h', k))
    (apart : h.displayOf? p ≠ some display) : Spares h h' display := by
  obtain ⟨_, added, rfl, _⟩ := createTask_eq_ok_iff.mp made
  have grown := spares_insertUnder added apart
  exact grown

theorem spares_addActivity {record : ActivityRecord}
    (made : h.addActivity p record position = .ok (h', k))
    (apart : h.displayOf? p ≠ some display) : Spares h h' display := by
  obtain ⟨added, _⟩ := addActivity_eq_ok_iff.mp made
  exact spares_insertUnder added apart

/-- Placing a node under a parent touches the two. -/
theorem node?_link_of_ne (notParent : k ≠ p) (notChild : k ≠ c) (h : Hierarchy)
    (position : Position) : (h.link p c position).node? k = h.node? k := by
  refine node?_congr ?_ ?_ (data?_link ..)
  · rw [parent?_link, if_neg (by simp [notChild])]
  · rw [children_link, if_neg (by simp [notParent])]

theorem node?_unlink_of_ne (notParent : h.parent? c ≠ some k) (notChild : k ≠ c) :
    (h.unlink c).node? k = h.node? k := by
  refine node?_congr ?_ ?_ (data?_unlink ..)
  · rw [parent?_unlink, if_neg notChild]
  · rw [children_unlink, if_neg notParent]

section
variable (forest : Forest h)
include forest

/-- A parent is not on a display that its child is not on. -/
theorem Forest.parent?_ne (apart : h.displayOf? c ≠ some display)
    (placed : h.displayOf? k = some display) : h.parent? c ≠ some k := by
  intro above
  rw [forest.displayOf?_of_parent above] at apart
  exact apart placed

theorem Forest.spares_unlink (apart : h.displayOf? c ≠ some display) :
    Spares h (h.unlink c) display := by
  intro k placed
  refine node?_unlink_of_ne (forest.parent?_ne apart placed) ?_
  rintro rfl
  exact apart placed

theorem Forest.spares_reorder (apart : h.displayOf? c ≠ some display) :
    Spares h (h.reorder c position) display := by
  intro k placed
  have notChild : k ≠ c := by
    rintro rfl
    exact apart placed
  have notParent := forest.parent?_ne apart placed
  unfold reorder
  split
  · rfl
  · rename_i parent above
    have other : k ≠ parent := by
      rintro rfl
      exact notParent above
    rw [node?_link_of_ne other notChild, node?_unlink_of_ne notParent notChild]

theorem Forest.spares_raise (apart : h.displayOf? c ≠ some display) :
    Spares h (h.raise c).1 display := by
  unfold raise
  split
  · exact .refl h display
  split
  · exact .refl h display
  · exact forest.spares_reorder apart

end

theorem displayOf?_raise (h : Hierarchy) (c k : NodeId) :
    (h.raise c).1.displayOf? k = h.displayOf? k :=
  displayOf?_congr (next_raise h c) (parent?_raise h c) (data?_raise h c) k

/-- Each step up stays on the display of the node that is raised. -/
theorem WellFormed.spares_raiseWithin (above : List NodeId) : ∀ {h : Hierarchy} {c : NodeId},
    h.WellFormed → Climb h c above → h.displayOf? c ≠ some display →
      Spares h (h.raiseWithin c above).1 display := by
  induction above with
  | nil =>
    intro h c _ _ _
    exact .refl h display
  | cons parent further ih =>
    intro h c formed climb apart
    have first := formed.forest.spares_raise apart
    have formed' : (h.raise c).1.WellFormed := formed.changes (changes_raise h c)
    rw [raiseWithin]
    dsimp only
    split
    · refine first.trans formed.forest formed'.forest (ih formed' ?_ ?_)
      · exact climb.2.congr (parent?_raise h c)
      · rw [displayOf?_raise, ← formed.forest.displayOf?_of_parent climb.1]
        exact apart
    · exact first

theorem displayOf?_moveTaskToFront (h : Hierarchy) (c k : NodeId) :
    (h.moveTaskToFront c).1.displayOf? k = h.displayOf? k :=
  displayOf?_congr (next_moveTaskToFront h c) (parent?_moveTaskToFront h c)
    (data?_moveTaskToFront h c) k

theorem WellFormed.spares_moveTaskToFront (formed : h.WellFormed)
    (apart : h.displayOf? c ≠ some display) : Spares h (h.moveTaskToFront c).1 display := by
  have raised := formed.spares_raiseWithin _ (formed.forest.climb_ancestors c) apart
  have same : ∀ (h : Hierarchy) d k, (h.moveDisplayToTop d).1.node? k = h.node? k := by
    intro h d k
    unfold moveDisplayToTop
    split <;> rfl
  unfold Hierarchy.moveTaskToFront
  dsimp only
  split
  · exact raised
  · exact fun k placed => (same ..).trans (raised k placed)

theorem Forest.spares_reparent (forest : Forest h)
    (moved : h.reparent c p position = .ok h') (leaves : h.displayOf? c ≠ some display)
    (comes : h.displayOf? p ≠ some display) : Spares h h' display := by
  obtain ⟨_, placed⟩ := reparent_eq_ok_iff.mp moved
  obtain ⟨_, _, _, _, _, _, _, _, _, _, rfl⟩ := attach_eq_ok_iff.mp placed
  intro k onDisplay
  have notChild : k ≠ c := by
    rintro rfl
    exact leaves onDisplay
  have notParent : k ≠ p := by
    rintro rfl
    exact comes onDisplay
  exact (node?_link_of_ne notParent notChild ..).trans (forest.spares_unlink leaves k onDisplay)

/-- A node that has moved is on the display that its new parent was on. -/
theorem Forest.displayOf?_reparent (forest : Forest h) (forest' : Forest h')
    (moved : h.reparent c p position = .ok h') (leaves : h.displayOf? c ≠ some display) :
    h'.displayOf? c = some display ↔ h.displayOf? p = some display := by
  obtain ⟨_, placed⟩ := reparent_eq_ok_iff.mp moved
  obtain ⟨outer, inner, _, found, alone, _, apart, outside, _, _, rfl⟩ :=
    attach_eq_ok_iff.mp placed
  have parted : Forest (h.unlink c) := forest.unlink c
  have under : ((h.unlink c).link p c position).parent? c = some p := by
    rw [parent?_link, if_pos ⟨rfl, contains_of_data? found⟩]
  have others : ∀ j ∈ p :: (h.unlink c).ancestors p, j ≠ c := by
    rintro j member rfl
    rcases List.mem_cons.mp member with rfl | above
    · exact apart rfl
    · rw [← List.contains_iff_mem] at above
      exact Bool.noConfusion (above.symm.trans outside)
  have above : ((h.unlink c).link p c position).displayOf? p = (h.unlink c).displayOf? p := by
    refine parted.displayOf?_congr forest' (fun j member => ?_) fun j _ => data?_link ..
    rw [parent?_link, if_neg (by simp [others j member])]
  rw [forest'.displayOf?_of_parent under, above]
  by_cases shown : (h.display? display).isSome = true
  · exact (forest.spares_unlink leaves).displayOf?_iff forest parted shown
  · have hidden : ∀ {g : Hierarchy}, (∀ j, g.data? j = h.data? j) →
        g.displayOf? p ≠ some display := by
      intro g same placed
      have shown' := isSome_display?_of_displayOf? placed
      rw [display?, same] at shown'
      exact shown shown'
    exact iff_of_false (hidden (data?_unlink h c)) (hidden fun _ => rfl)

/-- Clearing changes the display of no node that stays. -/
theorem Cleared.displayOf? {ks : List NodeId} (cleared : Cleared ks h h') (forest : Forest h)
    (forest' : Forest h') (stays : k ∉ ks) : h'.displayOf? k = h.displayOf? k := by
  have others : ∀ j ∈ k :: h.ancestors k, j ∉ ks := by
    intro j member
    rcases List.mem_cons.mp member with rfl | above
    · exact stays
    · intro gone
      obtain ⟨c, placed⟩ := (forest.mem_ancestors.mp above).exists_child
      have member := forest.mem_children_iff.mpr placed
      rw [cleared.childless j gone] at member
      contradiction
  refine forest.displayOf?_congr forest' (fun j member => ?_) fun j member => ?_
  · rw [cleared.parent?, if_neg (others j member)]
  · rw [cleared.data?, if_neg (others j member)]

theorem Cleared.spares {ks : List NodeId} (cleared : Cleared ks h h') (forest : Forest h)
    (apart : ∀ k ∈ ks, h.displayOf? k ≠ some display) : Spares h h' display := by
  intro k placed
  have stays : k ∉ ks := fun member => apart k member placed
  refine node?_congr ?_ ?_ ?_
  · rw [cleared.parent?, if_neg stays]
  · rw [cleared.children]
    refine List.filter_eq_self.mpr fun c member => decide_eq_true fun gone => apart c gone ?_
    rw [forest.displayOf?_of_parent (forest.child member).2, placed]
  · rw [cleared.data?, if_neg stays]

theorem spares_modifyData (apart : h.displayOf? c ≠ some display) (f : NodeData → NodeData) :
    Spares h (h.modifyData c f) display := by
  intro k placed
  have other : k ≠ c := by
    rintro rfl
    exact apart placed
  exact (node?_modify ..).trans (if_neg other)

end WindowHost.Hierarchy
