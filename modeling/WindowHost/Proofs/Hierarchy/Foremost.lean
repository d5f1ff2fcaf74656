import WindowHost.Proofs.Hierarchy.Clearing
import WindowHost.Proofs.Hierarchy.Roots

/-! The front of a display. What is raised to it ends on top at every level up to its root task, and
the root task on top of the top display, so what it shows is what the display shows. -/
namespace WindowHost.Hierarchy
variable {h h' : Hierarchy} {area display j k p root x : NodeId} {above ks : List NodeId}

/-- `k` is `root`, or lies in it on top at every level. -/
inductive Foremost (h : Hierarchy) (root : NodeId) : NodeId → Prop where
  | self : Foremost h root root
  | nested {k p : NodeId} (placed : h.parent? k = some p) (container : h.isFragmentLike p = true)
      (last : (h.children p).getLast? = some k) (outer : Foremost h root p) : Foremost h root k

/-- `k` lies at the front of the top display, in its topmost root task. -/
structure AtFront (h : Hierarchy) (display root k : NodeId) : Prop where
  container : h.isFragmentLike k = true
  foremost : Foremost h root k
  exists_area : ∃ area, (h.area? area).isSome = true ∧ h.parent? area = some display ∧
    h.parent? root = some area ∧ (h.children area).getLast? = some root
  top : h.topFocusedDisplay? = some display

theorem isFragmentLike_of_data? (same : h'.data? k = h.data? k) :
    h'.isFragmentLike k = h.isFragmentLike k :=
  congrArg (Option.any NodeData.isFragmentLike) same

theorem display?_of_area? {a : DisplayArea} (held : h.area? k = some a) : h.display? k = none := by
  cases found : h.data? k with
  | none => simp [display?, found]
  | some d => cases d <;> simp_all [area?, display?, NodeData.area?, NodeData.display?]

theorem children_moveDisplayToTop (h : Hierarchy) (display j : NodeId) :
    (h.moveDisplayToTop display).1.children j = h.children j := by
  unfold moveDisplayToTop
  split <;> rfl

theorem children_raise_of_ne (placed : h.parent? k = some p) (other : j ≠ p) :
    (h.raise k).1.children j = h.children j := by
  unfold raise
  rw [placed]
  dsimp only
  split
  · rfl
  · simp [reorder, placed, children_link, children_unlink, other, other.symm]

theorem getLast?_children_raise (placed : h.parent? k = some p) (live : h.contains p = true) :
    ((h.raise k).1.children p).getLast? = some k := by
  unfold raise
  rw [placed]
  dsimp only
  split
  · assumption
  · simp [reorder, placed, children_link, contains_unlink, live, Position.place]

theorem Climb.congr (same : ∀ j, h'.parent? j = h.parent? j) (climb : Climb h k above) :
    Climb h' k above := by
  induction above generalizing k with
  | nil => exact (same k).trans climb
  | cons p above ih => exact ⟨(same k).trans climb.1, ih climb.2⟩

/-- Raising a node reorders what its ancestors hold, and nothing else. -/
theorem children_raiseWithin (climb : Climb h k above) (aside : j ∉ above) :
    (h.raiseWithin k above).1.children j = h.children j := by
  induction above generalizing h k with
  | nil => rfl
  | cons p above ih =>
    obtain ⟨other, aside⟩ := List.ne_and_not_mem_of_not_mem_cons aside
    have raised := children_raise_of_ne climb.1 other
    rw [raiseWithin]
    dsimp only
    split
    · exact (ih (climb.2.congr (parent?_raise h k)) aside).trans raised
    · exact raised

/-- The way up from a raised node is on top throughout, as far as it goes through tasks and
fragments. -/
theorem exists_foremost_raiseWithin (climb : Climb h k above) (nodup : above.Nodup)
    (live : ∀ a ∈ above, h.contains a = true) (container : h.isFragmentLike k = true)
    (ends : ∃ a ∈ above, h.isFragmentLike a = false) :
    let raised := (h.raiseWithin k above).1
    ∃ root area, Foremost raised root k ∧ h.isFragmentLike root = true ∧
      h.parent? root = some area ∧ h.isFragmentLike area = false ∧
      (raised.children area).getLast? = some root := by
  induction above generalizing h k with
  | nil => simp at ends
  | cons p above ih =>
    obtain ⟨placed, climb⟩ := climb
    obtain ⟨single, nodup⟩ := List.nodup_cons.mp nodup
    obtain ⟨liveHere, live⟩ := List.forall_mem_cons.mp live
    have last := getLast?_children_raise placed liveHere
    have data := data?_raise h k
    have climb' : Climb (h.raise k).1 p above := climb.congr (parent?_raise h k)
    rw [raiseWithin]
    dsimp only
    rw [isFragmentLike_of_data? (data p)]
    cases plain : h.isFragmentLike p with
    | false => exact ⟨k, p, .self, container, placed, plain, last⟩
    | true =>
      obtain ⟨a, member, top⟩ := ends
      have member : a ∈ above := by
        rcases List.mem_cons.mp member with rfl | further
        · rw [plain] at top
          contradiction
        · exact further
      obtain ⟨root, area, foremost, outer, on, bare, front⟩ := ih climb' nodup
        (fun a member => (contains_congr (data a)).trans (live a member))
        ((isFragmentLike_of_data? (data p)).trans plain)
        ⟨a, member, (isFragmentLike_of_data? (data a)).trans top⟩
      refine ⟨root, area, .nested ?_ ?_ ?_ foremost, ?_, ?_, ?_, front⟩
      · exact (parent?_raiseWithin ..).trans ((parent?_raise ..).trans placed)
      · exact (isFragmentLike_of_data? ((data?_raiseWithin ..).trans (data p))).trans plain
      · exact (congrArg List.getLast? (children_raiseWithin climb' single)).trans last
      · exact (isFragmentLike_of_data? (data root)).symm.trans outer
      · exact (parent?_raise ..).symm.trans on
      · exact (isFragmentLike_of_data? (data area)).symm.trans bare

theorem displayOf?_congr (next : h'.nodes.next = h.nodes.next)
    (parents : ∀ j, h'.parent? j = h.parent? j) (data : ∀ j, h'.data? j = h.data? j)
    (k : NodeId) : h'.displayOf? k = h.displayOf? k := by
  simp only [displayOf?, lineage, display?, contains_congr (data k),
    ancestors_congr next parents k, data]

theorem Foremost.congr (parents : ∀ j, h'.parent? j = h.parent? j)
    (children : ∀ j, h'.children j = h.children j)
    (data : ∀ j, h'.isFragmentLike j = h.isFragmentLike j)
    (foremost : Foremost h root k) : Foremost h' root k := by
  induction foremost with
  | self => exact .self
  | nested placed container last _ ih =>
    exact .nested ((parents _).trans placed) ((data _).trans container)
      ((congrArg List.getLast? (children _)).trans last) ih

theorem Foremost.inside (foremost : Foremost h root k) : k = root ∨ Inside h k root := by
  induction foremost with
  | self => exact .inl rfl
  | nested placed _ _ _ ih =>
    rcases ih with rfl | further
    · exact .inr (.child placed)
    · exact .inr (.deeper placed further)

/-- What holds tasks and fragments and is neither is an area. -/
theorem Forest.isSome_area?_of_child (forest : Forest h) (placed : h.parent? k = some p)
    (container : h.isFragmentLike k = true) (plain : h.isFragmentLike p = false) :
    (h.area? p).isSome = true := by
  obtain ⟨outer, inner, foundOuter, foundInner, allowed⟩ := forest.kinds placed
  cases outer <;> cases inner <;>
    simp_all [area?, isFragmentLike, NodeData.area?, NodeData.isFragmentLike, NodeData.canContain]

theorem getLast?_moveDisplayToTop (listed : display ∈ (h.moveDisplayToTop display).1.displays) :
    (h.moveDisplayToTop display).1.topFocusedDisplay? = some display := by
  unfold moveDisplayToTop topFocusedDisplay? at *
  split
  · rename_i stays
    rw [if_pos stays] at listed
    simpa [listed] using stays
  · simp

/-- The way up is the same before and after, so that it may be told from what came of it. -/
theorem climb_moveTaskToFront (forest : Forest (h.moveTaskToFront k).1) :
    h.ancestors k = (h.moveTaskToFront k).1.ancestors k ∧ Climb h k (h.ancestors k) := by
  have parents := parent?_moveTaskToFront h k
  have way : h.ancestors k = (h.moveTaskToFront k).1.ancestors k :=
    (ancestors_congr (next_moveTaskToFront h k) parents k).symm
  rw [way]
  exact ⟨rfl, (forest.climb_ancestors k).congr fun j => (parents j).symm⟩

/-- A task or fragment that is moved to the front lies there if it lies on a display at all. -/
theorem exists_atFront_moveTaskToFront (formed : (h.moveTaskToFront k).1.WellFormed)
    (container : (h.moveTaskToFront k).1.isFragmentLike k = true)
    (placed : (h.moveTaskToFront k).1.displayOf? k = some display) :
    ∃ root, AtFront (h.moveTaskToFront k).1 display root k := by
  have forest := formed.forest
  have parents := parent?_moveTaskToFront h k
  have data := data?_moveTaskToFront h k
  have shown := isSome_display?_of_displayOf? placed
  have plain : (h.moveTaskToFront k).1.display? k = none := display?_of_isFragmentLike container
  have onDisplay := forest.inside_of_displayOf? placed plain
  obtain ⟨way, climb⟩ := climb_moveTaskToFront forest
  have nodup : (h.ancestors k).Nodup := by
    rw [way]
    exact ((forest.climb_ancestors k).nodup forest.rooted).of_cons
  have live : ∀ a ∈ h.ancestors k, h.contains a = true := by
    intro a member
    rw [way] at member
    exact (contains_congr (data a)).symm.trans
      (forest.contains_of_inside (forest.mem_ancestors.mp member))
  have ends : ∃ a ∈ h.ancestors k, h.isFragmentLike a = false := by
    refine ⟨display, way ▸ forest.mem_ancestors.mpr onDisplay, ?_⟩
    rw [← isFragmentLike_of_data? (data display)]
    by_contra holds
    rw [display?_of_isFragmentLike (Bool.not_eq_false _ ▸ holds)] at shown
    cases shown
  obtain ⟨root, area, foremost, outer, on, bare, front⟩ :=
    exists_foremost_raiseWithin climb nodup live
      ((isFragmentLike_of_data? (data k)).symm.trans container) ends
  have moved : (h.moveTaskToFront k).1 =
      ((h.raiseWithin k (h.ancestors k)).1.moveDisplayToTop display).1 := by
    have same : (h.raiseWithin k (h.ancestors k)).1.displayOf? k = some display := by
      rw [← placed]
      refine displayOf?_congr ?_ (fun j => ?_) (fun j => ?_) k
      · rw [next_raiseWithin, next_moveTaskToFront]
      · rw [parent?_raiseWithin, parents]
      · rw [data?_raiseWithin, data]
    simp only [moveTaskToFront, same]
  have children : ∀ j, (h.moveTaskToFront k).1.children j =
      (h.raiseWithin k (h.ancestors k)).1.children j :=
    fun j => moved ▸ children_moveDisplayToTop ..
  have foremost : Foremost (h.moveTaskToFront k).1 root k := by
    refine foremost.congr (fun j => ?_) children fun j => isFragmentLike_of_data? ?_
    · rw [parents, parent?_raiseWithin]
    · rw [data, data?_raiseWithin]
  have under : (h.moveTaskToFront k).1.parent? root = some area := (parents root).trans on
  have placeable : ((h.moveTaskToFront k).1.area? area).isSome = true :=
    forest.isSome_area?_of_child under ((isFragmentLike_of_data? (data root)).trans outer)
      ((isFragmentLike_of_data? (data area)).trans bare)
  refine ⟨root, container, foremost, ⟨area, placeable, ?_, under, ?_⟩, ?_⟩
  · have within : Inside (h.moveTaskToFront k).1 k area := by
      rcases foremost.inside with rfl | deeper
      · exact .child under
      · exact deeper.trans (.child under)
    obtain ⟨a, held⟩ := Option.isSome_iff_exists.mp placeable
    rcases within.comparable onDisplay with rfl | further | back
    · rw [display?_of_area? held] at shown
      cases shown
    · exact forest.parent_of_area held further
    · obtain ⟨_, above⟩ := back.parent
      rw [forest.display?_of_parent above] at shown
      cases shown
  · exact (congrArg List.getLast? (children area)).trans front
  · have listed : display ∈ (h.moveTaskToFront k).1.displays :=
      formed.listed.mpr (Option.isSome_iff_exists.mp shown)
    rw [moved] at listed ⊢
    exact getLast?_moveDisplayToTop listed

end WindowHost.Hierarchy
