import WindowHost.Hierarchy.Occlusion
import WindowHost.Proofs.Hierarchy.Roots
import WindowHost.Proofs.Hierarchy.Standing

/-! What covers a child, one sibling after the other. A scan of the siblings above depends on the
order only through the partners that it has noted, and those are the partners of the opaque
containers that it has passed. -/
namespace WindowHost.Hierarchy
variable {h : Hierarchy} {starting : Option NodeId} {bounds : Rect} {j k p x : NodeId}
  {above rest : List NodeId}

/-- The partners that a scan has noted once it is through. -/
def notedPartners (h : Hierarchy) (starting : Option NodeId) :
    List NodeId → List NodeId → List NodeId
  | partners, [] => partners
  | partners, k :: below =>
    if (h.activity? k).isNone && h.isOpaque k starting then
      h.notedPartners starting ((h.adjacent? k).toList ++ partners) below
    else h.notedPartners starting partners below

theorem coversAll_append (xs ys partners : List NodeId) :
    h.coversAll starting bounds partners (xs ++ ys) =
      (h.coversAll starting bounds partners xs ||
        h.coversAll starting bounds (h.notedPartners starting partners xs) ys) := by
  induction xs generalizing partners with
  | nil => rfl
  | cons k below ih =>
    simp only [List.cons_append, coversAll, notedPartners]
    cases h.activity? k with
    | some r => simp [ih, Bool.or_assoc]
    | none => cases h.isOpaque k starting <;> simp [ih, Bool.or_assoc]

theorem mem_notedPartners (ks partners : List NodeId) :
    x ∈ h.notedPartners starting partners ks ↔ x ∈ partners ∨
      ∃ j ∈ ks, h.activity? j = none ∧ h.isOpaque j starting = true ∧ h.adjacent? j = some x := by
  induction ks generalizing partners with
  | nil => simp [notedPartners]
  | cons k below ih =>
    rw [notedPartners]
    split
    · rename_i noted
      rw [ih]
      simp only [Bool.and_eq_true, Option.isNone_iff_eq_none] at noted
      simp [noted, or_assoc, or_comm]
    · rename_i passed
      rw [ih]
      simp only [Bool.and_eq_true, Option.isNone_iff_eq_none] at passed
      have unnoted : ¬ (h.activity? k = none ∧ h.isOpaque k starting = true ∧
          h.adjacent? k = some x) := fun found => passed ⟨found.1, found.2.1⟩
      simp [unnoted]

/-- Whether one of the siblings above is opaque and has a node as its partner. -/
def pairedAbove (h : Hierarchy) (starting : Option NodeId) (above : List NodeId) (k : NodeId) :
    Bool :=
  above.any fun j => (h.activity? j).isNone && h.isOpaque j starting && h.adjacent? j == some k

/-- Whether one more sibling covers all of `bounds`, alone or with one of those above it. -/
def coversNext (h : Hierarchy) (starting : Option NodeId) (bounds : Rect) (above : List NodeId)
    (k : NodeId) : Bool :=
  match h.activity? k with
  | some r => r.isRunning && r.occludesParent
  | none =>
    h.isOpaque k starting && (h.bounds k == bounds || h.pairedAbove starting above k)

theorem coversAll_concat (above : List NodeId) (k : NodeId) :
    h.coversAll starting bounds [] (above ++ [k]) =
      (h.coversAll starting bounds [] above || h.coversNext starting bounds above k) := by
  have paired : (h.notedPartners starting [] above).contains k =
      h.pairedAbove starting above k := by
    rw [Bool.eq_iff_iff]
    simp [mem_notedPartners, pairedAbove, and_assoc]
  rw [coversAll_append, coversNext, ← paired]
  congr 1
  simp only [coversAll]
  cases h.activity? k with
  | some r => simp
  | none => cases h.isOpaque k starting <;> simp

theorem siblingsAbove_of_children {lower upper : List NodeId}
    (split : h.children p = lower ++ k :: upper) (first : k ∉ lower) :
    h.siblingsAbove p k = upper.reverse := by
  have skipped : (h.children p).dropWhile (· != k) = k :: upper := by
    rw [split, List.dropWhile_append_of_pos, List.dropWhile_cons_of_neg]
    · simp
    · intro x member
      simpa using fun same : x = k => first (same ▸ member)
  rw [siblingsAbove, skipped, List.tail_cons]

theorem siblingsAbove_eq (nodup : (h.children p).Nodup)
    (shown : (h.children p).reverse = above ++ k :: rest) : h.siblingsAbove p k = above := by
  have split : h.children p = rest.reverse ++ k :: above.reverse := by
    rw [← List.reverse_reverse (h.children p), shown]
    simp
  have lower : k ∉ rest.reverse := by
    rw [split] at nodup
    intro member
    exact (List.nodup_append.mp nodup).2.2 k member k List.mem_cons_self rfl
  rw [siblingsAbove_of_children split lower, List.reverse_reverse]

theorem mem_of_mem_siblingsAbove (member : j ∈ h.siblingsAbove p k) : j ∈ h.children p :=
  (List.dropWhile_sublist _).subset (List.mem_of_mem_tail (List.mem_reverse.mp member))

theorem area?_of_isFragmentLike (container : h.isFragmentLike k = true) : h.area? k = none := by
  cases found : h.data? k with
  | none => simp [area?, found]
  | some d => cases d <;> simp_all [isFragmentLike, area?, NodeData.isFragmentLike, NodeData.area?]

theorem display?_of_isFragmentLike (container : h.isFragmentLike k = true) :
    h.display? k = none := by
  cases found : h.data? k with
  | none => simp [display?, found]
  | some d =>
    cases d <;> simp_all [isFragmentLike, display?, NodeData.isFragmentLike, NodeData.display?]

theorem activity?_of_isFragmentLike (container : h.isFragmentLike k = true) :
    h.activity? k = none := by
  cases found : h.data? k with
  | none => simp [activity?, found]
  | some d =>
    cases d <;> simp_all [isFragmentLike, activity?, NodeData.isFragmentLike, NodeData.activity?]

theorem isFragmentLike_of_isTask (task : h.isTask k = true) : h.isFragmentLike k = true := by
  cases found : h.data? k with
  | none => simp [isTask, task?, found] at task
  | some d => cases d <;> simp_all [isTask, task?, isFragmentLike, NodeData.isFragmentLike,
      NodeData.task?]

theorem isFragmentLike_of_adjacent? (paired : h.adjacent? k = some j) :
    h.isFragmentLike k = true := by
  cases found : h.data? k with
  | none => simp [adjacent?, found] at paired
  | some d =>
    cases d <;> simp_all [isFragmentLike, adjacent?, NodeData.isFragmentLike, NodeData.adjacent?]

theorem isActivity_of_activityHas {q : ActivityRecord → Bool} (held : h.activityHas q k = true) :
    h.isActivity k = true := by
  cases found : h.activity? k <;> simp_all [activityHas, isActivity]

theorem contains_of_activityHas {q : ActivityRecord → Bool} (held : h.activityHas q k = true) :
    h.contains k = true := by
  obtain ⟨d, found, _⟩ := Option.bind_eq_some_iff.mp
    (Option.isSome_iff_exists.mp (isActivity_of_activityHas held)).choose_spec
  exact contains_of_data? found

/-- A container shows its activities in the order of its stack. -/
theorem topRunningActivity?_of_isFragmentLike (container : h.isFragmentLike k = true) :
    h.topRunningActivity? k =
      (h.contents k).ids.find? (h.activityHas ActivityRecord.isRunning) := by
  have live : h.contains k = true := by
    rw [isFragmentLike] at container
    cases found : h.data? k with
    | none => simp [found] at container
    | some d => exact contains_of_data? found
  have itself : h.activityHas ActivityRecord.isRunning k = false := by
    simp [activityHas, activity?_of_isFragmentLike container]
  have running : (fun x => h.isActivity x && h.activityHas ActivityRecord.isRunning x) =
      h.activityHas ActivityRecord.isRunning := by
    funext x
    cases runs : h.activityHas ActivityRecord.isRunning x with
    | false => simp
    | true => simp [isActivity_of_activityHas runs]
  rw [topRunningActivity?, activities, List.find?_filter, subtree, if_pos live]
  simp only [Bool.decide_and, Bool.decide_eq_true, running]
  simp [Layers.ids, itself]

namespace Forest
variable (forest : Forest h)
include forest

/-- Display areas lie in no task and no fragment. -/
theorem area?_of_inside (inside : Inside h k p) (container : h.isFragmentLike p = true) :
    h.area? k = none := by
  cases held : h.area? k with
  | none => rfl
  | some area =>
    have shown := forest.isSome_area?_of_parent (forest.parent_of_area held inside)
    rw [held, display?_of_isFragmentLike container] at shown
    contradiction

theorem not_inside_of_area (area : (h.area? k).isSome = true)
    (container : h.isFragmentLike p = true) : ¬ (k = p ∨ Inside h k p) := by
  rintro (rfl | inside)
  · rw [area?_of_isFragmentLike container] at area
    contradiction
  · rw [forest.area?_of_inside inside container] at area
    contradiction

theorem hasRunningActivity_iff : h.hasRunningActivity k = true ↔
    ∃ x, (x = k ∨ Inside h x k) ∧ h.activityHas ActivityRecord.isRunning x = true := by
  rw [hasRunningActivity, topRunningActivity?, List.find?_isSome]
  constructor
  · rintro ⟨x, member, runs⟩
    have listed := (List.mem_filter.mp member).1
    exact ⟨x, (forest.mem_ids_subtree (contains_of_mem_subtree listed)).mp listed, runs⟩
  · rintro ⟨x, place, runs⟩
    have activity := isActivity_of_activityHas runs
    have live : h.contains k = true := by
      rcases place with rfl | inside
      · exact contains_of_activityHas runs
      · exact forest.contains_of_inside inside
    exact ⟨x, List.mem_filter.mpr ⟨(forest.mem_ids_subtree live).mpr place, activity⟩, runs⟩

/-- What runs in a task lies inside it. -/
theorem exists_running_of_isTask (task : h.isTask k = true)
    (runs : h.hasRunningActivity k = true) :
    ∃ x, Inside h x k ∧ h.activityHas ActivityRecord.isRunning x = true := by
  obtain ⟨x, rfl | inside, held⟩ := forest.hasRunningActivity_iff.mp runs
  · simp [activityHas, activity?_of_isFragmentLike (isFragmentLike_of_isTask task)] at held
  · exact ⟨x, inside, held⟩

theorem hasRunningActivity_eq_false_iff : h.hasRunningActivity k = false ↔
    ∀ x ∈ k :: (h.contents k).ids, h.activityHas ActivityRecord.isRunning x = false := by
  rw [← Bool.not_eq_true, forest.hasRunningActivity_iff]
  simp [forest.mem_ids_contents]

/-- Nothing lies in an activity. -/
theorem eq_of_mem_activity {r : ActivityRecord} (held : h.activity? k = some r) :
    ∀ x ∈ k :: (h.contents k).ids, x = k := by
  intro x listed
  rcases List.mem_cons.mp listed with same | within
  · exact same
  · obtain ⟨c, under, _⟩ := forest.inside_iff_child.mp (forest.mem_ids_contents.mp within)
    rw [forest.childless_of_activity (isActivity_eq_true_iff.mp (by simp [isActivity, held]))]
      at under
    contradiction

/-- A child that runs something is to be seen when its container is and no sibling covers it. -/
theorem shouldBeVisible_child (container : h.isFragmentLike p = true)
    (shown : (h.children p).reverse = above ++ k :: rest) (runs : h.hasRunningActivity k = true) :
    h.shouldBeVisible k none =
      (h.shouldBeVisible p none && !h.coversAll none (h.bounds p) [] above) := by
  have member : k ∈ h.children p := by
    rw [← List.mem_reverse, shown]
    simp
  have placed := (forest.child member).2
  have outer : h.hasRunningActivity p = true := by
    obtain ⟨x, place, runs⟩ := forest.hasRunningActivity_iff.mp runs
    refine forest.hasRunningActivity_iff.mpr ⟨x, .inr ?_, runs⟩
    rcases place with rfl | inside
    · exact .child placed
    · exact inside.trans (.child placed)
  simp only [shouldBeVisible, runs, outer, forest.ancestors_of_parent placed, isUncovered,
    area?_of_isFragmentLike container, container, isCoveredBySiblings,
    siblingsAbove_eq (forest.nodup_children p) shown, Option.isSome_none, Bool.true_or,
    Bool.true_and, Bool.false_eq_true, if_false]
  exact Bool.and_comm ..

/-- What a container holds is a container or an activity. -/
theorem exists_activity?_of_child (container : h.isFragmentLike p = true)
    (member : k ∈ h.children p) (plain : h.isFragmentLike k = false) :
    ∃ r, h.activity? k = some r := by
  obtain ⟨outer, inner, foundOuter, foundInner, allowed⟩ := forest.kinds (forest.child member).2
  cases outer <;> cases inner <;>
    simp_all [isFragmentLike, activity?, NodeData.isFragmentLike, NodeData.activity?,
      NodeData.canContain]

/-- Activities lie in containers. -/
theorem isFragmentLike_of_activity {r : ActivityRecord} (placed : h.parent? k = some p)
    (held : h.activity? k = some r) : h.isFragmentLike p = true := by
  obtain ⟨outer, inner, foundOuter, foundInner, allowed⟩ := forest.kinds placed
  cases outer <;> cases inner <;>
    simp_all [isFragmentLike, activity?, NodeData.isFragmentLike, NodeData.activity?,
      NodeData.canContain]

/-- What is no activity has the type of the container around it. -/
theorem activityType_of_parent (placed : h.parent? k = some p)
    (container : h.isFragmentLike p = true) (plain : h.activity? k = none) :
    h.activityType k = h.activityType p := by
  have nested : h.isRootTask k = false := by
    simp [isRootTask, placed, area?_of_isFragmentLike container]
  have root : h.rootTaskOf? k = h.rootTaskOf? p := by
    rw [rootTaskOf?, rootTaskOf?, forest.lineage_of_parent placed,
      List.find?_cons_of_neg (by simp [nested])]
  rw [activityType, activityType, root, plain, activity?_of_isFragmentLike container]

end Forest
end WindowHost.Hierarchy
