import WindowHost.Proofs.Hierarchy.Front
import WindowHost.Proofs.Hierarchy.Homes

/-! What lies in a task that moves. Nodes that are made elsewhere, and moves of the task itself,
leave everything in the task stacked as it was, so the task lists the same activities in the same
order. -/
namespace WindowHost.Hierarchy
variable {h h' : Hierarchy} {area c k p task : NodeId} {position : Position}

/-- Where nothing in a node gets or loses a child, its stack is the same. -/
theorem Forest.contents_of_children (forest : Forest h) (forest' : Forest h')
    (same : ∀ j, j = k ∨ Inside h j k → h'.children j = h.children j) :
    h'.contents k = h.contents k := by
  obtain ⟨tops, faithful⟩ := forest.faithful_contents k
  obtain ⟨tops', faithful'⟩ := forest'.faithful_contents k
  refine faithful'.unique (faithful.congr fun j listed => ?_) ?_
  · exact same j (.inr (forest.mem_ids_contents.mp listed))
  · rw [tops, tops', same k (.inl rfl)]

theorem children_insertUnder {data : NodeData} (added : h.insertUnder p data position = .ok h')
    (other : k ≠ p) : h'.children k = h.children k := by
  obtain ⟨_, _, _, _, _, rfl⟩ := insertUnder_eq_ok_iff.mp added
  rw [children_link, if_neg (fun here => other here.1), children_insert]

theorem Forest.isSome_area?_of_defaultArea? (forest : Forest h)
    (found : h.defaultArea? k = some area) : (h.area? area).isSome = true := by
  obtain ⟨d, shown, first⟩ := Option.bind_eq_some_iff.mp found
  rw [forest.isSome_area?_of_parent (forest.child (List.mem_of_head? first)).2, shown]
  rfl

section
variable (formed : h.WellFormed)
include formed

theorem WellFormed.contents_createTask {spec : TaskSpec}
    (made : h.createTask p spec position = .ok (h', c)) (aside : ¬ (p = k ∨ Inside h p k)) :
    h'.contents k = h.contents k := by
  have forest' := (formed.createTask made).forest
  obtain ⟨grown, added, rfl, _⟩ := createTask_eq_ok_iff.mp made
  refine formed.forest.contents_of_children forest' fun j place => ?_
  have kept : grown.children j = h.children j := by
    refine children_insertUnder added ?_
    rintro rfl
    exact aside place
  exact kept

theorem WellFormed.contents_moveTaskToFront (k : NodeId) :
    (h.moveTaskToFront k).1.contents k = h.contents k := by
  have forest' := (formed.moveTaskToFront k).forest
  refine formed.forest.contents_of_children forest' fun j place => ?_
  -- the raise reorders the children of what encloses the task, and none of that lies in it
  refine children_moveTaskToFront_of_not_mem forest' fun above => ?_
  have around := formed.forest.mem_ancestors.mp above
  rcases place with rfl | inside
  · exact formed.forest.not_inside_self _ around
  · exact formed.forest.not_inside_self _ (inside.trans around)

theorem WellFormed.contents_reparent (moved : h.reparent k p position = .ok h') :
    h'.contents k = h.contents k := by
  have forest := formed.forest
  have forest' := (formed.reparent moved).forest
  have carried : Carried k h h' := .reparent moved
  obtain ⟨live, placed⟩ := reparent_eq_ok_iff.mp moved
  obtain ⟨_, _, foundOuter, _, _, _, _, _, _, _, rfl⟩ := attach_eq_ok_iff.mp placed
  have liveParent : h.contains p = true := by
    rw [← contains_unlink h k]
    exact contains_of_data? foundOuter
  have under : ((h.unlink k).link p k position).parent? k = some p := by
    rw [parent?_link, if_pos ⟨rfl, by rwa [contains_unlink]⟩]
  refine forest.contents_of_children forest' fun j place => ?_
  have old : h.parent? k ≠ some j := by
    intro direct
    rcases place with rfl | inside
    · exact forest.not_inside_self _ (.child direct)
    · exact forest.not_inside_self _ (inside.trans (.child direct))
  have new : j ≠ p := by
    rintro rfl
    rcases place with rfl | inside
    · exact forest'.not_inside_self _ (.child under)
    · exact forest'.not_inside_self _
        (((carried.inside_iff forest forest' liveParent).mpr inside).trans (.child under))
  rw [children_link, if_neg (fun here => new here.1), children_unlink, if_neg old]

end

section
variable (forest : Forest h) (live : h.contains k = true)
  (data : ∀ j, h.contains j = true → h'.data? j = h.data? j)
  (contents : h'.contents k = h.contents k)
include forest live data contents

theorem Forest.activities_of_contents : h'.activities k = h.activities k := by
  have same : h'.subtree k = h.subtree k := by
    rw [subtree, subtree, contains_congr (data k live), contents]
  rw [activities, activities, same]
  refine List.filter_congr fun j member => ?_
  have present : h.contains j = true := by
    rcases (forest.mem_ids_subtree live).mp member with rfl | inside
    · exact live
    · obtain ⟨_, placed⟩ := inside.parent
      exact (forest.kinds placed).contains_child
  exact congrArg Option.isSome (activity?_of_data? (data j present))

/-- Searches of a node's activities find the same one. -/
theorem Forest.find?_activities_of_contents (p : ActivityRecord → Bool) :
    (h'.activities k).find? (h'.activityHas p) = (h.activities k).find? (h.activityHas p) := by
  rw [forest.activities_of_contents live data contents]
  refine List.find?_congr fun j member => ?_
  obtain ⟨a, held⟩ := Option.isSome_iff_exists.mp (List.mem_filter.mp member).2
  rw [activityHas, activityHas, activity?_of_data? (data j (contains_of_activity? held))]

end

end WindowHost.Hierarchy
