import WindowHost.Proofs.Hierarchy.Stack
import WindowHost.Proofs.Hierarchy.WellFormed

/-! Removing a node takes exactly what lies in it, and leaves the links of all other nodes alone. -/
namespace WindowHost.Hierarchy
variable {h : Hierarchy} {j k x : NodeId}

theorem node?_erase (h : Hierarchy) (k j : NodeId) :
    (h.erase k).node? j = if j = k then none else (h.clearAdjacent k).node? j := by
  cases k
  cases j
  simp [node?, erase, Arena.get?_erase]

theorem parent?_erase (h : Hierarchy) (k j : NodeId) :
    (h.erase k).parent? j = if j = k then none else h.parent? j := by
  rw [← (sameFrame_clearAdjacent h k).parent j]
  by_cases same : j = k <;> simp [parent?, node?_erase, same]

theorem children_erase (h : Hierarchy) (k j : NodeId) :
    (h.erase k).children j = if j = k then [] else h.children j := by
  rw [← (sameFrame_clearAdjacent h k).children j]
  by_cases same : j = k <;> simp [children, node?_erase, same]

theorem tag?_erase (h : Hierarchy) (k j : NodeId) :
    (h.erase k).tag? j = if j = k then none else h.tag? j := by
  rw [← (sameFrame_clearAdjacent h k).tag j]
  by_cases same : j = k <;> simp [tag?, data?, node?_erase, same]

theorem displays_erase (h : Hierarchy) (k : NodeId) :
    (h.erase k).displays = h.displays.filter (· != k) :=
  congrArg (List.filter (· != k)) (sameFrame_clearAdjacent h k).displays

theorem nextTaskId_erase (h : Hierarchy) (k : NodeId) :
    (h.erase k).nextTaskId = h.nextTaskId :=
  (sameFrame_clearAdjacent h k).nextTaskId

theorem parent?_foldl_erase (h : Hierarchy) (ks : List NodeId) (j : NodeId) :
    (ks.foldl erase h).parent? j = if j ∈ ks then none else h.parent? j := by
  induction ks generalizing h with
  | nil => simp
  | cons k ks ih =>
    rw [List.foldl_cons, ih, parent?_erase]
    by_cases later : j ∈ ks <;> by_cases now : j = k <;> simp [later, now]

theorem children_foldl_erase (h : Hierarchy) (ks : List NodeId) (j : NodeId) :
    (ks.foldl erase h).children j = if j ∈ ks then [] else h.children j := by
  induction ks generalizing h with
  | nil => simp
  | cons k ks ih =>
    rw [List.foldl_cons, ih, children_erase]
    by_cases later : j ∈ ks <;> by_cases now : j = k <;> simp [later, now]

theorem tag?_foldl_erase (h : Hierarchy) (ks : List NodeId) (j : NodeId) :
    (ks.foldl erase h).tag? j = if j ∈ ks then none else h.tag? j := by
  induction ks generalizing h with
  | nil => simp
  | cons k ks ih =>
    rw [List.foldl_cons, ih, tag?_erase]
    by_cases later : j ∈ ks <;> by_cases now : j = k <;> simp [later, now]

theorem displays_foldl_erase (h : Hierarchy) (ks : List NodeId) :
    (ks.foldl erase h).displays = h.displays.filter (· ∉ ks) := by
  induction ks generalizing h with
  | nil => simp
  | cons k ks ih =>
    rw [List.foldl_cons, ih, displays_erase, List.filter_filter]
    apply List.filter_congr
    intro j _
    by_cases now : j = k <;> simp [now]

theorem nextTaskId_foldl_erase (h : Hierarchy) (ks : List NodeId) :
    (ks.foldl erase h).nextTaskId = h.nextTaskId := by
  induction ks generalizing h with
  | nil => rfl
  | cons k ks ih => rw [List.foldl_cons, ih, nextTaskId_erase]

theorem parent?_remove (h : Hierarchy) (k j : NodeId) :
    (h.remove k).parent? j =
      if j ∈ (h.subtree k).ids then none else (h.unlink k).parent? j :=
  parent?_foldl_erase _ _ _

theorem children_remove (h : Hierarchy) (k j : NodeId) :
    (h.remove k).children j =
      if j ∈ (h.subtree k).ids then [] else (h.unlink k).children j :=
  children_foldl_erase _ _ _

theorem tag?_remove (h : Hierarchy) (k j : NodeId) :
    (h.remove k).tag? j = if j ∈ (h.subtree k).ids then none else h.tag? j := by
  rw [remove, tag?_foldl_erase, tag?_unlink]

theorem displays_remove (h : Hierarchy) (k : NodeId) :
    (h.remove k).displays = h.displays.filter (· ∉ (h.subtree k).ids) := by
  rw [remove, displays_foldl_erase, displays_unlink]

theorem nextTaskId_remove (h : Hierarchy) (k : NodeId) :
    (h.remove k).nextTaskId = h.nextTaskId := by
  rw [remove, nextTaskId_foldl_erase, nextTaskId_unlink]

theorem subtree_of_not_contains (stale : h.contains k = false) : h.subtree k = .nil := by
  simp [subtree, stale]

theorem contains_of_mem_subtree (member : x ∈ (h.subtree k).ids) : h.contains k = true := by
  cases live : h.contains k with
  | true => rfl
  | false =>
    rw [subtree_of_not_contains live] at member
    contradiction

namespace Forest
variable (forest : Forest h)
include forest

/-- What stays has its parent among what stays. -/
theorem mem_subtree_iff_of_parent {c p : NodeId} (placed : (h.unlink k).parent? c = some p) :
    c ∈ (h.subtree k).ids ↔ p ∈ (h.subtree k).ids := by
  obtain ⟨apart, placed⟩ := parent?_unlink_eq_some_iff.mp placed
  cases live : h.contains k with
  | false => simp [subtree_of_not_contains live, Layers.ids]
  | true =>
    rw [forest.mem_ids_subtree live, forest.mem_ids_subtree live,
      inside_iff_of_parent placed, or_iff_right apart]

theorem remove (k : NodeId) : Forest (h.remove k) where
  child := by
    intro p c member
    rw [children_remove] at member
    split at member
    · contradiction
    · have kept := (forest.unlink k).child member
      have stays : c ∉ (h.subtree k).ids :=
        fun taken => ‹p ∉ _› ((forest.mem_subtree_iff_of_parent kept.2).mp taken)
      rw [contains_eq_isSome_tag?, tag?_remove, parent?_remove, if_neg stays, if_neg stays,
        ← tag?_unlink h k, ← contains_eq_isSome_tag?]
      exact kept
  once := by
    intro p c placed
    rw [parent?_remove] at placed
    split at placed
    · contradiction
    · have stays : p ∉ (h.subtree k).ids :=
        fun taken => ‹c ∉ _› ((forest.mem_subtree_iff_of_parent placed).mpr taken)
      rw [children_remove, if_neg stays]
      exact (forest.unlink k).once placed
  kinds := by
    intro p c placed
    rw [parent?_remove] at placed
    split at placed
    · contradiction
    · have stays : p ∉ (h.subtree k).ids :=
        fun taken => ‹c ∉ _› ((forest.mem_subtree_iff_of_parent placed).mpr taken)
      refine ((forest.unlink k).kinds placed).of_tag? ?_ ?_
      · rw [tag?_remove, if_neg stays, tag?_unlink]
      · rw [tag?_remove, if_neg ‹c ∉ _›, tag?_unlink]
  rooted := by
    intro j
    induction (forest.unlink k).rooted j with
    | top alone => exact .top (by rw [parent?_remove, alone, ite_self])
    | @under j p placed _ ih =>
      by_cases taken : j ∈ (h.subtree k).ids
      · exact .top (by rw [parent?_remove, if_pos taken])
      · exact .under (by rw [parent?_remove, if_neg taken, placed]) ih

end Forest

theorem Named.remove (named : Named h) (k : NodeId) : Named (h.remove k) := by
  have kept : ∀ {j t}, (h.remove k).tag? j = some t → h.tag? j = some t := by
    intro j t found
    rw [tag?_remove] at found
    split at found
    · contradiction
    · exact found
  constructor
  · intro j
    rw [displays_remove, List.mem_filter, named.listed, tag?_remove]
    by_cases taken : j ∈ (h.subtree k).ids <;> simp [taken]
  · rw [displays_remove]
    exact named.displays_nodup.filter _
  · exact fun left right => named.display_unique (kept left) (kept right)
  · exact fun left right => named.task_unique (kept left) (kept right)
  · intro j i found
    rw [nextTaskId_remove]
    exact named.task_below (kept found)

theorem WellFormed.remove (formed : h.WellFormed) (k : NodeId) : (h.remove k).WellFormed := by
  obtain ⟨forest, named⟩ := wellFormed_iff.mp formed
  exact wellFormed_iff.mpr ⟨forest.remove k, named.remove k⟩

end WindowHost.Hierarchy
