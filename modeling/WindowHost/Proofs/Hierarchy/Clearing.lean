import Mathlib.Data.List.Find
import WindowHost.Proofs.Hierarchy.Cover
import WindowHost.Proofs.Hierarchy.Records

/-! Clearing: removing activities. Nothing lies in an activity, so what stays keeps its place, its
data and all that encloses it, and every stack is the old one without the activities. -/
namespace WindowHost

/-- A stack without some nodes and what they hold. -/
def Layers.without (ks : List NodeId) : Layers → Layers
  | .nil => .nil
  | .node k inside below =>
    if k ∈ ks then below.without ks else .node k (inside.without ks) (below.without ks)

theorem Layers.tops_without (ks : List NodeId) (L : Layers) :
    (L.without ks).tops = L.tops.filter (· ∉ ks) := by
  induction L with
  | nil => rfl
  | node k inside below _ rest => by_cases out : k ∈ ks <;> simp [without, tops, out, rest]

namespace Hierarchy
variable {h h' h'' : Hierarchy} {c j k p : NodeId} {ks ls : List NodeId} {L : Layers}

/-- The second hierarchy is the first one without some nodes that hold nothing. -/
structure Cleared (ks : List NodeId) (h h' : Hierarchy) : Prop where
  next : h'.nodes.next = h.nodes.next
  childless : ∀ k ∈ ks, h.children k = []
  parent? : ∀ j, h'.parent? j = if j ∈ ks then none else h.parent? j
  children : ∀ j, h'.children j = (h.children j).filter (· ∉ ks)
  data? : ∀ j, h'.data? j = if j ∈ ks then none else h.data? j

theorem Cleared.refl (h : Hierarchy) : Cleared [] h h where
  next := rfl
  childless := by simp
  parent? := by simp
  children := by simp
  data? := by simp

theorem Cleared.trans (first : Cleared ks h h') (second : Cleared ls h' h'')
    (childless : ∀ k ∈ ls, h.children k = []) : Cleared (ks ++ ls) h h'' where
  next := second.next.trans first.next
  childless k member := (List.mem_append.mp member).elim (first.childless k) (childless k)
  parent? j := by
    rw [second.parent?, first.parent?]
    by_cases early : j ∈ ks <;> by_cases late : j ∈ ls <;> simp [early, late]
  children j := by
    rw [second.children, first.children, List.filter_filter]
    apply List.filter_congr
    intro i _
    simp [Bool.and_comm]
  data? j := by
    rw [second.data?, first.data?]
    by_cases early : j ∈ ks <;> by_cases late : j ∈ ls <;> simp [early, late]

theorem data?_erase_of_activity (leaf : h.tag? k = some .activity) (j : NodeId) :
    (h.erase k).data? j = if j = k then none else h.data? j := by
  obtain ⟨r, held⟩ := Option.isSome_iff_exists.mp (isActivity_eq_true_iff.mpr leaf)
  have single : h.adjacent? k = none := by
    cases found : h.data? k with
    | none => simp [adjacent?, found]
    | some d => cases d <;> simp_all [adjacent?, activity?, NodeData.adjacent?, NodeData.activity?]
  by_cases same : j = k
  · simp [data?, node?_erase, same]
  · have kept : (h.clearAdjacent k).data? j = h.data? j := by
      simp only [clearAdjacent, single]
      rw [data?_modifyData, if_neg same]
    rw [data?, node?_erase, if_neg same, if_neg same]
    exact kept

/-- No activity, gone or not, holds anything. -/
theorem Forest.childless_of_leaf (forest : Forest h)
    (leaf : ∀ t, h.tag? k = some t → t = .activity) : h.children k = [] := by
  cases found : h.tag? k with
  | none => exact children_of_not_contains (by simp [contains_eq_isSome_tag?, found])
  | some t => exact forest.childless_of_activity (leaf t found ▸ found)

theorem Forest.cleared_remove_of_activity (forest : Forest h) (leaf : h.tag? k = some .activity) :
    Cleared [k] h (h.remove k) := by
  have live : h.contains k = true := by simp [contains_eq_isSome_tag?, leaf]
  have childless := forest.childless_of_activity leaf
  have alone : (h.subtree k).ids = [k] := forest.ids_subtree_of_childless live childless
  constructor
  · exact next_remove h k
  · simpa using childless
  · intro j
    rw [parent?_remove, alone, parent?_unlink]
    by_cases same : j = k <;> simp [same]
  · intro j
    rw [children_remove, alone, children_unlink]
    by_cases same : j = k
    · simp [same, childless]
    · have single : (h.children j).filter (· ∉ [k]) = (h.children j).filter (· != k) := by
        apply List.filter_congr
        intro i _
        by_cases here : i = k <;> simp [here]
      rw [if_neg (by simpa using same), single]
      split
      · rfl
      · rename_i apart
        refine (List.filter_eq_self.mpr fun i member => ?_).symm
        rw [bne_iff_ne]
        rintro rfl
        exact apart (forest.mem_children_iff.mp member)
  · intro j
    rw [Hierarchy.remove, alone, List.foldl_cons, List.foldl_nil,
      data?_erase_of_activity ((tag?_unlink h k k).trans leaf), data?_unlink]
    simp

theorem Forest.cleared_remove (forest : Forest h)
    (leaf : ∀ t, h.tag? k = some t → t = .activity) : Cleared [k] h (h.remove k) := by
  cases found : h.tag? k with
  | some t => exact forest.cleared_remove_of_activity (leaf t found ▸ found)
  | none =>
    have stale : h.contains k = false := by simp [contains_eq_isSome_tag?, found]
    have alone := parent?_of_not_contains stale
    have kept : h.remove k = h := by
      simp [Hierarchy.remove, subtree_of_not_contains stale, Layers.ids, Hierarchy.unlink, alone]
    rw [kept]
    refine ⟨rfl, by simpa using children_of_not_contains stale, fun j => ?_, fun j => ?_,
      fun j => ?_⟩
    · by_cases same : j = k <;> simp [same, alone]
    · refine (List.filter_eq_self.mpr fun i member => ?_).symm
      have live := (forest.child member).1
      simp only [List.mem_singleton, decide_not, Bool.not_eq_true', decide_eq_false_iff_not]
      rintro rfl
      rw [stale] at live
      contradiction
    · by_cases same : j = k <;> simp [same, data?_of_not_contains stale]

/-- Activities are removed one after the other, and some of them may be gone already. -/
theorem Forest.cleared_foldl_remove (ks : List NodeId) : ∀ {h : Hierarchy}, Forest h →
    (∀ k ∈ ks, ∀ t, h.tag? k = some t → t = .activity) →
      Cleared ks h (ks.foldl Hierarchy.remove h) := by
  induction ks with
  | nil => exact fun _ _ => .refl _
  | cons k ks ih =>
    intro h forest leaves
    obtain ⟨leaf, leaves⟩ := List.forall_mem_cons.mp leaves
    have first := forest.cleared_remove leaf
    refine first.trans (ih (forest.remove k) fun j member t found => ?_)
      fun j member => forest.childless_of_leaf (leaves j member)
    rw [tag?, first.data?] at found
    split at found
    · contradiction
    · exact leaves j member t found

theorem Forest.cleared_of_isActivity (forest : Forest h)
    (leaves : ∀ k ∈ ks, h.isActivity k = true) : Cleared ks h (ks.foldl Hierarchy.remove h) := by
  refine forest.cleared_foldl_remove ks fun k member t found => ?_
  rw [isActivity_eq_true_iff.mp (leaves k member)] at found
  exact (Option.some.inj found).symm

theorem not_mem_of_isTask (leaves : ∀ k ∈ ks, h.isActivity k = true)
    (task : h.isTask c = true) : c ∉ ks := by
  intro member
  obtain ⟨i, held⟩ := isTask_eq_true_iff.mp task
  simp [isActivity_eq_true_iff.mp (leaves c member)] at held

theorem Forest.foldl_remove (ks : List NodeId) : ∀ {h : Hierarchy}, Forest h →
    Forest (ks.foldl Hierarchy.remove h) := by
  induction ks with
  | nil => exact id
  | cons k ks ih => exact fun forest => ih (forest.remove k)

theorem WellFormed.foldl_remove (ks : List NodeId) : ∀ {h : Hierarchy}, h.WellFormed →
    (ks.foldl Hierarchy.remove h).WellFormed := by
  induction ks with
  | nil => exact id
  | cons k ks ih => exact fun formed => ih (formed.remove k)

/-- The displays stay as they are. -/
theorem WellFormed.displays_remove_of_activity (formed : h.WellFormed)
    (leaf : ∀ t, h.tag? k = some t → t = .activity) : (h.remove k).displays = h.displays := by
  rw [displays_remove]
  refine List.filter_eq_self.mpr fun d member => decide_eq_true fun listed => ?_
  have live := contains_of_mem_subtree listed
  obtain ⟨t, found⟩ := Option.isSome_iff_exists.mp (contains_eq_isSome_tag? h k ▸ live)
  obtain rfl := leaf t found
  rw [formed.forest.ids_subtree_of_childless live (formed.forest.childless_of_activity found),
    List.mem_singleton] at listed
  obtain ⟨i, shown⟩ := (wellFormed_iff.mp formed).2.listed.mp member
  simp [listed, found] at shown

theorem WellFormed.displays_foldl_remove (ks : List NodeId) : ∀ {h : Hierarchy}, h.WellFormed →
    (∀ k ∈ ks, ∀ t, h.tag? k = some t → t = .activity) →
      (ks.foldl Hierarchy.remove h).displays = h.displays := by
  induction ks with
  | nil => exact fun _ _ => rfl
  | cons k ks ih =>
    intro h formed leaves
    obtain ⟨leaf, leaves⟩ := List.forall_mem_cons.mp leaves
    refine (ih (formed.remove k) fun j member t found => ?_).trans
      (formed.displays_remove_of_activity leaf)
    rw [tag?_remove] at found
    split at found
    · contradiction
    · exact leaves j member t found

section
variable (cleared : Cleared ks h h')
include cleared

theorem Cleared.faithful (faithful : L.Faithful h) : (L.without ks).Faithful h' := by
  induction L with
  | nil => trivial
  | node k inside below inner rest =>
    obtain ⟨shown, deep, further⟩ := faithful
    by_cases out : k ∈ ks
    · simpa [Layers.without, out] using rest further
    · simp only [Layers.without, out, if_false]
      refine ⟨?_, inner deep, rest further⟩
      rw [Layers.tops_without, shown, cleared.children, List.filter_reverse]

theorem Cleared.ids_without (faithful : L.Faithful h) :
    (L.without ks).ids = L.ids.filter (· ∉ ks) := by
  induction L with
  | nil => rfl
  | node k inside below inner rest =>
    obtain ⟨shown, deep, further⟩ := faithful
    by_cases out : k ∈ ks
    · have empty : inside = .nil :=
        Layers.eq_nil_of_tops (by rw [shown, cleared.childless k out, List.reverse_nil])
      simp [Layers.without, Layers.ids, out, empty, rest further]
    · simp [Layers.without, Layers.ids, out, inner deep, rest further]

theorem Cleared.contains (c : NodeId) : h'.contains c = (h.contains c && c ∉ ks) := by
  rw [contains_eq_isSome_data?, contains_eq_isSome_data?, cleared.data?]
  by_cases out : c ∈ ks <;> simp [out]

theorem Cleared.activity? (stays : c ∉ ks) : h'.activity? c = h.activity? c :=
  activity?_of_data? (by rw [cleared.data?, if_neg stays])

theorem Cleared.subtree (forest : Forest h) (forest' : Forest h') (stays : c ∉ ks) :
    h'.subtree c = (h.subtree c).without ks := by
  refine (forest'.faithful_subtree c).unique (cleared.faithful (forest.faithful_subtree c)) ?_
  unfold Hierarchy.subtree
  rw [cleared.contains]
  cases h.contains c <;> simp [Layers.without, Layers.tops, stays]

theorem Cleared.activities (forest : Forest h) (forest' : Forest h') (stays : c ∉ ks) :
    h'.activities c = (h.activities c).filter (· ∉ ks) := by
  have activity : ∀ j ∉ ks, h'.isActivity j = h.isActivity j :=
    fun j stays => congrArg Option.isSome (cleared.activity? stays)
  rw [Hierarchy.activities, cleared.subtree forest forest' stays,
    cleared.ids_without (forest.faithful_subtree c), Hierarchy.activities, List.filter_filter,
    List.filter_filter]
  apply List.filter_congr
  intro j _
  by_cases out : j ∈ ks <;> simp [out, activity]

theorem Cleared.topRunningActivity? (forest : Forest h) (forest' : Forest h') (stays : c ∉ ks) :
    h'.topRunningActivity? c =
      ((h.activities c).filter (· ∉ ks)).find? (h.activityHas ActivityRecord.isRunning) := by
  rw [Hierarchy.topRunningActivity?, cleared.activities forest forest' stays]
  apply List.find?_congr
  intro j member
  have stays : j ∉ ks := by simpa using (List.mem_filter.mp member).2
  rw [activityHas, activityHas, cleared.activity? stays]

end

end Hierarchy
end WindowHost
