import Mathlib.Data.List.Nodup
import Mathlib.Data.List.Perm.Subperm
import WindowHost.Proofs.Hierarchy.Lookup

/-! Hierarchies whose links form a forest. Parents and child lists agree, each pair of them is of
kinds that fit, and every climb along the parents ends. The bounded climb then meets exactly the
nodes that enclose where it started. -/
namespace WindowHost.Hierarchy
variable {h : Hierarchy} {a k p : NodeId} {l : List NodeId}

/-- Following parent links from `k` ends at a node without a parent. -/
inductive Rooted (h : Hierarchy) : NodeId → Prop where
  | top {k : NodeId} (alone : h.parent? k = none) : Rooted h k
  | under {k p : NodeId} (placed : h.parent? k = some p) (above : Rooted h p) : Rooted h k

/-- `k` lies in `a`, at any depth. -/
inductive Inside (h : Hierarchy) : NodeId → NodeId → Prop where
  | child {k a : NodeId} (placed : h.parent? k = some a) : Inside h k a
  | deeper {k p a : NodeId} (placed : h.parent? k = some p) (further : Inside h p a) : Inside h k a

/-- `p` is of a kind that may hold `c`. -/
def Fits (h : Hierarchy) (p c : NodeId) : Prop :=
  ∃ outer inner, h.data? p = some outer ∧ h.data? c = some inner ∧ outer.canContain inner = true

structure Forest (h : Hierarchy) : Prop where
  /-- Every listed child is there and points back. -/
  child : ∀ {p c}, c ∈ h.children p → h.contains c = true ∧ h.parent? c = some p
  /-- Every node with a parent is listed there once. -/
  once : ∀ {p c}, h.parent? c = some p → (h.children p).count c = 1
  kinds : ∀ {p c}, h.parent? c = some p → Fits h p c
  rooted : ∀ k, Rooted h k

theorem Fits.contains_parent {c : NodeId} (fits : Fits h p c) : h.contains p = true := by
  obtain ⟨outer, inner, found, _⟩ := fits
  exact contains_of_data? found

theorem Fits.contains_child {c : NodeId} (fits : Fits h p c) : h.contains c = true := by
  obtain ⟨outer, inner, _, found, _⟩ := fits
  exact contains_of_data? found

theorem Inside.trans {b : NodeId} (inner : Inside h k p) (outer : Inside h p b) : Inside h k b := by
  induction inner with
  | child placed => exact .deeper placed outer
  | deeper placed _ ih => exact .deeper placed (ih outer)

theorem Inside.parent (inside : Inside h k a) : ∃ p, h.parent? k = some p := by
  cases inside with
  | child placed => exact ⟨_, placed⟩
  | deeper placed _ => exact ⟨_, placed⟩

theorem Inside.exists_child (inside : Inside h k a) : ∃ c, h.parent? c = some a := by
  induction inside with
  | child placed => exact ⟨_, placed⟩
  | deeper _ _ ih => exact ih

theorem inside_iff_of_parent (placed : h.parent? k = some p) :
    Inside h k a ↔ p = a ∨ Inside h p a := by
  constructor
  · intro inside
    cases inside with
    | child direct => exact .inl (Option.some.inj (placed.symm.trans direct))
    | deeper other further =>
      obtain rfl := Option.some.inj (placed.symm.trans other)
      exact .inr further
  · rintro (rfl | further)
    · exact .child placed
    · exact .deeper placed further

theorem not_inside_of_root (alone : h.parent? k = none) : ¬ Inside h k a := by
  intro inside
  obtain ⟨p, placed⟩ := inside.parent
  rw [alone] at placed
  contradiction

/-- A node that lies in itself never stops climbing. -/
theorem Rooted.not_inside_self (rooted : Rooted h k) : ¬ Inside h k k := by
  induction rooted with
  | top alone => exact not_inside_of_root alone
  | @under k p placed _ ih =>
    intro inside
    rcases (inside_iff_of_parent placed).mp inside with rfl | further
    · exact ih (.child placed)
    · exact ih (further.trans (.child placed))

/-- The whole climb from a node: its strict ancestors, nearest first. -/
def Climb (h : Hierarchy) : NodeId → List NodeId → Prop
  | k, [] => h.parent? k = none
  | k, p :: l => h.parent? k = some p ∧ Climb h p l

theorem Rooted.climb (rooted : Rooted h k) : ∃ l, Climb h k l := by
  induction rooted with
  | top alone => exact ⟨[], alone⟩
  | under placed _ ih =>
    obtain ⟨l, climb⟩ := ih
    exact ⟨_ :: l, placed, climb⟩

theorem Climb.within (climb : Climb h k l) (steps : Nat) :
    h.ancestorsWithin steps k = l.take steps := by
  induction steps generalizing k l with
  | zero => rfl
  | succ steps ih =>
    cases l with
    | nil =>
      have alone : h.parent? k = none := climb
      simp only [ancestorsWithin, alone, List.take_nil]
    | cons p l =>
      obtain ⟨placed, further⟩ := climb
      simp only [ancestorsWithin, placed, ih further, List.take_succ_cons]

theorem Climb.mem_iff (climb : Climb h k l) : a ∈ l ↔ Inside h k a := by
  induction l generalizing k with
  | nil => simpa using not_inside_of_root climb
  | cons p l ih =>
    obtain ⟨placed, further⟩ := climb
    rw [List.mem_cons, ih further, inside_iff_of_parent placed, eq_comm]

theorem Climb.nodup (climb : Climb h k l) (rooted : ∀ j, Rooted h j) : (k :: l).Nodup := by
  induction l generalizing k with
  | nil => simp
  | cons p l ih =>
    refine List.nodup_cons.mpr ⟨?_, ih climb.2⟩
    rw [climb.mem_iff]
    exact (rooted k).not_inside_self

namespace Forest
variable (forest : Forest h)
include forest

theorem contains_parent {c : NodeId} (placed : h.parent? c = some p) : h.contains p = true :=
  (forest.kinds placed).contains_parent

theorem contains_of_inside (inside : Inside h k a) : h.contains a = true := by
  induction inside with
  | child placed => exact forest.contains_parent placed
  | deeper _ _ ih => exact ih

theorem mem_children_iff {c : NodeId} : c ∈ h.children p ↔ h.parent? c = some p := by
  constructor
  · exact fun member => (forest.child member).2
  · intro placed
    exact List.count_pos_iff.mp (by rw [forest.once placed]; exact Nat.one_pos)

theorem nodup_children (p : NodeId) : (h.children p).Nodup := by
  apply List.nodup_iff_count_le_one.mpr
  intro c
  by_cases member : c ∈ h.children p
  · exact Nat.le_of_eq (forest.once (forest.child member).2)
  · simp [List.count_eq_zero_of_not_mem member]

end Forest

/-- There are at most as many nodes as keys were issued. -/
theorem length_le_next (nodup : l.Nodup) (live : ∀ k ∈ l, h.contains k = true) :
    l.length ≤ h.nodes.next := by
  have indices : (l.map NodeId.index).Nodup :=
    nodup.map fun ⟨_⟩ ⟨_⟩ same => congrArg NodeId.mk same
  have below : l.map NodeId.index ⊆ List.range h.nodes.next := by
    intro i member
    obtain ⟨k, found, rfl⟩ := List.mem_map.mp member
    exact List.mem_range.mpr (index_lt_next (live k found))
  simpa using (indices.subperm below).length_le

namespace Forest
variable (forest : Forest h)
include forest

/-- The step bound of `ancestors` is never what ends the climb. -/
theorem climb_ancestors (k : NodeId) : Climb h k (h.ancestors k) := by
  obtain ⟨l, climb⟩ := (forest.rooted k).climb
  have live : ∀ a ∈ l, h.contains a = true :=
    fun a member => forest.contains_of_inside (climb.mem_iff.mp member)
  have bound := length_le_next (climb.nodup forest.rooted).of_cons live
  have whole : h.ancestors k = l := (climb.within _).trans (List.take_of_length_le bound)
  rwa [whole]

theorem mem_ancestors : a ∈ h.ancestors k ↔ Inside h k a :=
  (forest.climb_ancestors k).mem_iff

theorem isDescendantOf_iff : h.isDescendantOf k a = true ↔ Inside h k a :=
  List.contains_iff_mem.trans forest.mem_ancestors

theorem ancestors_of_parent (placed : h.parent? k = some p) :
    h.ancestors k = p :: h.ancestors p := by
  have climb : Climb h k (p :: h.ancestors p) := ⟨placed, forest.climb_ancestors p⟩
  have live : ∀ a ∈ p :: h.ancestors p, h.contains a = true :=
    fun a member => forest.contains_of_inside (climb.mem_iff.mp member)
  have bound := length_le_next (climb.nodup forest.rooted).of_cons live
  exact (climb.within _).trans (List.take_of_length_le bound)

theorem not_inside_self (k : NodeId) : ¬ Inside h k k := (forest.rooted k).not_inside_self

end Forest
end WindowHost.Hierarchy
