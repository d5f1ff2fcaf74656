import WindowHost.Proofs.Hierarchy.Forest

/-! Stacks of a forest. The step bound of `stack` is never reached, so a stack shows every child of
every node in it, and lists each node once. -/
namespace WindowHost

/-- The nodes of a stack itself, without what they hold. -/
def Layers.tops : Layers → List NodeId
  | .nil => []
  | .node k _ below => k :: below.tops

theorem Layers.eq_nil_of_tops {L : Layers} (bare : L.tops = []) : L = .nil := by
  cases L with
  | nil => rfl
  | node => simp [tops] at bare

/-- Every node of the stack is shown with all of its children. -/
def Layers.Faithful (h : Hierarchy) : Layers → Prop
  | .nil => True
  | .node k inside below =>
    inside.tops = (h.children k).reverse ∧ inside.Faithful h ∧ below.Faithful h

/-- A faithful stack is determined by its own nodes. -/
theorem Layers.Faithful.unique {h : Hierarchy} {L M : Layers} (left : L.Faithful h)
    (right : M.Faithful h) (same : L.tops = M.tops) : L = M := by
  induction L generalizing M with
  | nil =>
    cases M with
    | nil => rfl
    | node => simp [Layers.tops] at same
  | node k inside below inner rest =>
    cases M with
    | nil => simp [Layers.tops] at same
    | node j inside' below' =>
      obtain ⟨rfl, sameBelow⟩ := List.cons.inj same
      rw [inner left.2.1 right.2.1 (left.1.trans right.1.symm), rest left.2.2 right.2.2 sameBelow]

theorem Layers.Faithful.congr {h h' : Hierarchy} {L : Layers} (faithful : L.Faithful h)
    (children : ∀ k ∈ L.ids, h'.children k = h.children k) : L.Faithful h' := by
  induction L with
  | nil => trivial
  | node k inside below inner rest =>
    obtain ⟨shown, deep, further⟩ := faithful
    obtain ⟨itself, others⟩ := List.forall_mem_cons.mp children
    obtain ⟨within, lower⟩ := List.forall_mem_append.mp others
    exact ⟨shown.trans (congrArg List.reverse itself).symm, inner deep within, rest further lower⟩

namespace Hierarchy
variable {h : Hierarchy} {a b c k p x : NodeId} {L : Layers}

theorem tops_stack_succ (h : Hierarchy) (depth : Nat) (ks : List NodeId) :
    (h.stack (depth + 1) ks).tops = ks := by
  induction ks with
  | nil => rfl
  | cons k ks ih =>
    simp only [stack, List.foldr_cons, Layers.tops, List.cons.injEq, true_and]
    simpa only [stack] using ih

/-- What lies in `k` reaches at most `n` levels below it. -/
def Shallow (h : Hierarchy) : Nat → NodeId → Prop
  | 0, k => h.children k = []
  | n + 1, k => ∀ c ∈ h.children k, Shallow h n c

theorem Shallow.tops_stack {n : Nat} (shallow : Shallow h n k) :
    (h.stack n (h.children k).reverse).tops = (h.children k).reverse := by
  cases n with
  | zero =>
    have childless : h.children k = [] := shallow
    simp [childless, stack, Layers.tops]
  | succ n => exact tops_stack_succ h n _

theorem faithful_stack_succ {n : Nat} {ks : List NodeId}
    (shallow : ∀ k ∈ ks, Shallow h n k) : (h.stack (n + 1) ks).Faithful h := by
  induction n generalizing ks with
  | zero =>
    induction ks with
    | nil => trivial
    | cons k ks ih =>
      have rest := ih fun j member => shallow j (List.mem_cons_of_mem _ member)
      refine ⟨(shallow k List.mem_cons_self).tops_stack, trivial, ?_⟩
      simpa only [stack] using rest
  | succ n deeper =>
    induction ks with
    | nil => trivial
    | cons k ks ih =>
      have rest := ih fun j member => shallow j (List.mem_cons_of_mem _ member)
      have here := shallow k List.mem_cons_self
      refine ⟨here.tops_stack, deeper fun c member => ?_, ?_⟩
      · exact here c (List.mem_reverse.mp member)
      · simpa only [stack] using rest

namespace Forest
variable (forest : Forest h)
include forest

theorem length_ancestors_lt (live : h.contains k = true) :
    (h.ancestors k).length < h.nodes.next := by
  have climb := forest.climb_ancestors k
  apply length_le_next (climb.nodup forest.rooted)
  intro j member
  rcases List.mem_cons.mp member with rfl | above
  · exact live
  · exact forest.contains_of_inside (forest.mem_ancestors.mp above)

theorem shallow {n : Nat} (bound : h.nodes.next ≤ (h.ancestors k).length + n + 1) :
    Shallow h n k := by
  have below : ∀ c ∈ h.children k, (h.ancestors c).length = (h.ancestors k).length + 1 := by
    intro c member
    rw [forest.ancestors_of_parent (forest.child member).2, List.length_cons]
  induction n generalizing k with
  | zero =>
    apply List.eq_nil_iff_forall_not_mem.mpr
    intro c member
    have room := forest.length_ancestors_lt (forest.child member).1
    have level := below c member
    omega
  | succ n ih =>
    intro c member
    have level := below c member
    apply ih (by omega)
    intro d inner
    rw [forest.ancestors_of_parent (forest.child inner).2, List.length_cons]

theorem faithful_contents (k : NodeId) :
    (h.contents k).tops = (h.children k).reverse ∧ (h.contents k).Faithful h := by
  by_cases childless : h.children k = []
  · cases steps : h.nodes.next with
    | zero => simp [contents, steps, childless, stack, Layers.tops, Layers.Faithful]
    | succ n => simp [contents, steps, childless, stack, Layers.tops, Layers.Faithful]
  · obtain ⟨c, member⟩ := List.exists_mem_of_ne_nil _ childless
    obtain ⟨n, steps⟩ := Nat.exists_eq_succ_of_ne_zero
      (Nat.ne_zero_of_lt (index_lt_next (forest.child member).1))
    rw [contents, steps]
    refine ⟨tops_stack_succ h n _, faithful_stack_succ fun j member => ?_⟩
    apply forest.shallow
    omega

end Forest

/-- Of two nodes around a third, one lies in the other unless they are the same. -/
theorem Inside.comparable {b : NodeId} (left : Inside h x a) (right : Inside h x b) :
    a = b ∨ Inside h a b ∨ Inside h b a := by
  induction left with
  | child placed =>
    rcases (inside_iff_of_parent placed).mp right with same | further
    · exact .inl same
    · exact .inr (.inl further)
  | deeper placed further ih =>
    rcases (inside_iff_of_parent placed).mp right with same | onward
    · exact .inr (.inr (same ▸ further))
    · exact ih onward

/-- A node with all that lies in it; nothing for a stale key. -/
def part (h : Hierarchy) (k : NodeId) : Set NodeId :=
  {j | h.contains j = true ∧ (j = k ∨ Inside h j k)}

/-- No node of the list lies in another one of it. -/
def Apart (h : Hierarchy) (ks : List NodeId) : Prop :=
  ∀ s ∈ ks, ∀ t ∈ ks, ¬ Inside h s t

theorem Apart.tail {ks : List NodeId} (apart : Apart h (k :: ks)) : Apart h ks :=
  fun s left t right => apart s (List.mem_cons_of_mem _ left) t (List.mem_cons_of_mem _ right)

namespace Forest
variable (forest : Forest h)
include forest

theorem inside_iff_child : Inside h x k ↔ ∃ c ∈ h.children k, x = c ∨ Inside h x c := by
  constructor
  · intro inside
    induction inside with
    | child placed => exact ⟨_, forest.mem_children_iff.mpr placed, .inl rfl⟩
    | deeper placed _ ih =>
      obtain ⟨c, member, rfl | further⟩ := ih
      · exact ⟨_, member, .inr (.child placed)⟩
      · exact ⟨c, member, .inr (.deeper placed further)⟩
  · rintro ⟨c, member, rfl | further⟩
    · exact .child (forest.child member).2
    · exact further.trans (.child (forest.child member).2)

theorem apart_children (k : NodeId) : Apart h (h.children k) := by
  intro s left t right inside
  rcases (inside_iff_of_parent (forest.child left).2).mp inside with rfl | further
  · exact forest.not_inside_self k (.child (forest.child right).2)
  · exact forest.not_inside_self k (further.trans (.child (forest.child right).2))

theorem mem_ids (faithful : L.Faithful h) :
    x ∈ L.ids ↔ ∃ t ∈ L.tops, x = t ∨ Inside h x t := by
  induction L with
  | nil => simp [Layers.ids, Layers.tops]
  | node k inside below inner rest =>
    obtain ⟨shown, deep, further⟩ := faithful
    have within : x ∈ inside.ids ↔ Inside h x k := by
      rw [inner deep, shown, forest.inside_iff_child]
      simp only [List.mem_reverse]
    simp only [Layers.ids, Layers.tops, List.mem_cons, List.mem_append, within, rest further,
      exists_eq_or_imp, or_assoc]

theorem nodup_ids (faithful : L.Faithful h) (nodup : L.tops.Nodup) (apart : Apart h L.tops) :
    L.ids.Nodup := by
  induction L with
  | nil => exact List.nodup_nil
  | node k inside below inner rest =>
    obtain ⟨shown, deep, further⟩ := faithful
    obtain ⟨single, nodup⟩ := List.nodup_cons.mp nodup
    have within : ∀ {x}, x ∈ inside.ids ↔ Inside h x k := by
      intro x
      rw [forest.mem_ids deep, shown, forest.inside_iff_child]
      simp only [List.mem_reverse]
    have innerApart : Apart h inside.tops := by
      rw [shown]
      intro s left t right
      exact forest.apart_children k s (List.mem_reverse.mp left) t (List.mem_reverse.mp right)
    have separate : ∀ t ∈ below.tops, k ≠ t ∧ ¬ Inside h k t ∧ ¬ Inside h t k := by
      intro t member
      refine ⟨fun same => single (same ▸ member), ?_, ?_⟩
      · exact apart k List.mem_cons_self t (List.mem_cons_of_mem _ member)
      · exact apart t (List.mem_cons_of_mem _ member) k List.mem_cons_self
    have nodupInside : inside.ids.Nodup :=
      inner deep (shown ▸ List.nodup_reverse.mpr (forest.nodup_children k)) innerApart
    refine List.nodup_cons.mpr ⟨?_, nodupInside.append (rest further nodup apart.tail) ?_⟩
    · intro member
      rcases List.mem_append.mp member with self | later
      · exact forest.not_inside_self k (within.mp self)
      · obtain ⟨t, member, same | lies⟩ := (forest.mem_ids further).mp later
        · exact (separate t member).1 same
        · exact (separate t member).2.1 lies
    · intro x left right
      obtain ⟨t, member, rfl | lies⟩ := (forest.mem_ids further).mp right
      · exact (separate x member).2.2 (within.mp left)
      · rcases (within.mp left).comparable lies with same | up | down
        · exact (separate t member).1 same
        · exact (separate t member).2.1 up
        · exact (separate t member).2.2 down

theorem faithful_subtree (k : NodeId) : (h.subtree k).Faithful h := by
  unfold subtree
  split
  · exact ⟨(forest.faithful_contents k).1, (forest.faithful_contents k).2, trivial⟩
  · trivial

theorem mem_ids_contents : x ∈ (h.contents k).ids ↔ Inside h x k := by
  rw [forest.mem_ids (forest.faithful_contents k).2, (forest.faithful_contents k).1,
    forest.inside_iff_child]
  simp only [List.mem_reverse]

theorem mem_ids_subtree (live : h.contains k = true) :
    x ∈ (h.subtree k).ids ↔ x = k ∨ Inside h x k := by
  simp [subtree, live, Layers.ids, forest.mem_ids_contents]

theorem mem_ids_subtree_iff : x ∈ (h.subtree k).ids ↔ x ∈ h.part k := by
  cases live : h.contains k with
  | true =>
    rw [forest.mem_ids_subtree live]
    refine ⟨fun lies => ⟨?_, lies⟩, And.right⟩
    rcases lies with rfl | inside
    · exact live
    · obtain ⟨p, placed⟩ := inside.parent
      exact contains_of_parent? placed
  | false =>
    have bare : x ∉ (h.subtree k).ids := by simp [subtree, live, Layers.ids]
    refine ⟨fun member => absurd member bare, ?_⟩
    rintro ⟨alive, rfl | inside⟩
    · simp [live] at alive
    · simp [forest.contains_of_inside inside] at live

theorem nodup_ids_subtree (k : NodeId) : (h.subtree k).ids.Nodup := by
  have alone : Apart h [k] := by
    intro s left t right
    rw [List.mem_singleton.mp left, List.mem_singleton.mp right]
    exact forest.not_inside_self k
  refine forest.nodup_ids (forest.faithful_subtree k) ?_ ?_ <;> unfold subtree <;> split
  · exact List.nodup_singleton k
  · exact List.nodup_nil
  · exact alone
  · exact fun _ left => absurd left List.not_mem_nil

end Forest
end Hierarchy
end WindowHost
