import WindowHost.Hierarchy.Restructure

/-! What each primitive change of a hierarchy does to the answers of the basic questions: parents,
children and data. No later proof opens the table of nodes. -/
namespace WindowHost

/-- Placing a node adds it once and keeps the siblings. -/
theorem Position.place_perm (p : Position) (child : NodeId) (siblings : List NodeId) :
    (p.place child siblings).Perm (child :: siblings) := by
  cases p with
  | top => exact List.perm_append_comm
  | bottom => exact .refl _
  | index i =>
    have halves : (siblings.take i ++ child :: siblings.drop i).Perm
        (child :: (siblings.take i ++ siblings.drop i)) := List.perm_middle
    rwa [List.take_append_drop] at halves

theorem Position.mem_place (p : Position) (child k : NodeId) (siblings : List NodeId) :
    k ∈ p.place child siblings ↔ k = child ∨ k ∈ siblings :=
  (p.place_perm child siblings).mem_iff.trans List.mem_cons

/-- Taking out the placed node gives back its siblings. -/
theorem Position.filter_place (p : Position) (child : NodeId) (siblings : List NodeId) :
    (p.place child siblings).filter (· != child) = siblings.filter (· != child) := by
  cases p with
  | top => simp [place]
  | bottom => simp [place]
  | index i =>
    have halves : (siblings.take i ++ siblings.drop i).filter (· != child) =
        (siblings.take i).filter (· != child) ++ (siblings.drop i).filter (· != child) :=
      List.filter_append ..
    rw [List.take_append_drop] at halves
    simp [place, halves]

namespace Hierarchy
variable {h h' : Hierarchy} {j k p : NodeId}

theorem contains_of_data? {d : NodeData} (found : h.data? k = some d) : h.contains k = true := by
  cases held : h.node? k <;> simp_all [data?, contains]

theorem contains_eq_isSome_data? (h : Hierarchy) (k : NodeId) :
    h.contains k = (h.data? k).isSome := by
  simp [contains, data?]

theorem contains_of_parent? (placed : h.parent? k = some p) : h.contains k = true := by
  cases held : h.node? k <;> simp_all [parent?, contains]

theorem parent?_of_not_contains (stale : h.contains k = false) : h.parent? k = none := by
  cases held : h.node? k <;> simp_all [parent?, contains]

theorem children_of_not_contains (stale : h.contains k = false) : h.children k = [] := by
  cases held : h.node? k <;> simp_all [children, contains]

theorem data?_of_not_contains (stale : h.contains k = false) : h.data? k = none := by
  rw [contains_eq_isSome_data?, Option.isSome_eq_false_iff, Option.isNone_iff_eq_none] at stale
  exact stale

theorem index_lt_next (live : h.contains k = true) : k.index < h.nodes.next := by
  obtain ⟨n, held⟩ := Option.isSome_iff_exists.mp live
  exact Arena.lt_next_of_get? held

/-- What holds of stale keys anyway need only be tried on the keys that were handed out. -/
theorem forall_of_lt_next {P : NodeId → Prop} (stale : ∀ k, h.contains k = false → P k)
    (tried : ∀ i < h.nodes.next, P ⟨i⟩) (k : NodeId) : P k := by
  cases live : h.contains k with
  | false => exact stale k live
  | true => exact tried k.index (index_lt_next live)

theorem forall_activity_of_lt_next {P : NodeId → ActivityRecord → Prop}
    (tried : ∀ i < h.nodes.next, ∀ a ∈ h.activity? ⟨i⟩, P ⟨i⟩ a) (k : NodeId)
    (a : ActivityRecord) (held : h.activity? k = some a) : P k a := by
  have all : ∀ k, ∀ a ∈ h.activity? k, P k a := by
    refine forall_of_lt_next (fun k stale a held => ?_) tried
    rw [activity?, data?_of_not_contains stale] at held
    contradiction
  exact all k a held

/-- A node is known by its parent, its children and its data. -/
theorem node?_congr (parent : h'.parent? k = h.parent? k)
    (children : h'.children k = h.children k) (data : h'.data? k = h.data? k) :
    h'.node? k = h.node? k := by
  cases after : h'.node? k with
  | none =>
    cases before : h.node? k with
    | none => rfl
    | some n => simp [data?, after, before] at data
  | some n' =>
    cases before : h.node? k with
    | none => simp [data?, after, before] at data
    | some n =>
      simp only [parent?, Hierarchy.children, data?, after, before, Option.bind_some,
        Option.map_some, Option.getD_some, Option.some.injEq] at parent children data
      cases n
      cases n'
      simp_all

theorem ancestors_congr (next : h'.nodes.next = h.nodes.next)
    (same : ∀ j, h'.parent? j = h.parent? j) (k : NodeId) : h'.ancestors k = h.ancestors k := by
  have steps : ∀ n k, h'.ancestorsWithin n k = h.ancestorsWithin n k := by
    intro n
    induction n with
    | zero => exact fun _ => rfl
    | succ n ih => exact fun k => by simp only [ancestorsWithin, same, ih]
  rw [ancestors, ancestors, next, steps]

theorem contents_congr (next : h'.nodes.next = h.nodes.next)
    (children : ∀ j, h'.children j = h.children j) (k : NodeId) : h'.contents k = h.contents k := by
  have layers : ∀ n ks, h'.stack n ks = h.stack n ks := by
    intro n
    induction n with
    | zero => exact fun _ => rfl
    | succ n ih => exact fun ks => by simp only [stack, children, ih]
  rw [contents, contents, next, children, layers]

theorem node?_nextId (h : Hierarchy) : h.node? h.nextId = none :=
  Arena.get?_eq_none_of_next_le (Nat.le_refl _)

theorem contains_nextId (h : Hierarchy) : h.contains h.nextId = false := by
  simp [contains, node?_nextId]

theorem parent?_insert (h : Hierarchy) (data : NodeData) (j : NodeId) :
    (h.insert data).parent? j = h.parent? j := by
  by_cases fresh : j = h.nextId
  · simp [parent?, node?_insert, fresh, node?_nextId]
  · simp [parent?, node?_insert, fresh]

theorem children_insert (h : Hierarchy) (data : NodeData) (j : NodeId) :
    (h.insert data).children j = h.children j := by
  by_cases fresh : j = h.nextId
  · simp [children, node?_insert, fresh, node?_nextId]
  · simp [children, node?_insert, fresh]

theorem data?_insert (h : Hierarchy) (data : NodeData) (j : NodeId) :
    (h.insert data).data? j = if j = h.nextId then some data else h.data? j := by
  by_cases fresh : j = h.nextId <;> simp [data?, node?_insert, fresh]

theorem displays_insert (h : Hierarchy) (data : NodeData) :
    (h.insert data).displays = h.displays := rfl

theorem parent?_modifyData (h : Hierarchy) (k : NodeId) (f : NodeData → NodeData) (j : NodeId) :
    (h.modifyData k f).parent? j = h.parent? j := by
  by_cases same : j = k <;> cases held : h.node? j <;>
    simp_all [parent?, modifyData, node?_modify]

theorem children_modifyData (h : Hierarchy) (k : NodeId) (f : NodeData → NodeData) (j : NodeId) :
    (h.modifyData k f).children j = h.children j := by
  by_cases same : j = k <;> cases held : h.node? j <;>
    simp_all [children, modifyData, node?_modify]

theorem data?_modifyData (h : Hierarchy) (k : NodeId) (f : NodeData → NodeData) (j : NodeId) :
    (h.modifyData k f).data? j = if j = k then (h.data? j).map f else h.data? j := by
  by_cases same : j = k <;> cases held : h.node? j <;>
    simp_all [data?, modifyData, node?_modify]

theorem parent?_link (h : Hierarchy) (p c : NodeId) (position : Position) (j : NodeId) :
    (h.link p c position).parent? j =
      if j = c ∧ h.contains c then some p else h.parent? j := by
  by_cases child : j = c
  · subst child
    by_cases same : j = p <;> cases held : h.node? j <;>
      simp_all [parent?, contains, link, node?_modify]
  · by_cases same : j = p <;> cases held : h.node? j <;>
      simp_all [parent?, link, node?_modify]

theorem children_link (h : Hierarchy) (p c : NodeId) (position : Position) (j : NodeId) :
    (h.link p c position).children j =
      if j = p ∧ h.contains p then position.place c (h.children p) else h.children j := by
  by_cases parent : j = p
  · subst parent
    by_cases same : j = c <;> cases held : h.node? j <;>
      simp_all [children, contains, link, node?_modify]
  · by_cases same : j = c <;> cases held : h.node? j <;>
      simp_all [children, link, node?_modify]

theorem data?_link (h : Hierarchy) (p c : NodeId) (position : Position) (j : NodeId) :
    (h.link p c position).data? j = h.data? j := by
  by_cases parent : j = p <;> by_cases child : j = c <;> cases held : h.node? j <;>
    simp_all [data?, link, node?_modify]

theorem parent?_unlink (h : Hierarchy) (c j : NodeId) :
    (h.unlink c).parent? j = if j = c then none else h.parent? j := by
  unfold unlink
  cases placed : h.parent? c with
  | none => by_cases child : j = c <;> simp_all
  | some p =>
    by_cases child : j = c <;> by_cases parent : j = p <;> cases held : h.node? j <;>
      simp_all [parent?, node?_modify]

theorem children_unlink (h : Hierarchy) (c j : NodeId) :
    (h.unlink c).children j =
      if h.parent? c = some j then (h.children j).filter (· != c) else h.children j := by
  unfold unlink
  cases placed : h.parent? c with
  | none => simp
  | some p =>
    by_cases parent : p = j
    · subst parent
      by_cases child : p = c <;> cases held : h.node? p <;> simp_all [children, node?_modify]
    · have apart : j ≠ p := Ne.symm parent
      by_cases child : j = c <;> cases held : h.node? j <;> simp_all [children, node?_modify]

theorem data?_unlink (h : Hierarchy) (c j : NodeId) : (h.unlink c).data? j = h.data? j := by
  unfold unlink
  cases placed : h.parent? c with
  | none => rfl
  | some p =>
    by_cases child : j = c <;> by_cases parent : j = p <;> cases held : h.node? j <;>
      simp_all [data?, node?_modify]

theorem displays_unlink (h : Hierarchy) (c : NodeId) : (h.unlink c).displays = h.displays := by
  unfold unlink
  split <;> rfl

theorem nextTaskId_unlink (h : Hierarchy) (c : NodeId) :
    (h.unlink c).nextTaskId = h.nextTaskId := by
  unfold unlink
  split <;> rfl

end Hierarchy
end WindowHost
