import WindowHost.Proofs.Hierarchy.Success
import WindowHost.Proofs.Hierarchy.WellFormed

/-! New nodes: under what conditions a hierarchy takes them, and that it stays well-formed. A new
key is known to no link and no list yet. -/
namespace WindowHost.Hierarchy
variable {h h' : Hierarchy} {j k p : NodeId} {data : NodeData} {position : Position}

theorem tag?_insert (h : Hierarchy) (data : NodeData) (j : NodeId) :
    (h.insert data).tag? j = if j = h.nextId then some data.tag else h.tag? j := by
  rw [tag?, tag?, data?_insert]
  split <;> rfl

theorem tag?_nextId (h : Hierarchy) : h.tag? h.nextId = none := by
  simp [tag?, data?, node?_nextId]

theorem ne_nextId_of_contains (live : h.contains k = true) : k ≠ h.nextId := by
  rintro rfl
  rw [contains_nextId] at live
  contradiction

theorem tag?_insert_of_contains (live : h.contains k = true) :
    (h.insert data).tag? k = h.tag? k := by
  rw [tag?_insert, if_neg (ne_nextId_of_contains live)]

theorem contains_insert_of_contains (live : h.contains k = true) :
    (h.insert data).contains k = true := by
  rwa [contains_eq_isSome_tag?, tag?_insert_of_contains live, ← contains_eq_isSome_tag?]

theorem parent?_nextId (h : Hierarchy) : h.parent? h.nextId = none :=
  parent?_of_not_contains (contains_nextId h)

theorem Forest.insert (forest : Forest h) (data : NodeData) : Forest (h.insert data) where
  child := by
    intro p c member
    rw [children_insert] at member
    rw [parent?_insert]
    exact ⟨contains_insert_of_contains (forest.child member).1, (forest.child member).2⟩
  once := by
    intro p c placed
    rw [parent?_insert] at placed
    rw [children_insert]
    exact forest.once placed
  kinds := by
    intro p c placed
    rw [parent?_insert] at placed
    have fits := forest.kinds placed
    exact fits.of_tag? (tag?_insert_of_contains fits.contains_parent)
      (tag?_insert_of_contains fits.contains_child)
  rooted k := (forest.rooted k).of_parent (parent?_insert h data)

/-- Nothing lies in a node that is still to come. -/
theorem Forest.not_inside_nextId (forest : Forest h) : ¬ Inside h k h.nextId := by
  intro inside
  have live := forest.contains_of_inside inside
  rw [contains_nextId] at live
  contradiction

/-- A new node may be anything but a display, and a new task needs an id of its own. -/
def Welcomes (h : Hierarchy) (data : NodeData) : Prop :=
  (∀ i, data.tag ≠ .display i) ∧
    ∀ i, data.tag = .task i → i.value < h.nextTaskId.value ∧ ∀ k, h.tag? k ≠ some (.task i)

/-- A tag that no two nodes share stays so when the new node does not bring it a second time. -/
theorem eq_of_tag?_insert {t : Tag} (unique : h.tag? j = some t → h.tag? k = some t → j = k)
    (fresh : data.tag = t → ∀ k, h.tag? k ≠ some t) (left : (h.insert data).tag? j = some t)
    (right : (h.insert data).tag? k = some t) : j = k := by
  rw [tag?_insert] at left right
  by_cases newLeft : j = h.nextId <;> by_cases newRight : k = h.nextId
  · exact newLeft.trans newRight.symm
  · rw [if_pos newLeft, Option.some.injEq] at left
    rw [if_neg newRight] at right
    exact absurd right (fresh left k)
  · rw [if_neg newLeft] at left
    rw [if_pos newRight, Option.some.injEq] at right
    exact absurd left (fresh right j)
  · rw [if_neg newLeft] at left
    rw [if_neg newRight] at right
    exact unique left right

theorem Named.insert (named : Named h) (welcome : Welcomes h data) : Named (h.insert data) where
  listed := by
    intro k
    rw [displays_insert, named.listed, tag?_insert]
    by_cases fresh : k = h.nextId
    · simp [fresh, tag?_nextId, welcome.1]
    · simp [fresh]
  displays_nodup := named.displays_nodup
  display_unique :=
    eq_of_tag?_insert named.display_unique fun same => absurd same (welcome.1 _)
  task_unique := eq_of_tag?_insert named.task_unique fun same => (welcome.2 _ same).2
  task_below := by
    intro k i found
    rw [tag?_insert] at found
    split at found
    · exact (welcome.2 i (Option.some.inj found)).1
    · exact named.task_below found

theorem WellFormed.insert (formed : h.WellFormed) (welcome : Welcomes h data) :
    (h.insert data).WellFormed := by
  obtain ⟨forest, named⟩ := wellFormed_iff.mp formed
  exact wellFormed_iff.mpr ⟨forest.insert data, named.insert welcome⟩

theorem WellFormed.skipTaskId (formed : h.WellFormed) :
    WellFormed { h with nextTaskId := h.nextTaskId.next } where
  forest := formed.forest.congr (fun _ => rfl) (fun _ => rfl) fun _ => rfl
  listed := formed.listed
  displays_nodup := formed.displays_nodup
  display_parentless := formed.display_parentless
  display_id_unique := formed.display_id_unique
  task_id_unique := formed.task_id_unique
  task_id_below found := Int.lt_trans (formed.task_id_below found) (Int.lt_succ _)

theorem fits_nextId {outer : NodeData} (found : h.data? p = some outer)
    (allowed : outer.canContain data = true) : Fits (h.insert data) p h.nextId := by
  refine ⟨outer, data, ?_, ?_, allowed⟩
  · rw [data?_insert, if_neg (ne_nextId_of_contains (contains_of_data? found)), found]
  · rw [data?_insert, if_pos rfl]

theorem parent?_insert_nextId (h : Hierarchy) (data : NodeData) :
    (h.insert data).parent? h.nextId = none := by
  rw [parent?_insert, parent?_nextId]

theorem WellFormed.grow {outer : NodeData} (formed : h.WellFormed) (welcome : Welcomes h data)
    (found : h.data? p = some outer) (allowed : outer.canContain data = true) :
    ((h.insert data).link p h.nextId position).WellFormed := by
  apply (formed.insert welcome).link (fits_nextId found allowed) (parent?_insert_nextId h data)
    (ne_nextId_of_contains (contains_of_data? found))
  intro inside
  obtain ⟨c, placed⟩ := inside.exists_child
  rw [parent?_insert] at placed
  exact formed.forest.not_inside_nextId (.child placed)

theorem WellFormed.insertUnder (formed : h.WellFormed) (welcome : Welcomes h data)
    (added : h.insertUnder p data position = .ok h') : h'.WellFormed := by
  obtain ⟨outer, found, allowed, _, _, rfl⟩ := insertUnder_eq_ok_iff.mp added
  exact formed.grow welcome found allowed

end WindowHost.Hierarchy
