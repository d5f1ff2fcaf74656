import WindowHost.Proofs.Hierarchy.Change
import WindowHost.Proofs.Hierarchy.Growth
import WindowHost.Proofs.Hierarchy.Removal

/-! Every hierarchy that the operations lead to is well-formed: one lemma for each basic change,
and from it every run. Edits of activity records and of task data in between make no difference. -/
namespace WindowHost.Hierarchy
variable {h h' : Hierarchy} {a b c k p : NodeId} {data : NodeData} {position : Position}

theorem node?_empty (k : NodeId) : empty.node? k = none := Arena.get?_empty k.index

theorem wellFormed_empty : empty.WellFormed := by
  have untagged : ∀ k, empty.tag? k = none := fun k => by simp [tag?, data?, node?_empty]
  refine wellFormed_iff.mpr ⟨⟨?_, ?_, ?_, fun k => .top (by simp [parent?, node?_empty])⟩, ?_⟩
  · intro p c member
    simp [children, node?_empty] at member
  · intro p c placed
    simp [parent?, node?_empty] at placed
  · intro p c placed
    simp [parent?, node?_empty] at placed
  · constructor <;> simp [untagged, show empty.displays = [] from rfl]

/-- The counter of task ids is ahead of every task. -/
theorem WellFormed.welcomes_task (formed : h.WellFormed) (spec : TaskSpec) :
    Welcomes { h with nextTaskId := h.nextTaskId.next }
      (.task { spec with id := h.nextTaskId }) := by
  refine ⟨fun i => by simp [NodeData.tag], fun i same => ?_⟩
  obtain rfl : h.nextTaskId = i := Tag.task.inj same
  refine ⟨Int.lt_succ _, fun k found => ?_⟩
  have below := (wellFormed_iff.mp formed).2.task_below (k := k) found
  omega

theorem WellFormed.createTask {spec : TaskSpec} (formed : h.WellFormed)
    (made : h.createTask p spec position = .ok (h', k)) : h'.WellFormed := by
  obtain ⟨_, added, rfl, _⟩ := createTask_eq_ok_iff.mp made
  obtain ⟨outer, found, allowed, _, _, rfl⟩ := insertUnder_eq_ok_iff.mp added
  exact formed.skipTaskId.grow (formed.welcomes_task spec) found allowed

theorem welcomes_plain (plain : ∀ i, data.tag ≠ .display i) (taskless : ∀ i, data.tag ≠ .task i) :
    Welcomes h data :=
  ⟨plain, fun i same => absurd same (taskless i)⟩

theorem WellFormed.createFragment {bounds : Option Rect} (formed : h.WellFormed)
    (made : h.createFragment p bounds position = .ok (h', k)) : h'.WellFormed := by
  obtain ⟨added, _⟩ := createFragment_eq_ok_iff.mp made
  exact formed.insertUnder (welcomes_plain (by simp [NodeData.tag]) (by simp [NodeData.tag])) added

theorem WellFormed.addActivity {record : ActivityRecord} (formed : h.WellFormed)
    (made : h.addActivity p record position = .ok (h', k)) : h'.WellFormed := by
  obtain ⟨added, _⟩ := addActivity_eq_ok_iff.mp made
  exact formed.insertUnder (welcomes_plain (by simp [NodeData.tag]) (by simp [NodeData.tag])) added

theorem WellFormed.createActivity (formed : h.WellFormed) (record : ActivityRecord) :
    (h.createActivity record).1.WellFormed :=
  formed.insert (welcomes_plain (by simp [NodeData.tag]) (by simp [NodeData.tag]))

/-- A new display with an id of its own, on top of the list. -/
theorem Named.insertDisplay {d : Display} (named : Named h)
    (fresh : ∀ k, h.tag? k ≠ some (.display d.id)) :
    Named { h.insert (.display d) with displays := h.displays ++ [h.nextId] } := by
  have tags : ∀ k, tag? { h.insert (.display d) with displays := h.displays ++ [h.nextId] } k =
      if k = h.nextId then some (.display d.id) else h.tag? k := tag?_insert h (.display d)
  have unlisted : h.nextId ∉ h.displays := by
    intro member
    obtain ⟨i, shown⟩ := named.listed.mp member
    rw [tag?_nextId] at shown
    contradiction
  constructor
  · intro k
    rw [tags, List.mem_append, List.mem_singleton, named.listed]
    by_cases new : k = h.nextId <;> simp [new]
  · exact List.nodup_append.mpr ⟨named.displays_nodup, List.nodup_singleton _,
      fun j member k new same => unlisted (List.mem_singleton.mp new ▸ same ▸ member)⟩
  · refine eq_of_tag?_insert named.display_unique ?_
    rintro same k shown
    rw [← same] at shown
    exact fresh k shown
  · refine eq_of_tag?_insert named.task_unique ?_
    rintro ⟨⟩
  · intro k i found
    rw [tags] at found
    split at found
    · simp at found
    · exact named.task_below found

theorem displayWithId?_eq_none_iff (formed : h.WellFormed) {id : DisplayId} :
    h.displayWithId? id = none ↔ ∀ k, h.tag? k ≠ some (.display id) := by
  rw [displayWithId?, List.find?_eq_none]
  constructor
  · intro absent k shown
    have member := (wellFormed_iff.mp formed).2.listed.mpr ⟨id, shown⟩
    obtain ⟨d, found, same⟩ := tag?_eq_display_iff.mp shown
    exact absent k member (by simp [found, same])
  · intro absent k _ found
    cases shown : h.display? k with
    | none => simp [shown] at found
    | some d => exact absent k (tag?_eq_display_iff.mpr ⟨d, shown, by simpa [shown] using found⟩)

theorem WellFormed.addDisplay (formed : h.WellFormed) {id : DisplayId} (bounds : Rect)
    (fresh : h.displayWithId? id = none) : (h.addDisplay id bounds).1.WellFormed := by
  let display : NodeData := .display { id := id, bounds := bounds }
  let area : NodeData := .area { name := "DefaultTaskDisplayArea" }
  let shown : Hierarchy := { h.insert display with displays := h.displays ++ [h.nextId] }
  have formedShown : shown.WellFormed := by
    obtain ⟨forest, named⟩ := wellFormed_iff.mp formed
    have free := (displayWithId?_eq_none_iff formed).mp fresh
    refine wellFormed_iff.mpr ⟨?_, named.insertDisplay free⟩
    exact (forest.insert display).congr (fun _ => rfl) (fun _ => rfl) fun _ => rfl
  have found : shown.data? h.nextId = some display :=
    (data?_insert h display h.nextId).trans (if_pos rfl)
  have welcome : Welcomes shown area :=
    welcomes_plain (by simp [area, NodeData.tag]) (by simp [area, NodeData.tag])
  have grown : ((shown.insert area).link h.nextId shown.nextId .top).WellFormed :=
    formedShown.grow welcome found rfl
  simp only [Hierarchy.addDisplay, fresh]
  exact grown

theorem Inside.of_unlink {j : NodeId} (inside : Inside (h.unlink c) j a) : Inside h j a := by
  induction inside with
  | child placed => exact .child (parent?_unlink_eq_some_iff.mp placed).2
  | deeper placed _ ih => exact .deeper (parent?_unlink_eq_some_iff.mp placed).2 ih

theorem WellFormed.attach (formed : h.WellFormed) (placed : h.attach p c position = .ok h') :
    h'.WellFormed := by
  obtain ⟨outer, inner, foundOuter, foundInner, alone, allowed, apart, outside, _, _, rfl⟩ :=
    attach_eq_ok_iff.mp placed
  apply formed.link ⟨outer, inner, foundOuter, foundInner, allowed⟩ alone apart
  intro inside
  rw [formed.forest.isDescendantOf_iff.mpr inside] at outside
  contradiction

theorem WellFormed.reorder (formed : h.WellFormed) (c : NodeId) (position : Position) :
    (h.reorder c position).WellFormed := by
  unfold Hierarchy.reorder
  cases placed : h.parent? c with
  | none => exact formed
  | some parent =>
    have below : Inside h c parent := .child placed
    refine (formed.unlink c).link ?_ ?_ ?_ fun inside => ?_
    · exact (formed.forest.kinds placed).of_tag? (tag?_unlink ..) (tag?_unlink ..)
    · rw [parent?_unlink, if_pos rfl]
    · rintro rfl
      exact formed.forest.not_inside_self _ below
    · exact formed.forest.not_inside_self c (below.trans inside.of_unlink)

theorem sameFrame_setAdjacent (paired : h.setAdjacent a b = .ok h') : SameFrame h h' := by
  obtain ⟨_, _, _, rfl⟩ := setAdjacent_eq_ok_iff.mp paired
  have parted := (sameFrame_clearAdjacent h a).trans (sameFrame_clearAdjacent _ b)
  exact (parted.trans (sameFrame_modifyData a (NodeData.tag_withAdjacent _))).trans
    (sameFrame_modifyData b (NodeData.tag_withAdjacent _))

theorem WellFormed.raiseDisplay (formed : h.WellFormed) (k : NodeId) :
    (h.moveDisplayToTop k).1.WellFormed := by
  unfold moveDisplayToTop
  split
  · exact formed
  · rename_i lower
    have listed : k ∈ h.displays := by
      by_contra missing
      simp [missing] at lower
    obtain ⟨forest, named⟩ := wellFormed_iff.mp formed
    refine wellFormed_iff.mpr ⟨forest.congr (fun _ => rfl) (fun _ => rfl) fun _ => rfl, ?_⟩
    refine ⟨?_, ?_, named.display_unique, named.task_unique, named.task_below⟩
    · intro j
      refine Iff.trans ?_ named.listed
      simp only [List.mem_append, List.mem_filter, List.mem_singleton, bne_iff_ne, ne_eq]
      by_cases same : j = k
      · simp [same, listed]
      · simp [same]
    · refine List.nodup_append.mpr ⟨named.displays_nodup.filter _, List.nodup_singleton _, ?_⟩
      intro j member i top same
      rw [List.mem_singleton.mp top] at same
      simp [same] at member

theorem WellFormed.change (formed : h.WellFormed) (change : Change h h') : h'.WellFormed := by
  cases change with
  | addDisplay bounds fresh => exact formed.addDisplay bounds fresh
  | createTask made => exact formed.createTask made
  | createFragment made => exact formed.createFragment made
  | createActivity record => exact formed.createActivity record
  | addActivity made => exact formed.addActivity made
  | attach placed => exact formed.attach placed
  | unlink c => exact formed.unlink c
  | reorder c position => exact formed.reorder c position
  | remove k => exact formed.remove k
  | setAdjacent paired => exact formed.of_sameFrame (sameFrame_setAdjacent paired)
  | clearAdjacent k => exact formed.of_sameFrame (sameFrame_clearAdjacent h k)
  | raiseDisplay k => exact formed.raiseDisplay k

theorem WellFormed.changes (formed : h.WellFormed) (changes : Changes h h') : h'.WellFormed := by
  induction changes with
  | refl => exact formed
  | tail _ change ih => exact ih.change change

theorem WellFormed.mutate (formed : h.WellFormed) (call : Mutation) :
    (h.mutate call).WellFormed :=
  formed.changes (changes_mutate h call)

theorem WellFormed.foldl_mutate (formed : h.WellFormed) (calls : List Mutation) :
    (calls.foldl Hierarchy.mutate h).WellFormed := by
  induction calls generalizing h with
  | nil => exact formed
  | cons call rest ih => exact ih (formed.mutate call)

/-- No sequence of calls, failing ones and stale keys included, breaks the hierarchy. -/
theorem wellFormed_afterCalls (calls : List Mutation) : (afterCalls calls).WellFormed :=
  wellFormed_empty.foldl_mutate calls

/-- An invariant that a call keeps where `keeps` holds of what it changes, along a run where that
holds of every call. -/
theorem afterCalls_induct {motive : Hierarchy → Prop} {keeps : Hierarchy → Hierarchy → Prop}
    (start : motive empty)
    (step : ∀ {h : Hierarchy} {call}, h.WellFormed → motive h → keeps h (h.mutate call) →
      motive (h.mutate call))
    (calls : List Mutation) (kept : ∀ i < calls.length,
      keeps (afterCalls (calls.take i)) (afterCalls (calls.take (i + 1)))) :
    motive (afterCalls calls) := by
  suffices prefixes : ∀ i ≤ calls.length, motive (afterCalls (calls.take i)) by
    simpa using prefixes calls.length (Nat.le_refl _)
  intro i
  induction i with
  | zero => exact fun _ => start
  | succ i ih =>
    intro more
    have next : afterCalls (calls.take (i + 1)) =
        (afterCalls (calls.take i)).mutate (calls.get ⟨i, more⟩) := by
      rw [afterCalls, List.take_succ_eq_append_getElem more, List.foldl_append]
      rfl
    have keeps := kept i more
    rw [next] at keeps ⊢
    exact step (wellFormed_afterCalls _) (ih (Nat.le_of_succ_le more)) keeps

/-- A hierarchy that calls lead to, with activity records and task data edited in between. The
id of a task and its partner are not for edits. -/
inductive Reachable : Hierarchy → Prop where
  | empty : Reachable empty
  | call {h : Hierarchy} (reached : Reachable h) (call : Mutation) : Reachable (h.mutate call)
  | editActivity {h : Hierarchy} (reached : Reachable h) (k : NodeId)
      (f : ActivityRecord → ActivityRecord) : Reachable (h.modifyActivity k f)
  | editTask {h : Hierarchy} (reached : Reachable h) (k : NodeId) {f : Task → Task}
      (keeps : ∀ t, (f t).id = t.id ∧ (f t).adjacent = t.adjacent) : Reachable (h.modifyTask k f)

/-- A change is what some call makes. -/
theorem exists_mutate_of_change (change : Change h h') : ∃ call, h.mutate call = h' := by
  cases change with
  | addDisplay bounds fresh => exact ⟨.addDisplay _ bounds, rfl⟩
  | createTask made => exact ⟨.createTask _ _ _, by rw [Hierarchy.mutate, made, settle]⟩
  | createFragment made => exact ⟨.createFragment _ _ _, by rw [Hierarchy.mutate, made, settle]⟩
  | createActivity record => exact ⟨.createActivity record, rfl⟩
  | addActivity made => exact ⟨.addActivity _ _ _, by rw [Hierarchy.mutate, made, settle]⟩
  | attach placed => exact ⟨.attach _ _ _, by rw [Hierarchy.mutate, placed]; rfl⟩
  | unlink c =>
    refine ⟨.detach c, ?_⟩
    cases live : h.contains c with
    | true => rw [Hierarchy.mutate, detach_eq_ok_iff.mpr ⟨live, rfl⟩]; rfl
    | false =>
      have held : h.node? c = none := by simpa [contains] using live
      simp [Hierarchy.mutate, detach, require, held, bind, Except.bind, Except.toOption,
        Hierarchy.unlink, parent?_of_not_contains live]
  | reorder c position =>
    refine ⟨.positionChild c position, ?_⟩
    cases live : h.contains c with
    | true => rw [Hierarchy.mutate, positionChild_eq_ok_iff.mpr ⟨live, rfl⟩]; rfl
    | false =>
      have held : h.node? c = none := by simpa [contains] using live
      simp [Hierarchy.mutate, positionChild, require, held, bind, Except.bind, Except.toOption,
        Hierarchy.reorder, parent?_of_not_contains live]
  | remove k => exact ⟨.remove k, rfl⟩
  | setAdjacent paired => exact ⟨.setAdjacent _ _, by rw [Hierarchy.mutate, paired]; rfl⟩
  | clearAdjacent k => exact ⟨.clearAdjacent k, rfl⟩
  | raiseDisplay k => exact ⟨.moveDisplayToTop k, rfl⟩

theorem Reachable.changes (reached : Reachable h) (changes : Changes h h') : Reachable h' := by
  induction changes with
  | refl => exact reached
  | tail _ change ih =>
    obtain ⟨call, rfl⟩ := exists_mutate_of_change change
    exact ih.call call

theorem Reachable.foldl_mutate (reached : Reachable h) (calls : List Mutation) :
    Reachable (calls.foldl Hierarchy.mutate h) := by
  induction calls generalizing h with
  | nil => exact reached
  | cons call rest ih => exact ih (reached.call call)

theorem Reachable.wellFormed (reached : Reachable h) : h.WellFormed := by
  induction reached with
  | empty => exact wellFormed_empty
  | call _ call ih => exact ih.mutate call
  | editActivity _ k f ih => exact ih.of_sameFrame (sameFrame_modifyActivity k f)
  | editTask _ k keeps ih =>
    exact ih.of_sameFrame (sameFrame_modifyTask k fun t => (keeps t).1)

end WindowHost.Hierarchy
