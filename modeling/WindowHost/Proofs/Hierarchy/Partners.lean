import WindowHost.Proofs.Hierarchy.Cover

/-! Partners. Adjacency pairs two different nodes that point at each other, and no operation leaves
one of them pointing at a node that has another partner or none. -/
namespace WindowHost.Hierarchy
variable {h h' : Hierarchy} {a b j k : NodeId} {partner : Option NodeId}

/-- Partners are two different nodes that point at each other. -/
def Paired (h : Hierarchy) : Prop :=
  ∀ a b, h.adjacent? a = some b → a ≠ b ∧ h.adjacent? b = some a

theorem Paired.congr (paired : Paired h) (same : ∀ j, h'.adjacent? j = h.adjacent? j) :
    Paired h' := by
  intro a b found
  rw [same] at found ⊢
  exact paired a b found

theorem adjacent?_of_data? (same : h'.data? j = h.data? j) : h'.adjacent? j = h.adjacent? j := by
  rw [adjacent?, adjacent?, same]

theorem isFragmentLike_withAdjacent (h : Hierarchy) (k : NodeId) (partner : Option NodeId)
    (j : NodeId) : (h.modifyData k (NodeData.withAdjacent partner)).isFragmentLike j =
      h.isFragmentLike j := by
  rw [isFragmentLike, isFragmentLike, data?_modifyData]
  split
  · cases h.data? j with
    | none => rfl
    | some d => cases d <;> rfl
  · rfl

theorem adjacent?_withAdjacent (h : Hierarchy) (k : NodeId) (partner : Option NodeId)
    (j : NodeId) : (h.modifyData k (NodeData.withAdjacent partner)).adjacent? j =
      if j = k then if h.isFragmentLike j then partner else none else h.adjacent? j := by
  rw [adjacent?, data?_modifyData, isFragmentLike]
  split
  · cases h.data? j with
    | none => rfl
    | some d => cases d <;> rfl
  · rfl

theorem isFragmentLike_clearAdjacent (h : Hierarchy) (k j : NodeId) :
    (h.clearAdjacent k).isFragmentLike j = h.isFragmentLike j := by
  unfold clearAdjacent
  dsimp only
  rw [isFragmentLike_withAdjacent]
  split
  · rfl
  · exact isFragmentLike_withAdjacent ..

/-- A node and its partner part, and no others. -/
theorem adjacent?_clearAdjacent (h : Hierarchy) (k j : NodeId) :
    (h.clearAdjacent k).adjacent? j =
      if j = k ∨ h.adjacent? k = some j then none else h.adjacent? j := by
  unfold clearAdjacent
  dsimp only
  rw [adjacent?_withAdjacent, ite_self]
  by_cases itself : j = k
  · simp [itself]
  cases found : h.adjacent? k with
  | none => simp [itself]
  | some partner =>
    dsimp only
    rw [adjacent?_withAdjacent, ite_self]
    by_cases other : j = partner
    · simp [other]
    · simp [itself, other, Ne.symm other]

/-- Removing a node parts it from its partner. -/
theorem adjacent?_erase (h : Hierarchy) (k j : NodeId) :
    (h.erase k).adjacent? j = (h.clearAdjacent k).adjacent? j := by
  by_cases same : j = k
  · rw [adjacent?_clearAdjacent, if_pos (.inl same), adjacent?, data?, node?_erase, if_pos same]
    rfl
  · rw [adjacent?, adjacent?, data?, data?, node?_erase, if_neg same]

theorem adjacent?_insertUnder {p : NodeId} {data : NodeData} {position : Position}
    (added : h.insertUnder p data position = .ok h') (alone : data.adjacent? = none)
    (j : NodeId) : h'.adjacent? j = if j = h.nextId then none else h.adjacent? j := by
  obtain ⟨_, _, _, _, _, rfl⟩ := insertUnder_eq_ok_iff.mp added
  rw [adjacent?, data?_link, data?_insert]
  split
  · exact alone
  · rfl

theorem Paired.grow (paired : Paired h)
    (same : ∀ j, h'.adjacent? j = if j = h.nextId then none else h.adjacent? j) : Paired h' := by
  have absent : h.adjacent? h.nextId = none := by
    rw [adjacent?, data?_of_not_contains (contains_nextId h)]
    rfl
  refine paired.congr fun j => ?_
  rw [same]
  split
  · rename_i new
    rw [new, absent]
  · rfl

theorem Paired.clearAdjacent (paired : Paired h) (k : NodeId) : Paired (h.clearAdjacent k) := by
  intro a b found
  rw [adjacent?_clearAdjacent] at found
  split at found
  · contradiction
  rename_i apart
  obtain ⟨different, back⟩ := paired a b found
  refine ⟨different, ?_⟩
  rw [adjacent?_clearAdjacent, if_neg, back]
  rintro (rfl | other)
  · exact apart (.inr back)
  · have same := (paired k b other).2
    rw [back, Option.some.injEq] at same
    exact apart (.inl same)

theorem Paired.erase (paired : Paired h) (k : NodeId) : Paired (h.erase k) :=
  (paired.clearAdjacent k).congr (adjacent?_erase h k)

theorem Paired.remove (paired : Paired h) (k : NodeId) : Paired (h.remove k) := by
  have erased : ∀ (ks : List NodeId) (h : Hierarchy), Paired h →
      Paired (ks.foldl Hierarchy.erase h) := by
    intro ks
    induction ks with
    | nil => exact fun _ paired => paired
    | cons k ks ih => exact fun h paired => ih _ (paired.erase k)
  exact erased _ _ (paired.congr fun j => adjacent?_of_data? (data?_unlink h k j))

/-- Both are parted from earlier partners first, so no third node points at either. -/
theorem Paired.setAdjacent (paired : Paired h) (joined : h.setAdjacent a b = .ok h') :
    Paired h' := by
  obtain ⟨different, left, right, rfl⟩ := setAdjacent_eq_ok_iff.mp joined
  have parted := (paired.clearAdjacent a).clearAdjacent b
  have aloneRight : ((h.clearAdjacent a).clearAdjacent b).adjacent? b = none := by
    simp [adjacent?_clearAdjacent]
  have aloneLeft : ((h.clearAdjacent a).clearAdjacent b).adjacent? a = none := by
    rw [adjacent?_clearAdjacent]
    split
    · rfl
    · simp [adjacent?_clearAdjacent]
  have left : ((h.clearAdjacent a).clearAdjacent b).isFragmentLike a = true := by
    rw [isFragmentLike_clearAdjacent, isFragmentLike_clearAdjacent, left]
  have right : ((h.clearAdjacent a).clearAdjacent b).isFragmentLike b = true := by
    rw [isFragmentLike_clearAdjacent, isFragmentLike_clearAdjacent, right]
  generalize (h.clearAdjacent a).clearAdjacent b = parts at parted aloneLeft aloneRight left right
  have joined : ∀ j, ((parts.modifyData a (NodeData.withAdjacent (some b))).modifyData b
      (NodeData.withAdjacent (some a))).adjacent? j =
        if j = b then some a else if j = a then some b else parts.adjacent? j := by
    intro j
    rw [adjacent?_withAdjacent, adjacent?_withAdjacent, isFragmentLike_withAdjacent]
    split
    · simp_all
    split <;> simp_all
  intro x y found
  rw [joined] at found ⊢
  split at found
  · cases found
    simp_all [Ne.symm different]
  split at found
  · cases found
    simp_all
  · obtain ⟨apart, back⟩ := parted x y found
    have notRight : y ≠ b := fun same => by simp [same, aloneRight] at back
    have notLeft : y ≠ a := fun same => by simp [same, aloneLeft] at back
    rw [if_neg notRight, if_neg notLeft]
    exact ⟨apart, back⟩

theorem Paired.change (paired : Paired h) (change : Change h h') : Paired h' := by
  have moved : (∀ j, h'.data? j = h.data? j) → Paired h' :=
    fun same => paired.congr fun j => adjacent?_of_data? (same j)
  cases change with
  | @addDisplay id bounds fresh =>
    have grown : ∀ (h : Hierarchy) data, data.adjacent? = none → ∀ j,
        (h.insert data).adjacent? j = if j = h.nextId then none else h.adjacent? j := by
      intro h data alone j
      rw [adjacent?, data?_insert]
      split
      · exact alone
      · rfl
    let shown : Hierarchy :=
      { h.insert (.display { id := id, bounds := bounds }) with
        displays := h.displays ++ [h.nextId] }
    have first : Paired shown := paired.grow (grown h (.display { id := id, bounds := bounds }) rfl)
    have second : Paired (shown.insert (.area { name := "DefaultTaskDisplayArea" })) :=
      first.grow (grown shown _ rfl)
    simp only [Hierarchy.addDisplay, fresh]
    exact second.congr fun j => adjacent?_of_data? (data?_link ..)
  | createTask made =>
    obtain ⟨_, added, rfl, _⟩ := createTask_eq_ok_iff.mp made
    have same := adjacent?_insertUnder added rfl
    exact paired.grow same
  | createFragment made =>
    obtain ⟨added, _⟩ := createFragment_eq_ok_iff.mp made
    exact paired.grow (adjacent?_insertUnder added rfl)
  | createActivity record =>
    refine paired.grow fun j => ?_
    rw [adjacent?, createActivity, data?_insert]
    split <;> rfl
  | addActivity made =>
    obtain ⟨added, _⟩ := addActivity_eq_ok_iff.mp made
    exact paired.grow (adjacent?_insertUnder added rfl)
  | attach placed =>
    obtain ⟨_, _, _, _, _, _, _, _, _, _, rfl⟩ := attach_eq_ok_iff.mp placed
    exact moved fun _ => data?_link ..
  | unlink c => exact moved (data?_unlink h c)
  | reorder c position =>
    refine moved fun j => ?_
    unfold Hierarchy.reorder
    split
    · rfl
    · rw [data?_link, data?_unlink]
  | remove k => exact paired.remove k
  | setAdjacent joined => exact paired.setAdjacent joined
  | clearAdjacent k => exact paired.clearAdjacent k
  | raiseDisplay k =>
    refine moved fun j => ?_
    unfold moveDisplayToTop
    split <;> rfl

theorem Paired.changes (paired : Paired h) (changes : Changes h h') : Paired h' := by
  induction changes with
  | refl => exact paired
  | tail _ change ih => exact ih.change change

theorem paired_empty : Paired empty := by
  intro a b found
  simp [adjacent?, data?, node?_empty] at found

theorem Reachable.paired (reached : Reachable h) : Paired h := by
  induction reached with
  | empty => exact paired_empty
  | call _ call ih => exact ih.changes (changes_mutate _ call)
  | @editActivity h _ k f ih =>
    refine ih.congr fun j => ?_
    rw [adjacent?, adjacent?, modifyActivity, data?_modifyData]
    split
    · cases h.data? j with
      | none => rfl
      | some d => cases d <;> rfl
    · rfl
  | @editTask h _ k f keeps ih =>
    refine ih.congr fun j => ?_
    rw [adjacent?, adjacent?, modifyTask, data?_modifyData]
    split
    · cases h.data? j with
      | none => rfl
      | some d =>
        cases d with
        | task t => exact (keeps t).2
        | _ => rfl
    · rfl

/-- No sequence of calls, failing ones and stale keys included, and no edit of records in between
leaves a link with one end or with none: partners are two different tasks or fragments that are
there, and each is the other's partner. -/
theorem partners_of_reachable (reached : Reachable h) (linked : h.adjacent? a = some b) :
    a ≠ b ∧ h.isFragmentLike a = true ∧ h.isFragmentLike b = true ∧ h.adjacent? b = some a := by
  obtain ⟨different, back⟩ := reached.paired a b linked
  exact ⟨different, isFragmentLike_of_adjacent? linked, isFragmentLike_of_adjacent? back, back⟩

/-- A root task that was half of a split pair is linked anew, while calls for it with itself and
with a key that was never issued are refused, and a fragment goes without its partner. -/
theorem partners_of_relinked :
    let calls : List Mutation := [.addDisplay ⟨0⟩ ⟨0, 0, 1920, 1080⟩, .createSplitPair ⟨2⟩,
      .createTask ⟨2⟩ {} .top, .setAdjacent ⟨3⟩ ⟨5⟩, .setAdjacent ⟨3⟩ ⟨3⟩, .setAdjacent ⟨5⟩ ⟨9⟩,
      .createFragment ⟨4⟩ none .top, .createFragment ⟨4⟩ none .top, .setAdjacent ⟨6⟩ ⟨7⟩,
      .remove ⟨6⟩]
    let h := afterCalls calls
    h.adjacent? ⟨4⟩ = none ∧ h.adjacent? ⟨7⟩ = none ∧ h.contains ⟨7⟩ = true ∧
      h.adjacent? ⟨3⟩ = some ⟨5⟩ ∧ h.isFragmentLike ⟨3⟩ = true ∧ h.isFragmentLike ⟨5⟩ = true ∧
      h.adjacent? ⟨5⟩ = some ⟨3⟩ := by
  intro calls h
  have reached : Reachable h := Reachable.empty.foldl_mutate calls
  have linked : h.adjacent? ⟨3⟩ = some ⟨5⟩ := by decide +kernel
  obtain ⟨_, left, right, back⟩ := partners_of_reachable reached linked
  exact ⟨by decide +kernel, by decide +kernel, by decide +kernel, linked, left, right, back⟩

end WindowHost.Hierarchy
