import WindowHost.Proofs.Hierarchy.Spared

/-! Moving to the front, in full. A node goes on top of its siblings, and so does all that encloses
it as far as the way up leads through tasks and fragments; then its display goes on top of the
displays. Whatever is passed keeps its order, nothing else changes, and the answer tells whether
anything did. -/
namespace WindowHost.Hierarchy
variable {h h' : Hierarchy} {display j k p q : NodeId} {above l : List NodeId}

/-- `j` is `k`, or encloses it with nothing but tasks and fragments on the way up to it. -/
inductive Lifted (h : Hierarchy) (k : NodeId) : NodeId → Prop where
  | self : Lifted h k k
  | up {j p : NodeId} (lifted : Lifted h k j) (placed : h.parent? j = some p)
      (container : h.isFragmentLike p = true) : Lifted h k p

theorem lifted_iff_of_parent (placed : h.parent? k = some p) :
    Lifted h k j ↔ j = k ∨ h.isFragmentLike p = true ∧ Lifted h p j := by
  constructor
  · intro lifted
    induction lifted with
    | self => exact .inl rfl
    | @up j q _ placed' container ih =>
      rcases ih with rfl | ⟨outer, further⟩
      · obtain rfl := Option.some.inj (placed.symm.trans placed')
        exact .inr ⟨container, .self⟩
      · exact .inr ⟨outer, further.up placed' container⟩
  · rintro (rfl | ⟨container, further⟩)
    · exact .self
    · induction further with
      | self => exact .up .self placed container
      | up _ placed' container' ih => exact ih.up placed' container'

theorem Lifted.inside (lifted : Lifted h k j) : j = k ∨ Inside h k j := by
  induction lifted with
  | self => exact .inl rfl
  | up _ placed _ ih =>
    rcases ih with rfl | further
    · exact .inr (.child placed)
    · exact .inr (further.trans (.child placed))

theorem Lifted.eq_of_root (lifted : Lifted h k j) (alone : h.parent? k = none) : j = k :=
  lifted.inside.resolve_right (not_inside_of_root alone)

theorem lifted_congr (parents : ∀ j, h'.parent? j = h.parent? j)
    (data : ∀ j, h'.data? j = h.data? j) : Lifted h' k j ↔ Lifted h k j := by
  constructor <;> intro lifted
  · induction lifted with
    | self => exact .self
    | up _ placed container ih =>
      exact ih.up ((parents _).symm.trans placed)
        ((isFragmentLike_of_data? (data _)).symm.trans container)
  · induction lifted with
    | self => exact .self
    | up _ placed container ih =>
      exact ih.up ((parents _).trans placed) ((isFragmentLike_of_data? (data _)).trans container)

/-- Some node that is to go on top of its siblings is not there yet. -/
def Buried (h : Hierarchy) (k : NodeId) : Prop :=
  ∃ j p, Lifted h k j ∧ h.parent? j = some p ∧ (h.children p).getLast? ≠ some j

theorem buried_iff_of_parent (placed : h.parent? k = some p) :
    Buried h k ↔ (h.children p).getLast? ≠ some k ∨ h.isFragmentLike p = true ∧ Buried h p := by
  constructor
  · rintro ⟨j, q, lifted, placed', below⟩
    rcases (lifted_iff_of_parent placed).mp lifted with rfl | ⟨container, further⟩
    · obtain rfl := Option.some.inj (placed.symm.trans placed')
      exact .inl below
    · exact .inr ⟨container, j, q, further, placed', below⟩
  · rintro (below | ⟨container, j, q, further, placed', below⟩)
    · exact ⟨k, p, .self, placed, below⟩
    · exact ⟨j, q, (lifted_iff_of_parent placed).mpr (.inr ⟨container, further⟩), placed', below⟩

/-- `h'` is `h` with the nodes around `k` on top of their siblings. -/
structure Raised (h h' : Hierarchy) (k : NodeId) : Prop where
  top : ∀ {j p}, Lifted h k j → h.parent? j = some p →
    h'.children p = (h.children p).filter (· != j) ++ [j]
  aside : ∀ {p}, (∀ j, Lifted h k j → h.parent? j ≠ some p) → h'.children p = h.children p

theorem filter_append_of_getLast? (nodup : l.Nodup) (last : l.getLast? = some k) :
    l.filter (· != k) ++ [k] = l := by
  obtain ⟨lower, rfl⟩ := List.getLast?_eq_some_iff.mp last
  obtain ⟨_, _, apart⟩ := List.nodup_append.mp nodup
  have kept : lower.filter (· != k) = lower :=
    List.filter_eq_self.mpr fun x member => bne_iff_ne.mpr (apart x member k (by simp))
  rw [List.filter_append, kept]
  simp

theorem Forest.children_raise (forest : Forest h) (placed : h.parent? k = some p) :
    (h.raise k).1.children p = (h.children p).filter (· != k) ++ [k] := by
  unfold raise
  rw [placed]
  dsimp only
  split
  · exact (filter_append_of_getLast? (forest.nodup_children p) ‹_›).symm
  · simp [reorder, placed, children_link, children_unlink, contains_unlink,
      forest.contains_parent placed, Position.place]

theorem raise_moves_iff (placed : h.parent? k = some p) :
    (h.raise k).2 = true ↔ (h.children p).getLast? ≠ some k := by
  unfold raise
  rw [placed]
  dsimp only
  split <;> simp [*]

theorem raise_of_still (still : (h.raise k).2 = false) : (h.raise k).1 = h := by
  unfold raise at still ⊢
  split
  · rfl
  · rename_i p placed
    rw [placed] at still
    dsimp only at still
    split
    · rfl
    · rw [if_neg ‹_›] at still
      contradiction

/-- Nothing above a node is held by the node. -/
theorem Forest.ne_of_lifted (forest : Forest h) (lifted : Lifted h p j)
    (placed : h.parent? j = some q) : q ≠ p := by
  rintro rfl
  rcases lifted.inside with rfl | inside
  · exact forest.not_inside_self j (.child placed)
  · exact forest.not_inside_self q (inside.trans (.child placed))

section
variable (forest : Forest h) (placed : h.parent? k = some p)
include forest placed

theorem Forest.raised_raise (plain : h.isFragmentLike p = false) : Raised h (h.raise k).1 k where
  top lifted placed' := by
    obtain rfl := ((lifted_iff_of_parent placed).mp lifted).resolve_right (by simp [plain])
    obtain rfl := Option.some.inj (placed.symm.trans placed')
    exact forest.children_raise placed
  aside {q} apart := by
    refine children_raise_of_ne placed ?_
    rintro rfl
    exact apart k .self placed

/-- What is raised above the parent leaves alone what the parent holds. -/
theorem Forest.raised_of_raise (container : h.isFragmentLike p = true)
    (further : Raised (h.raise k).1 h' p) : Raised h h' k := by
  have parents := parent?_raise h k
  have lifted_iff : ∀ {j}, Lifted (h.raise k).1 p j ↔ Lifted h p j :=
    lifted_congr parents (data?_raise h k)
  have kept : ∀ {q}, (∀ j, Lifted h p j → h.parent? j ≠ some q) →
      h'.children q = (h.raise k).1.children q := fun apart =>
    further.aside fun j lifted => (parents j).symm ▸ apart j (lifted_iff.mp lifted)
  constructor
  · intro j q lifted placed'
    rcases (lifted_iff_of_parent placed).mp lifted with rfl | ⟨_, lifted⟩
    · obtain rfl := Option.some.inj (placed.symm.trans placed')
      rw [← forest.children_raise placed]
      exact kept fun _ lifted placed => forest.ne_of_lifted lifted placed rfl
    · rw [← children_raise_of_ne placed (forest.ne_of_lifted lifted placed')]
      exact further.top (lifted_iff.mpr lifted) ((parents j).trans placed')
  · intro q apart
    have other : q ≠ p := by
      rintro rfl
      exact apart k .self placed
    rw [← children_raise_of_ne placed other]
    exact kept fun j lifted =>
      apart j ((lifted_iff_of_parent placed).mpr (.inr ⟨container, lifted⟩))

theorem Forest.buried_raise : Buried (h.raise k).1 p ↔ Buried h p := by
  refine exists_congr fun j => exists_congr fun q => ?_
  rw [lifted_congr (parent?_raise h k) (data?_raise h k), parent?_raise]
  refine and_congr_right fun lifted => and_congr_right fun placed' => ?_
  rw [children_raise_of_ne placed (forest.ne_of_lifted lifted placed')]

end

theorem raiseWithin_of_still (above : List NodeId) : ∀ {h : Hierarchy} {k : NodeId},
    (h.raiseWithin k above).2 = false → (h.raiseWithin k above).1 = h := by
  induction above with
  | nil => exact fun _ => rfl
  | cons p above ih =>
    intro h k still
    rw [raiseWithin] at still ⊢
    dsimp only at still ⊢
    split
    · rw [if_pos ‹_›, Bool.or_eq_false_iff] at still
      exact (ih still.2).trans (raise_of_still still.1)
    · rw [if_neg ‹_›] at still
      exact raise_of_still still

theorem WellFormed.raised_raiseWithin (above : List NodeId) : ∀ {h : Hierarchy} {k : NodeId},
    h.WellFormed → Climb h k above →
      Raised h (h.raiseWithin k above).1 k ∧
        ((h.raiseWithin k above).2 = true ↔ Buried h k) := by
  induction above with
  | nil =>
    intro h k _ alone
    have unplaced : ∀ {j q}, Lifted h k j → h.parent? j ≠ some q := by
      intro j q lifted placed
      rw [lifted.eq_of_root alone, show h.parent? k = none from alone] at placed
      contradiction
    refine ⟨⟨fun lifted placed => absurd placed (unplaced lifted), fun _ => rfl⟩, ?_⟩
    simp only [raiseWithin, Bool.false_eq_true, false_iff]
    rintro ⟨j, q, lifted, placed, _⟩
    exact unplaced lifted placed
  | cons p above ih =>
    rintro h k formed ⟨placed, climb⟩
    have forest := formed.forest
    rw [raiseWithin, buried_iff_of_parent placed]
    dsimp only
    rw [isFragmentLike_of_data? (data?_raise h k p)]
    cases container : h.isFragmentLike p with
    | false => exact ⟨forest.raised_raise placed container, by simp [raise_moves_iff placed]⟩
    | true =>
      obtain ⟨further, moves⟩ :=
        ih (formed.changes (changes_raise h k)) (climb.congr (parent?_raise h k))
      refine ⟨forest.raised_of_raise placed container further, ?_⟩
      simp [raise_moves_iff placed, moves, forest.buried_raise placed]

theorem moveDisplayToTop_moves_iff (listed : display ∈ h.displays) :
    (h.moveDisplayToTop display).2 = true ↔ h.displays.getLast? ≠ some display := by
  unfold moveDisplayToTop
  split <;> simp_all

theorem moveDisplayToTop_of_still (still : (h.moveDisplayToTop display).2 = false) :
    (h.moveDisplayToTop display).1 = h := by
  unfold moveDisplayToTop at still ⊢
  split
  · rfl
  · rw [if_neg ‹_›] at still
    contradiction

theorem displays_moveDisplayToTop (nodup : h.displays.Nodup) (listed : display ∈ h.displays) :
    (h.moveDisplayToTop display).1.displays = h.displays.filter (· != display) ++ [display] := by
  unfold moveDisplayToTop
  split
  · exact (filter_append_of_getLast? nodup (by simp_all)).symm
  · rfl

theorem nextTaskId_moveDisplayToTop (h : Hierarchy) (display : NodeId) :
    (h.moveDisplayToTop display).1.nextTaskId = h.nextTaskId := by
  unfold moveDisplayToTop
  split <;> rfl

theorem WellFormed.mem_displays_of_displayOf? (formed : h.WellFormed)
    (placed : h.displayOf? k = some display) : display ∈ h.displays :=
  formed.listed.mpr (Option.isSome_iff_exists.mp (isSome_display?_of_displayOf? placed))

theorem displays_taskId_raise (h : Hierarchy) (k : NodeId) :
    (h.raise k).1.displays = h.displays ∧ (h.raise k).1.nextTaskId = h.nextTaskId := by
  unfold raise
  split
  · exact ⟨rfl, rfl⟩
  split
  · exact ⟨rfl, rfl⟩
  · unfold reorder
    split
    · exact ⟨rfl, rfl⟩
    · exact ⟨displays_unlink h k, nextTaskId_unlink h k⟩

theorem displays_taskId_raiseWithin (above : List NodeId) : ∀ (h : Hierarchy) (k : NodeId),
    (h.raiseWithin k above).1.displays = h.displays ∧
      (h.raiseWithin k above).1.nextTaskId = h.nextTaskId := by
  induction above with
  | nil => exact fun _ _ => ⟨rfl, rfl⟩
  | cons p above ih =>
    intro h k
    have first := displays_taskId_raise h k
    rw [raiseWithin]
    dsimp only
    split
    · obtain ⟨displays, taskId⟩ := ih (h.raise k).1 p
      exact ⟨displays.trans first.1, taskId.trans first.2⟩
    · exact first

/-- `h'` is `h` with `k` moved to the front, and nothing else moved. -/
structure MovedToFront (h h' : Hierarchy) (k : NodeId) : Prop where
  /-- `k` and what is raised with it go on top of their siblings, which keep their order. -/
  top : ∀ {j p}, Lifted h k j → h.parent? j = some p →
    h'.children p = (h.children p).filter (· != j) ++ [j]
  /-- Its display goes on top of the others, which keep their order. -/
  front : ∀ {display}, h.displayOf? k = some display →
    h'.displays = h.displays.filter (· != display) ++ [display]
  /-- A node that holds none of those is as it was, children included. -/
  aside : ∀ {p}, (∀ j, Lifted h k j → h.parent? j ≠ some p) → h'.node? p = h.node? p
  /-- Every node keeps its parent and its data. -/
  parent? : ∀ j, h'.parent? j = h.parent? j
  data? : ∀ j, h'.data? j = h.data? j
  /-- Without a display of its own the displays stay as they are. -/
  detached : h.displayOf? k = none → h'.displays = h.displays
  next : h'.nodes.next = h.nodes.next
  nextTaskId : h'.nextTaskId = h.nextTaskId

/-- Something is to move: a node around `k` among its siblings, or the display of `k`. -/
def Behind (h : Hierarchy) (k : NodeId) : Prop :=
  Buried h k ∨ ∃ display, h.displayOf? k = some display ∧ h.displays.getLast? ≠ some display

theorem MovedToFront.ne_of_behind (moved : MovedToFront h h' k) (behind : Behind h k) :
    h' ≠ h := by
  rintro rfl
  rcases behind with ⟨j, p, lifted, placed, below⟩ | ⟨display, placed, below⟩
  · rw [moved.top lifted placed] at below
    simp at below
  · rw [moved.front placed] at below
    simp at below

theorem MovedToFront.not_behind (moved : MovedToFront h h' k) : ¬ Behind h' k := by
  rintro (⟨j, p, lifted, placed, below⟩ | ⟨display, placed, below⟩)
  · have lifted := (lifted_congr moved.parent? moved.data?).mp lifted
    rw [moved.top lifted ((moved.parent? j).symm.trans placed)] at below
    simp at below
  · rw [displayOf?_congr moved.next moved.parent? moved.data?] at placed
    rw [moved.front placed] at below
    simp at below

theorem displayOf?_raiseWithin (h : Hierarchy) (k : NodeId) (above : List NodeId) (j : NodeId) :
    (h.raiseWithin k above).1.displayOf? j = h.displayOf? j :=
  displayOf?_congr (next_raiseWithin above h k) (parent?_raiseWithin above · h k)
    (data?_raiseWithin above · h k) j

/-- The display is found before anything moves. -/
theorem moveTaskToFront_eq (h : Hierarchy) (k : NodeId) :
    h.moveTaskToFront k =
      let raised := h.raiseWithin k (h.ancestors k)
      match h.displayOf? k with
      | none => raised
      | some display =>
        ((raised.1.moveDisplayToTop display).1, raised.2 || (raised.1.moveDisplayToTop display).2)
    := by
  have unmoved := displayOf?_raiseWithin h k (h.ancestors k) k
  cases placed : h.displayOf? k with
  | none => simp only [moveTaskToFront, unmoved.trans placed]
  | some display => simp only [moveTaskToFront, unmoved.trans placed]

theorem moveTaskToFront_of_still (still : (h.moveTaskToFront k).2 = false) :
    (h.moveTaskToFront k).1 = h := by
  rw [moveTaskToFront_eq] at still ⊢
  dsimp only at still ⊢
  split at still
  · exact raiseWithin_of_still _ still
  · obtain ⟨low, high⟩ := Bool.or_eq_false_iff.mp still
    exact (moveDisplayToTop_of_still high).trans (raiseWithin_of_still _ low)

section
variable (formed : h.WellFormed) (k : NodeId)
include formed

theorem WellFormed.moves_iff_behind : (h.moveTaskToFront k).2 = true ↔ Behind h k := by
  obtain ⟨_, moves⟩ := formed.raised_raiseWithin _ (formed.forest.climb_ancestors k)
  have displays := (displays_taskId_raiseWithin (h.ancestors k) h k).1
  rw [moveTaskToFront_eq, Behind]
  cases placed : h.displayOf? k with
  | none => simp [moves]
  | some display =>
    have listed : display ∈ (h.raiseWithin k (h.ancestors k)).1.displays :=
      displays ▸ formed.mem_displays_of_displayOf? placed
    simp [moves, moveDisplayToTop_moves_iff listed, displays]

theorem WellFormed.movedToFront : MovedToFront h (h.moveTaskToFront k).1 k := by
  obtain ⟨raised, _⟩ := formed.raised_raiseWithin _ (formed.forest.climb_ancestors k)
  obtain ⟨displays, taskId⟩ := displays_taskId_raiseWithin (h.ancestors k) h k
  have parents := parent?_moveTaskToFront h k
  have data := data?_moveTaskToFront h k
  have children : ∀ p, (h.moveTaskToFront k).1.children p =
      (h.raiseWithin k (h.ancestors k)).1.children p := by
    intro p
    rw [moveTaskToFront_eq]
    cases h.displayOf? k with
    | none => rfl
    | some display => exact children_moveDisplayToTop ..
  refine
    { top := fun lifted placed => (children _).trans (raised.top lifted placed)
      front := fun {display} placed => ?_
      aside := fun apart =>
        node?_congr (parents _) ((children _).trans (raised.aside apart)) (data _)
      parent? := parents
      data? := data
      detached := fun alone => ?_
      next := next_moveTaskToFront h k
      nextTaskId := ?_ }
  · have listed := formed.mem_displays_of_displayOf? placed
    rw [moveTaskToFront_eq, placed, ← displays]
    rw [← displays] at listed
    exact displays_moveDisplayToTop (displays ▸ formed.displays_nodup) listed
  · rw [moveTaskToFront_eq, alone]
    exact displays
  · rw [moveTaskToFront_eq]
    cases h.displayOf? k with
    | none => exact taskId
    | some display => exact (nextTaskId_moveDisplayToTop ..).trans taskId

/-- Moving a node to the front moves what it must and nothing else, tells whether it moved
anything, and finds nothing left to move when it is done again. -/
theorem movedToFront_moveTaskToFront :
    MovedToFront h (h.moveTaskToFront k).1 k ∧
      ((h.moveTaskToFront k).2 = true ↔ (h.moveTaskToFront k).1 ≠ h) ∧
      (h.moveTaskToFront k).1.moveTaskToFront k = ((h.moveTaskToFront k).1, false) := by
  have moved : MovedToFront h (h.moveTaskToFront k).1 k := formed.movedToFront k
  have again : ((h.moveTaskToFront k).1.moveTaskToFront k).2 = false := by
    rw [Bool.eq_false_iff, Ne, (formed.moveTaskToFront k).moves_iff_behind k]
    exact moved.not_behind
  refine ⟨moved, ?_, Prod.ext (moveTaskToFront_of_still again) again⟩
  constructor
  · exact fun moves => moved.ne_of_behind ((formed.moves_iff_behind k).mp moves)
  · intro changed
    by_contra still
    exact changed (moveTaskToFront_of_still (Bool.eq_false_iff.mpr still))

end

/-- A task below a sibling, in a root task below another one, on a display below another one: it
comes to the front on all three levels, and a second time nothing moves. A key that was never
issued moves nothing at all. -/
theorem movedToFront_of_nested :
    let h := afterCalls [.addDisplay ⟨0⟩ ⟨0, 0, 1920, 1080⟩,
      .createRootTask ⟨2⟩ .fullscreen .standard .top,
      .createRootTask ⟨2⟩ .freeform .standard .top, .createTask ⟨3⟩ {} .top,
      .createTask ⟨3⟩ {} .top, .addDisplay ⟨1⟩ ⟨0, 0, 1280, 720⟩]
    let once := h.moveTaskToFront ⟨5⟩
    h.WellFormed ∧ once.2 = true ∧ once.1 ≠ h ∧
      once.1.children ⟨3⟩ = [⟨6⟩, ⟨5⟩] ∧ once.1.children ⟨2⟩ = [⟨4⟩, ⟨3⟩] ∧
      once.1.displays = [⟨7⟩, ⟨1⟩] ∧ once.1.node? ⟨4⟩ = h.node? ⟨4⟩ ∧
      once.1.moveTaskToFront ⟨5⟩ = (once.1, false) ∧ (h.moveTaskToFront ⟨9⟩).1 = h := by
  intro h once
  have formed : h.WellFormed := wellFormed_afterCalls _
  have nested : h.parent? ⟨5⟩ = some ⟨3⟩ := by decide +kernel
  have placed : h.parent? ⟨3⟩ = some ⟨2⟩ := by decide +kernel
  have outer : Lifted h ⟨5⟩ ⟨3⟩ := .up .self nested (by decide +kernel)
  have shown : h.displayOf? ⟨5⟩ = some ⟨1⟩ := by decide +kernel
  have tasks : h.children ⟨3⟩ = [⟨5⟩, ⟨6⟩] := by decide +kernel
  have roots : h.children ⟨2⟩ = [⟨3⟩, ⟨4⟩] := by decide +kernel
  have displays : h.displays = [⟨1⟩, ⟨7⟩] := by decide +kernel
  have above : h.ancestors ⟨5⟩ = [⟨3⟩, ⟨2⟩, ⟨1⟩] := by decide +kernel
  have holders : ∀ j ∈ [(⟨5⟩ : NodeId), ⟨3⟩, ⟨2⟩, ⟨1⟩], h.parent? j ≠ some ⟨4⟩ := by
    decide +kernel
  have moves : once.2 = true := by decide +kernel
  have still : (h.moveTaskToFront ⟨9⟩).2 ≠ true := by decide +kernel
  obtain ⟨moved, changes, again⟩ := movedToFront_moveTaskToFront formed ⟨5⟩
  obtain ⟨_, changesStale, _⟩ := movedToFront_moveTaskToFront formed ⟨9⟩
  clear_value h
  refine ⟨formed, moves, changes.mp moves, ?_, ?_, ?_, ?_, again, ?_⟩
  · rw [moved.top .self nested, tasks]
    decide
  · rw [moved.top outer placed, roots]
    decide
  · rw [moved.front shown, displays]
    decide
  · refine moved.aside fun j lifted => holders j ?_
    rw [← above, List.mem_cons, formed.forest.mem_ancestors]
    exact lifted.inside
  · by_contra changed
    exact still (changesStale.mpr changed)

end WindowHost.Hierarchy
