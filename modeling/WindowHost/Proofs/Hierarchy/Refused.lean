import WindowHost.Hierarchy.InPlace
import WindowHost.Proofs.Hierarchy.Restore
import WindowHost.Proofs.Hierarchy.Spared

/-! Operations made in place, next to the same operations checked before anything moves. Both come
to the same hierarchy and the same answer, and where the one made in place is refused half way, it
leaves every node as it was. -/
namespace WindowHost

/-- Put back at its old rank, a node stands where it stood. -/
theorem Position.place_rank {c : NodeId} {siblings : List NodeId} (nodup : siblings.Nodup)
    (member : c ∈ siblings) :
    ∃ rank, siblings.findIdx? (· == c) = some rank ∧
      (Position.index rank).place c (siblings.filter (· != c)) = siblings := by
  obtain ⟨before, after, rfl⟩ := List.append_of_mem member
  have apart := List.nodup_middle.mp nodup
  obtain ⟨absent, -⟩ := List.nodup_cons.mp apart
  rw [List.mem_append, not_or] at absent
  have kept : ∀ ks : List NodeId, c ∉ ks → ks.filter (· != c) = ks := by
    intro ks missing
    apply List.filter_eq_self.mpr
    intro k member
    simpa using fun same : k = c => missing (same ▸ member)
  refine ⟨before.length, ?_, ?_⟩
  · have passed : before.findIdx? (· == c) = none := by
      rw [List.findIdx?_eq_none_iff]
      intro k member
      simpa using fun same : k = c => absent.1 (same ▸ member)
    simp [List.findIdx?_append, passed, List.findIdx?_cons]
  · simp [place, kept before absent.1, kept after absent.2]

namespace Hierarchy
variable {h left : Hierarchy} {c k p : NodeId} {data : NodeData} {position : Position}
  {α β : Type}

namespace Edit

@[simp] theorem perform_get : perform get h = (.ok h, h) := rfl

@[simp] theorem perform_change (f : Hierarchy → Hierarchy) :
    (change f).perform h = (.ok (), f h) := rfl

@[simp] theorem perform_ask (question : Hierarchy → Except HierarchyError α) :
    (ask question).perform h = (question h, h) := rfl

theorem perform_bind (edit : Edit α) (next : α → Edit β) :
    (edit >>= next).perform h =
      match edit.perform h with
      | (.ok x, left) => (next x).perform left
      | (.error e, left) => (.error e, left) := by
  rcases ran : edit.perform h with ⟨_ | _, _⟩ <;>
    simp_all [perform, ExceptT.run_bind]

theorem perform_tryCatch (edit : Edit α) (handle : HierarchyError → Edit α) :
    (tryCatch edit handle).perform h =
      match edit.perform h with
      | (.ok x, left) => (.ok x, left)
      | (.error e, left) => (handle e).perform left := by
  rcases ran : edit.perform h with ⟨_ | _, _⟩ <;>
    simp_all [perform, ExceptT.run_tryCatch]

/-- What a change that is checked before anything moves comes to. -/
def outcome (h : Hierarchy) :
    Except HierarchyError (Hierarchy × α) → Except HierarchyError α × Hierarchy
  | .ok (left, x) => (.ok x, left)
  | .error e => (.error e, h)

/-- A check of an edit stands for the same check before anything moves. -/
theorem perform_ask_bind (question : Hierarchy → Except HierarchyError α) {next : α → Edit Unit}
    {rest : α → Except HierarchyError Hierarchy}
    (further : ∀ x, (next x).perform h = outcome h ((rest x).map (·, ()))) :
    (ask question >>= next).perform h = outcome h ((question h >>= rest).map (·, ())) := by
  rw [perform_bind, perform_ask]
  cases question h with
  | ok x => exact further x
  | error e => rfl

theorem perform_attach (h : Hierarchy) (p c : NodeId) (position : Position) :
    (attach p c position).perform h = outcome h ((h.attach p c position).map (·, ())) := by
  unfold attach Hierarchy.attach
  refine perform_ask_bind _ fun parentNode => perform_ask_bind _ fun childNode => ?_
  split
  · rfl
  refine perform_ask_bind (fun _ => checkKinds parentNode.data childNode.data) fun _ => ?_
  rw [perform_bind, perform_get]
  dsimp only
  split
  · rfl
  exact perform_ask_bind _ fun _ => perform_ask_bind _ fun _ => rfl

theorem perform_detach (h : Hierarchy) (c : NodeId) :
    (detach c).perform h = outcome h ((h.detach c).map (·, ())) :=
  perform_ask_bind _ fun _ => rfl

theorem perform_positionChild (h : Hierarchy) (c : NodeId) (position : Position) :
    (positionChild c position).perform h =
      outcome h ((h.positionChild c position).map (·, ())) :=
  perform_ask_bind _ fun _ => rfl

theorem perform_setAdjacent (h : Hierarchy) (a b : NodeId) :
    (setAdjacent a b).perform h = outcome h ((h.setAdjacent a b).map (·, ())) := by
  unfold setAdjacent Hierarchy.setAdjacent
  split
  · rfl
  exact perform_ask_bind _ fun _ => perform_ask_bind _ fun _ => rfl

end Edit

namespace Forest
variable (forest : Forest h)
include forest

theorem ancestors_insert (data : NodeData) (k : NodeId) :
    (h.insert data).ancestors k = h.ancestors k :=
  forest.ancestors_congr (forest.insert data) fun j _ => parent?_insert h data j

/-- On the way up from a node that is there, a new node is not met. -/
theorem data?_insert_of_mem_lineage {j : NodeId} (member : j ∈ h.lineage k) :
    (h.insert data).data? j = h.data? j := by
  have live : h.contains j = true := by
    rw [lineage] at member
    split at member
    · rcases List.mem_cons.mp member with rfl | above
      · assumption
      · exact forest.contains_of_inside (forest.mem_ancestors.mp above)
    · contradiction
  rw [data?_insert, if_neg (ne_nextId_of_contains live)]

theorem lineage_insert (old : k ≠ h.nextId) : (h.insert data).lineage k = h.lineage k := by
  have live : (h.insert data).contains k = h.contains k :=
    contains_congr (by rw [data?_insert, if_neg old])
  rw [lineage, lineage, live, forest.ancestors_insert]

theorem displayOf?_insert (old : k ≠ h.nextId) :
    (h.insert data).displayOf? k = h.displayOf? k := by
  rw [displayOf?, displayOf?, forest.lineage_insert old]
  refine List.find?_congr fun j member => ?_
  rw [display?, display?, forest.data?_insert_of_mem_lineage member]

theorem mode_insert (old : k ≠ h.nextId) : (h.insert data).mode k = h.mode k := by
  have modes : ∀ j ∈ h.lineage k, ((h.insert data).task? j).bind (·.mode.explicit?) =
      (h.task? j).bind (·.mode.explicit?) := fun j member => by
    rw [task?, task?, forest.data?_insert_of_mem_lineage member]
  rw [mode, mode, forest.lineage_insert old, ← List.head?_filterMap, ← List.head?_filterMap,
    List.filterMap_congr modes]

theorem isTask_insert_of_mem_children (member : c ∈ h.children p) :
    (h.insert data).isTask c = h.isTask c := by
  rw [isTask, isTask, task?, task?, data?_insert,
    if_neg (ne_nextId_of_contains (forest.child member).1)]

theorem rootTasks_insert (data : NodeData) (display : NodeId) :
    (h.insert data).rootTasks display = h.rootTasks display := by
  simp only [rootTasks, children_insert]
  congr 1
  funext area
  refine List.filter_congr fun c member => ?_
  exact forest.isTask_insert_of_mem_children (List.mem_reverse.mp member)

theorem checkPinnedRoot_insert {inner : NodeData} (old : p ≠ h.nextId) :
    (h.insert data).checkPinnedRoot p inner = h.checkPinnedRoot p inner := by
  have area : (h.insert data).area? p = h.area? p := by
    rw [area?, area?, data?_insert, if_neg old]
  have pinned : ∀ display, ((h.insert data).rootTasks display).any
      (fun root => (h.insert data).mode root == .pinned) =
        (h.rootTasks display).any fun root => h.mode root == .pinned := by
    intro display
    rw [forest.rootTasks_insert, Bool.eq_iff_iff, List.any_eq_true, List.any_eq_true]
    refine exists_congr fun root => and_congr_right fun member => ?_
    rw [forest.mode_insert (ne_nextId_of_contains (contains_of_isTask (mem_rootTasks.mp member).1))]
  rw [checkPinnedRoot, checkPinnedRoot, area, forest.displayOf?_insert old]
  simp only [pinned]

theorem checkPinnedGuest_insert {inner : NodeData} (old : p ≠ h.nextId) :
    (h.insert data).checkPinnedGuest p inner = h.checkPinnedGuest p inner := by
  have root : (h.insert data).isRootTask p = h.isRootTask p := by
    rw [isRootTask, isRootTask, isTask, isTask, task?, task?, data?_insert, if_neg old,
      parent?_insert]
    cases placed : h.parent? p with
    | none => rfl
    | some area =>
      rw [Option.bind_some, Option.bind_some, area?, area?, data?_insert,
        if_neg (ne_nextId_of_contains (forest.contains_parent placed))]
  have tasks : ((h.insert data).children p).any (h.insert data).isTask =
      (h.children p).any h.isTask := by
    rw [children_insert, Bool.eq_iff_iff, List.any_eq_true, List.any_eq_true]
    refine exists_congr fun c => and_congr_right fun member => ?_
    rw [forest.isTask_insert_of_mem_children member]
  rw [checkPinnedGuest, checkPinnedGuest, root, forest.mode_insert old, tasks]

/-- A new node is refused a place exactly where a node like it may not be added. -/
theorem attach_insert (old : p ≠ h.nextId) :
    (h.insert data).attach p h.nextId position = h.insertUnder p data position := by
  have held : (h.insert data).node? p = h.node? p := by rw [node?_insert, if_neg old]
  have fresh : (h.insert data).node? h.nextId = some { data := data } := by
    rw [node?_insert, if_pos rfl]
  have outside : (h.insert data).isDescendantOf p h.nextId = false := by
    rw [isDescendantOf, forest.ancestors_insert, ← Bool.not_eq_true]
    exact fun inside => forest.not_inside_nextId (forest.isDescendantOf_iff.mp inside)
  unfold attach insertUnder require
  rw [held, fresh]
  cases h.node? p with
  | none => rfl
  | some outer =>
    simp [outside, old, forest.checkPinnedRoot_insert old, forest.checkPinnedGuest_insert old,
      bind, Except.bind, pure, Except.pure]

end Forest

/-- A node that was added and taken out again has left no trace. -/
theorem sameNodes_discard (h : Hierarchy) (data : NodeData) :
    SameNodes h ((Edit.discard h.nextId).perform (h.insert data)).2 where
  node k := by
    rw [Edit.discard, Edit.perform_change]
    have erased : (h.insert data |>.nodes.erase h.nextId.index).get? k.index =
        if k.index = h.nextId.index then none else (h.insert data).node? k :=
      Arena.get?_erase ..
    by_cases new : k = h.nextId
    · rw [node?, erased, if_pos (congrArg _ new), new, node?_nextId]
    · have apart : k.index ≠ h.nextId.index := fun same => new (congrArg NodeId.mk same)
      rw [node?, erased, if_neg apart, node?_insert, if_neg new]
  displays := rfl
  nextTaskId := Int.le_refl _

/-- A node that was taken out and put back stands where it stood. -/
theorem Forest.putBack_spec (forest : Forest h) (c : NodeId) :
    ∃ left, (Edit.putBack c (Edit.home? h c)).perform (h.unlink c) = (.ok (), left) ∧
      SameNodes h left ∧ left.nextTaskId = h.nextTaskId := by
  cases placed : h.parent? c with
  | none =>
    have home : Edit.home? h c = none := by rw [Edit.home?, placed]; rfl
    have loose : h.unlink c = h := by rw [Hierarchy.unlink, placed]
    rw [home, loose]
    exact ⟨h, rfl, .refl h, rfl⟩
  | some p =>
    have member := forest.mem_children_iff.mpr placed
    obtain ⟨rank, found, restored⟩ := Position.place_rank (forest.nodup_children p) member
    have home : Edit.home? h c = some (p, rank) := by
      rw [Edit.home?, placed, Option.bind_eq_bind, Option.bind_some, found]
      rfl
    have taskId : ((h.unlink c).link p c (.index rank)).nextTaskId = h.nextTaskId :=
      nextTaskId_unlink h c
    rw [home]
    refine ⟨_, rfl, ⟨fun k => node?_congr ?_ ?_ (by rw [data?_link, data?_unlink]), ?_, ?_⟩, taskId⟩
    · rw [parent?_link, parent?_unlink, contains_unlink, contains_of_parent? placed]
      by_cases same : k = c <;> simp [same, placed]
    · rw [children_link, children_unlink, children_unlink, contains_unlink,
        forest.contains_parent placed, if_pos placed, restored]
      by_cases same : k = p
      · simp [same]
      · simp [same, placed, Ne.symm same]
    · exact displays_unlink h c
    · exact Int.le_of_eq (congrArg TaskId.value taskId).symm

/-- What happened in place is what was expected. A refusal leaves every node as it was; it is for
the reason that was expected where `known` holds. -/
inductive Matches (h : Hierarchy) (known : Prop) :
    Except HierarchyError (Hierarchy × α) → Except HierarchyError α × Hierarchy → Prop where
  | done (left : Hierarchy) (x : α) : Matches h known (.ok (left, x)) (.ok x, left)
  | refused {left : Hierarchy} {e reason : HierarchyError} (same : SameNodes h left)
      (taskId : left.nextTaskId = h.nextTaskId) (expected : known → reason = e) :
      Matches h known (.error reason) (.error e, left)

variable {known : Prop}

theorem matches_outcome (expected : Except HierarchyError (Hierarchy × α)) :
    Matches h known expected (Edit.outcome h expected) := by
  cases expected with
  | ok result => exact .done result.1 result.2
  | error e => exact .refused (.refl h) rfl fun _ => rfl

theorem Matches.imp {known' : Prop} {expected : Except HierarchyError (Hierarchy × α)}
    {happened : Except HierarchyError α × Hierarchy} (first : Matches h known expected happened)
    (stronger : known' → known) : Matches h known' expected happened := by
  cases first with
  | done left x => exact .done left x
  | refused same taskId expected =>
    exact .refused same taskId fun named => expected (stronger named)

/-- What follows a success may not be refused any more. -/
theorem Matches.andThen {edit : Edit α} {expected : Except HierarchyError (Hierarchy × α)}
    (first : Matches h known expected (edit.perform h)) (next : α → Edit β)
    (f : Hierarchy → α → Hierarchy × β)
    (plain : ∀ x left, (next x).perform left = (.ok (f left x).2, (f left x).1)) :
    Matches h known (expected >>= fun r => pure (f r.1 r.2)) ((edit >>= next).perform h) := by
  rw [Edit.perform_bind]
  generalize edit.perform h = happened at first
  cases first with
  | done left x =>
    dsimp only
    rw [plain]
    exact .done _ _
  | refused same taskId expected => exact .refused same taskId expected

theorem Forest.matches_reparent (forest : Forest h) (c p : NodeId) (position : Position) :
    Matches h known ((h.reparent c p position).map (·, ()))
      ((Edit.reparent c p position).perform h) := by
  unfold Edit.reparent
  rw [Edit.perform_bind, Edit.perform_get]
  dsimp only
  rw [Edit.perform_bind, Edit.perform_detach, Hierarchy.reparent]
  cases taken : h.detach c with
  | error e => exact .refused (.refl h) rfl fun _ => rfl
  | ok loose =>
    obtain ⟨-, rfl⟩ := detach_eq_ok_iff.mp taken
    change Matches h known (((h.unlink c).attach p c position).map (·, ())) _
    dsimp only [Except.map, Edit.outcome]
    rw [Edit.perform_tryCatch, Edit.perform_attach]
    cases (h.unlink c).attach p c position with
    | ok moved => exact .done moved ()
    | error e =>
      obtain ⟨left, back, same, taskId⟩ := forest.putBack_spec c
      dsimp only [Except.map, Edit.outcome]
      rw [Edit.perform_bind, back]
      exact .refused same taskId fun _ => rfl

theorem Forest.matches_insertUnder (forest : Forest h) (p : NodeId) (data : NodeData)
    (position : Position) :
    Matches h (p ≠ h.nextId) ((h.insertUnder p data position).map (·, h.nextId))
      ((Edit.insertUnder p data position).perform h) := by
  unfold Edit.insertUnder
  rw [Edit.perform_bind, Edit.perform_get]
  dsimp only
  rw [Edit.perform_bind, Edit.perform_change]
  dsimp only
  rw [Edit.perform_bind, Edit.perform_tryCatch, Edit.perform_attach]
  by_cases own : p = h.nextId
  · subst own
    cases placed : (h.insert data).attach h.nextId h.nextId position with
    | ok grown =>
      obtain ⟨_, _, _, _, _, _, apart, _⟩ := attach_eq_ok_iff.mp placed
      exact absurd rfl apart
    | error e =>
      cases added : h.insertUnder h.nextId data position with
      | ok grown =>
        obtain ⟨_, found, _⟩ := insertUnder_eq_ok_iff.mp added
        exact absurd (contains_of_data? found) (by simp [contains_nextId])
      | error reason => exact .refused (sameNodes_discard h data) rfl fun other => absurd rfl other
  · rw [forest.attach_insert own]
    cases h.insertUnder p data position with
    | ok grown => exact .done grown h.nextId
    | error e => exact .refused (sameNodes_discard h data) rfl fun _ => rfl

theorem Forest.matches_createTask (forest : Forest h) (p : NodeId) (spec : TaskSpec)
    (position : Position) :
    Matches h (p ≠ h.nextId) (h.createTask p spec position)
      ((Edit.createTask p spec position).perform h) := by
  have same : h.createTask p spec position =
      (h.insertUnder p (.task { spec with id := h.nextTaskId }) position).map (·, h.nextId) >>=
        fun r => pure ({ r.1 with nextTaskId := h.nextTaskId.next }, r.2) := by
    rw [Hierarchy.createTask]
    cases h.insertUnder p (.task { spec with id := h.nextTaskId }) position <;> rfl
  rw [same]
  exact (forest.matches_insertUnder p _ position).andThen _
    (fun left k => ({ left with nextTaskId := h.nextTaskId.next }, k)) fun _ _ => rfl

theorem Forest.matches_getOrCreateRootTask (forest : Forest h) (area : NodeId)
    (mode : WindowingMode) (type : ActivityType) :
    Matches h (area ≠ h.nextId) (h.getOrCreateRootTask area mode type)
      ((Edit.getOrCreateRootTask area mode type).perform h) := by
  unfold Hierarchy.getOrCreateRootTask Edit.getOrCreateRootTask
  rw [Edit.perform_bind, Edit.perform_get]
  dsimp only
  cases (h.children area).reverse.find? fun k =>
      (h.task? k).any fun t => t.mode == mode.orFullscreen && t.type == type.orStandard with
  | some k => exact .done h (k, false)
  | none =>
    exact (forest.matches_createTask area
      { mode := mode.orFullscreen.orFullscreen, type := type.orStandard } .top).andThen
        (fun k => pure (k, true)) (fun left k => (left, k, true)) fun _ _ => rfl

/-- The keys that an operation names. -/
def Operation.keys : Operation α → List NodeId
  | .attach parent child _ => [parent, child]
  | .detach child => [child]
  | .reparent child newParent _ => [child, newParent]
  | .positionChild child _ => [child]
  | .setAdjacent a b => [a, b]
  | .createRootTask area .. => [area]
  | .createTask parent .. => [parent]
  | .createFragment task .. => [task]
  | .addActivity parent .. => [parent]
  | .getOrCreateRootTask area .. => [area]

theorem Forest.matches_operation (forest : Forest h) (operation : Operation α) :
    Matches h (h.nextId ∉ operation.keys) (operation.checked h) (operation.edit.perform h) := by
  have apart {k : NodeId} (unnamed : h.nextId ∉ [k]) : k ≠ h.nextId :=
    fun same => unnamed (List.mem_singleton.mpr same.symm)
  have added {data : NodeData} {result : Except HierarchyError (Hierarchy × NodeId)} (p : NodeId)
      (position : Position) (same : (h.insertUnder p data position).map (·, h.nextId) = result) :
      Matches h (h.nextId ∉ [p]) result ((Edit.insertUnder p data position).perform h) :=
    same ▸ (forest.matches_insertUnder p data position).imp apart
  cases operation with
  | attach p c position => exact Edit.perform_attach h p c position ▸ matches_outcome _
  | detach c => exact Edit.perform_detach h c ▸ matches_outcome _
  | reparent c p position => exact forest.matches_reparent c p position
  | positionChild c position => exact Edit.perform_positionChild h c position ▸ matches_outcome _
  | setAdjacent a b => exact Edit.perform_setAdjacent h a b ▸ matches_outcome _
  | createRootTask area mode type position =>
    exact (forest.matches_createTask area _ position).imp apart
  | createTask p spec position => exact (forest.matches_createTask p spec position).imp apart
  | createFragment p bounds position =>
    refine added p position ?_
    rw [Operation.checked, createFragment]
    cases h.insertUnder p (.fragment { bounds := bounds }) position <;> rfl
  | addActivity p record position =>
    refine added p position ?_
    rw [Operation.checked, addActivity]
    cases h.insertUnder p (.activity record) position <;> rfl
  | getOrCreateRootTask area mode type =>
    exact (forest.matches_getOrCreateRootTask area mode type).imp apart

/-- An operation that is refused leaves every node, the order of the displays and the next task id
as they were, although it was made in place. One that is not refused comes to what the checked
operation says, and a refusal has the same reason, unless a key that is still to come was named. -/
theorem unchanged_of_refused (formed : h.WellFormed) (operation : Operation α) :
    (∀ e left, operation.edit.perform h = (.error e, left) →
      SameNodes h left ∧ left.nextTaskId = h.nextTaskId ∧
        (h.nextId ∉ operation.keys → operation.checked h = .error e)) ∧
      ∀ x left, operation.edit.perform h = (.ok x, left) ↔
        operation.checked h = .ok (left, x) := by
  have matched := formed.forest.matches_operation operation
  generalize operation.checked h = expected, operation.edit.perform h = happened at matched
  cases matched with
  | done left x => simp [and_comm]
  | refused same taskId expected => simp_all

/-- A root task with three tasks in it, of which the middle one holds a task. -/
def nestedTasks : Hierarchy :=
  [.addDisplay ⟨0⟩ ⟨0, 0, 1920, 1080⟩, .createRootTask ⟨2⟩ .freeform .standard .top,
    .createTask ⟨3⟩ {} .top, .createTask ⟨3⟩ {} .top, .createTask ⟨3⟩ {} .top,
    .createTask ⟨5⟩ {} .top].foldl mutate empty

/-- The middle task is taken out to be moved into the task that it holds, and is put back. -/
theorem unchanged_of_refused_cycle :
    let operation := Operation.reparent ⟨5⟩ ⟨7⟩ .top
    let left := (operation.edit.perform nestedTasks).2
    nestedTasks.WellFormed ∧ (operation.edit.perform nestedTasks).1 = .error (.cycle ⟨5⟩) ∧
      SameNodes nestedTasks left ∧ left.children ⟨3⟩ = [⟨4⟩, ⟨5⟩, ⟨6⟩] := by
  intro operation left
  have formed : nestedTasks.WellFormed := wellFormed_empty.foldl_mutate _
  have refused : (operation.edit.perform nestedTasks).1 = .error (.cycle ⟨5⟩) := by decide +kernel
  obtain ⟨same, -⟩ := (unchanged_of_refused formed operation).1 _ left (Prod.ext refused rfl)
  exact ⟨formed, refused, same, (same.children ⟨3⟩).trans (by decide +kernel)⟩

end Hierarchy
end WindowHost
