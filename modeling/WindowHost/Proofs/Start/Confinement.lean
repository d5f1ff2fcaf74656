import WindowHost.Proofs.Hierarchy.Spared
import WindowHost.Proofs.Start.Arrival
import WindowHost.Proofs.Start.Rollback

/-! Where a launch changes the hierarchy on its way to its place: on the display that the place is
on and, for a reused task, on the one that the task comes from. -/
namespace WindowHost.Start
open Hierarchy
variable {s t : Flight} {l : Launch} {record : ActivityRecord} {h h' h'' : Hierarchy}
  {display task root x : NodeId}

/-- Nothing happens on a display that the node is on neither before nor afterwards. -/
def Confined (x : NodeId) (h h' : Hierarchy) : Prop :=
  ∀ display, h.displayOf? x ≠ some display → h'.displayOf? x ≠ some display →
    Spares h h' display

theorem Confined.refl (x : NodeId) (h : Hierarchy) : Confined x h h :=
  fun display _ _ => .refl h display

/-- A change that leaves the node on its display can follow. -/
theorem Confined.trans (first : Confined x h h') (forest : Forest h) (forest' : Forest h')
    (second : Confined x h' h'') (same : h''.displayOf? x = h'.displayOf? x) :
    Confined x h h'' := by
  intro display before after
  have between : h'.displayOf? x ≠ some display := same ▸ after
  exact (first display before between).trans forest forest' (second display between after)

theorem contains_of_rootTaskOf? (known : h.rootTaskOf? x = some root) :
    h.contains root = true := by
  have top := List.find?_some known
  exact contains_of_isTask (Bool.and_eq_true_iff.mp top).1

/-- The hierarchy is the same, or it has the root task in addition. -/
def WithRoot (h h' : Hierarchy) (root : NodeId) : Prop :=
  h' = h ∨ ∃ area spec position, h.createTask area spec position = .ok (h', root)

theorem withRoot_getOrCreateRootTask {area : NodeId} {mode : WindowingMode} {type : ActivityType}
    {isNew : Bool} (made : h.getOrCreateRootTask area mode type = .ok (h', root, isNew)) :
    WithRoot h h' root := by
  rcases getOrCreateRootTask_eq_ok made with ⟨_, same⟩ | ⟨_, created⟩
  · exact .inl same
  · exact .inr ⟨_, _, _, created⟩

theorem hierarchy_takeRoot (s : Flight) (h : Hierarchy) (root : NodeId) (isNew : Bool) :
    (if isNew then s.withNew h root else s.withHierarchy h).hierarchy = h := by
  cases isNew <;> rfl

/-- How the root task for a new task has come about, and the hierarchy by then. -/
inductive Rooting (h : Hierarchy) (l : Launch) (type : ActivityType) :
    NodeId → Hierarchy → Prop where
  | named {root : NodeId} (named : l.rootTask = some root) : Rooting h l type root h
  | beside {root : NodeId} (unnamed : l.rootTask = none)
      (partner : adjacentRoot? h l = some root) : Rooting h l type root h
  | ofKind {area root : NodeId} {h' : Hierarchy} {mode : WindowingMode} {isNew : Bool}
      (unnamed : l.rootTask = none) (alone : adjacentRoot? h l = none)
      (first : h.defaultArea? l.display = some area)
      (found : h.getOrCreateRootTask area (pairedMode h l.display mode) type =
        .ok (h', root, isNew)) : Rooting h l type root h'

theorem rooting_launchRoot {mode : WindowingMode} {type : ActivityType}
    (found : launchRoot s l mode type = some (t, root)) :
    Rooting s.hierarchy l type root t.hierarchy := by
  unfold launchRoot at found
  dsimp only at found
  split at found
  · cases found
    exact .named ‹_›
  split at found
  · cases found
    exact .beside ‹_› ‹_›
  split at found
  · contradiction
  split at found
  · contradiction
  · cases found
    rw [hierarchy_takeRoot]
    exact .ofKind ‹_› ‹_› ‹_› ‹_›

theorem Rooting.withRoot {type : ActivityType} (rooting : Rooting h l type root h') :
    WithRoot h h' root := by
  cases rooting with
  | named => exact .inl rfl
  | beside => exact .inl rfl
  | ofKind _ _ _ found => exact withRoot_getOrCreateRootTask found

theorem withRoot_destination {target taskDisplay place : Option NodeId}
    (found : destination s l root target taskDisplay = some (t, place)) :
    t.hierarchy = s.hierarchy ∨
      ∃ new, place = some new ∧ WithRoot s.hierarchy t.hierarchy new := by
  rcases destination_cases found with rfl | ⟨_, _, _, _, _, new, _, _, made, rfl, rfl⟩
  · exact .inl rfl
  · rw [hierarchy_takeRoot]
    exact .inr ⟨new, rfl, withRoot_getOrCreateRootTask made⟩

section
variable (rooted : WithRoot h h' root) (formed : h.WellFormed)
include rooted formed

theorem WithRoot.wellFormed : h'.WellFormed := by
  obtain rfl | ⟨_, _, _, made⟩ := rooted
  · exact formed
  · exact formed.createTask made

/-- The root task is made on its own display. -/
theorem WithRoot.spares (apart : h'.displayOf? root ≠ some display) : Spares h h' display := by
  obtain rfl | ⟨area, spec, position, made⟩ := rooted
  · exact .refl _ display
  · refine spares_createTask made fun placed => apart ?_
    rw [displayOf?_new_createTask formed made, placed]

theorem WithRoot.displayOf? (live : h.contains x = true) :
    h'.displayOf? x = h.displayOf? x := by
  obtain rfl | ⟨area, spec, position, made⟩ := rooted
  · rfl
  · obtain ⟨_, _, _, fresh⟩ := createTask_eq_ok_iff.mp made
    refine displayOf?_createTask formed made ?_
    rintro rfl
    rw [← fresh, contains_nextId] at live
    contradiction

end

/-- A task that moves goes to the display of its new place. -/
theorem spares_moveInto {place : NodeId} {taskDisplay : Option NodeId}
    (formed : s.hierarchy.WellFormed) (here : taskDisplay = s.hierarchy.displayOf? task)
    (moved : moveInto s task place taskDisplay = some t)
    (leaves : s.hierarchy.displayOf? task ≠ some display)
    (comes : t.hierarchy.displayOf? task ≠ some display) :
    Spares s.hierarchy t.hierarchy display ∧ s.hierarchy.displayOf? place ≠ some display := by
  unfold moveInto at moved
  dsimp only at moved
  split at moved
  · rename_i stays
    cases moved
    refine ⟨formed.spares_moveTaskToFront leaves, ?_⟩
    rw [Bool.and_eq_true, decide_eq_true_eq] at stays
    rw [stays.1, here]
    exact leaves
  split at moved
  · contradiction
  · rename_i h placed
    cases moved
    have formed' : h.WellFormed := formed.reparent placed
    have comes : h.displayOf? task ≠ some display := by
      rw [← displayOf?_moveTaskToFront h task task]
      exact comes
    have place := mt (formed.forest.displayOf?_reparent formed'.forest placed leaves).mpr comes
    refine ⟨?_, place⟩
    exact (formed.forest.spares_reparent placed leaves place).trans formed.forest formed'.forest
      (formed'.spares_moveTaskToFront comes)

theorem confined_bringForward {moved : Bool} (formed : s.hierarchy.WellFormed)
    (live : s.hierarchy.contains task = true) (known : s.hierarchy.contains root = true)
    (brought : bringForward s l task root = (t, some moved)) :
    Confined task s.hierarchy t.hierarchy := by
  cases brought_bringForward brought with
  | still => exact .refl task s.hierarchy
  | @raised u place found stays =>
    -- a root task that has just been made is another one than the task's own
    have same : u.hierarchy = s.hierarchy := by
      rcases withRoot_destination found with same | ⟨new, rfl, same | ⟨_, _, _, made⟩⟩
      · exact same
      · exact same
      · obtain ⟨_, _, _, fresh⟩ := createTask_eq_ok_iff.mp made
        rw [Option.filter_eq_none_iff] at stays
        have taken : new = root := by simpa using stays new rfl
        rw [← taken, ← fresh, contains_nextId] at known
        contradiction
    intro display before _
    show Spares s.hierarchy (u.hierarchy.moveTaskToFront task).1 display
    rw [same]
    exact formed.spares_moveTaskToFront before
  | @moved u _ place found into =>
    have rooted : WithRoot s.hierarchy u.hierarchy place := by
      rcases withRoot_destination found with same | ⟨new, same, rooted⟩
      · exact .inl same
      · cases same
        exact rooted
    have here := rooted.displayOf? formed live
    have formed' := rooted.wellFormed formed
    intro display before after
    obtain ⟨spares, apart⟩ := spares_moveInto formed' here.symm into (here ▸ before) after
    exact (rooted.spares formed apart).trans formed.forest formed'.forest spares

/-- A new task is made where it is found afterwards, and so is a root task for it. -/
theorem confined_newTask {mode : WindowingMode} {type : ActivityType} {spec : TaskSpec}
    {position : Position} (formed : s.hierarchy.WellFormed)
    (found : launchRoot s l mode type = some (t, root))
    (made : t.hierarchy.createTask root spec position = .ok (h, task)) (layout : LaunchParams) :
    Confined task s.hierarchy (applyBounds h task layout) := by
  have rooted := (rooting_launchRoot found).withRoot
  have formed' := rooted.wellFormed formed
  have formed'' : h.WellFormed := formed'.createTask made
  intro display _ after
  have same := (sameFrame_applyBounds h task layout).displayOf? formed''.forest
    (wellFormed_applyBounds formed'' layout).forest task
  have apart : h.displayOf? task ≠ some display := same ▸ after
  have bounds : Spares h (applyBounds h task layout) display := by
    unfold applyBounds
    split
    · split
      · exact spares_modifyData apart _
      · exact .refl h display
    · exact .refl h display
  rw [displayOf?_new_createTask formed' made] at apart
  refine (rooted.spares formed apart).trans formed.forest formed'.forest ?_
  exact (spares_createTask made apart).trans formed'.forest formed''.forest bounds

theorem confined_arrive (formed : h.WellFormed) (l : Launch) (record : ActivityRecord)
    (task : NodeId) : Confined task h (arrive h l record task).1 := by
  obtain ⟨ks, within, cleared⟩ := exists_cleared_arrive h l record task
  intro display before _
  rw [cleared]
  have leaves : ∀ k ∈ ks, h.isActivity k = true :=
    fun k member => (List.mem_filter.mp (within k member)).2
  refine (formed.forest.cleared_of_isActivity leaves).spares formed.forest fun k member => ?_
  have listed := (List.mem_filter.mp (within k member)).1
  rcases (formed.forest.mem_ids_subtree (contains_of_mem_subtree listed)).mp listed
    with rfl | inside
  · exact before
  · rwa [formed.forest.displayOf?_eq_of_inside inside]

theorem displayOf?_arrive (formed : h.WellFormed) (live : h.isTask task = true)
    (l : Launch) (record : ActivityRecord) :
    (arrive h l record task).1.displayOf? task = h.displayOf? task := by
  obtain ⟨ks, leaves, cleared⟩ := cleared_arrive formed.forest l record task
  obtain ⟨_, _, same⟩ := exists_cleared_arrive h l record task
  exact cleared.displayOf? formed.forest (same ▸ formed.forest.foldl_remove _)
    (not_mem_of_isTask leaves live)

end WindowHost.Start
