import WindowHost.Proofs.Hierarchy.Restore
import WindowHost.Proofs.Start.Arrival
import WindowHost.Proofs.Start.Quiet

/-! What a refused launch leaves behind: nothing. Until the hierarchy takes the last change of a
launch, the launch has only made nodes, and the rollback removes those; a task that was moved takes
every activity, so nothing is refused after a move. -/
namespace WindowHost
open Hierarchy
variable {w w' : World} {s t : Flight} {k task : NodeId}

/-- The launch is over and has left nothing behind. -/
structure Undone (w : World) (s : Flight) : Prop where
  nodes : SameNodes w.hierarchy s.hierarchy
  quiet : Quiet w s.world
  unset : s.outActivity = none

/-- The launch under way has made nodes, and a rollback would leave nothing of it. -/
structure Revertible (w : World) (s : Flight) : Prop where
  formed : s.hierarchy.WellFormed
  undone : Undone w s.rollback

/-- At most, a root task has been found or made. -/
def SameOrRooted (s t : Flight) : Prop :=
  t = s ∨ ∃ area mode type h root isNew,
    s.hierarchy.getOrCreateRootTask area mode type = .ok (h, root, isNew) ∧
      t = if isNew then s.withNew h root else s.withHierarchy h

/-- A launch that ends without success has left nothing behind. -/
def Harmless (w : World) (outcome : Flight × StartResult) : Prop :=
  outcome.2.isSuccessful = false → Undone w outcome.1

theorem Flight.quiet_refineLayout (s : Flight) (chain : List Modifier) (request : LayoutRequest)
    (current : LaunchParams) : Quiet s.world (s.refineLayout chain request current).1.world := by
  refine ⟨_, rfl, fun call member => ?_⟩
  obtain ⟨asked, _, rfl⟩ := List.mem_map.mp member
  rfl

namespace Revertible

theorem start (formed : w.hierarchy.WellFormed) : Revertible w { world := w } :=
  ⟨formed, .refl _, .refl w, rfl⟩

theorem fail (revertible : Revertible w s) : Harmless w s.fail :=
  fun _ => ⟨revertible.undone.nodes, revertible.undone.quiet, rfl⟩

theorem refineLayout (revertible : Revertible w s) (chain : List Modifier)
    (request : LayoutRequest) (current : LaunchParams) :
    Revertible w (s.refineLayout chain request current).1 where
  formed := revertible.formed
  undone := ⟨revertible.undone.nodes,
    revertible.undone.quiet.trans (s.quiet_refineLayout chain request current),
    revertible.undone.unset⟩

/-- A node that is new and recorded as made goes with the rollback. -/
theorem grown (revertible : Revertible w s) (sprout : Sprout s.hierarchy t.hierarchy k)
    (formed : t.hierarchy.WellFormed) (made : t.created = s.created ++ [k])
    (quiet : Quiet s.world t.world) (unset : t.outActivity = none) : Revertible w t where
  formed := formed
  undone := by
    refine ⟨?_, revertible.undone.quiet.trans quiet, unset⟩
    have unlisted := revertible.formed.not_mem_displays sprout.fresh
    have removed := sprout.remove formed.forest unlisted
    have rolled := SameNodes.foldl_remove s.created.reverse revertible.formed.forest removed
    have last : t.rollback.hierarchy =
        s.created.reverse.foldl Hierarchy.remove (t.hierarchy.remove k) := by
      simp [Flight.rollback, Flight.hierarchy, Flight.withHierarchy, made]
    rw [last]
    exact revertible.undone.nodes.trans rolled

/-- A new task goes with the rollback. -/
theorem withNew {h : Hierarchy} {p : NodeId} {spec : TaskSpec} {position : Position}
    (revertible : Revertible w s)
    (made : s.hierarchy.createTask p spec position = .ok (h, k)) :
    Revertible w (s.withNew h k) :=
  revertible.grown (revertible.formed.sprout_createTask made) (revertible.formed.createTask made)
    rfl (.refl _) revertible.undone.unset

/-- A root task that was found changes nothing, and one that was made goes with the rollback. -/
theorem sameOrRooted (revertible : Revertible w s) (rooted : SameOrRooted s t) :
    Revertible w t := by
  obtain rfl | ⟨_, _, _, _, _, _, made, rfl⟩ := rooted
  · exact revertible
  · rcases getOrCreateRootTask_eq_ok made with ⟨rfl, rfl⟩ | ⟨rfl, created⟩
    · exact revertible
    · exact revertible.withNew created

end Revertible

namespace Start
variable {env : Environment} {chain : List Modifier} {l : Launch} {record : ActivityRecord}

theorem harmless_addTo (revertible : Revertible w s) (parent : NodeId) :
    Harmless w (addTo env s l record parent) := by
  unfold addTo
  split
  · exact revertible.fail
  · intro failed
    contradiction

theorem sameOrRooted_launchRoot {mode : WindowingMode} {type : ActivityType} {root : NodeId}
    (found : launchRoot s l mode type = some (t, root)) : SameOrRooted s t := by
  unfold launchRoot at found
  dsimp only at found
  split at found
  · cases found
    exact .inl rfl
  split at found
  · cases found
    exact .inl rfl
  split at found
  · contradiction
  split at found
  · contradiction
  · cases found
    exact .inr ⟨_, _, _, _, _, _, ‹_›, rfl⟩

/-- The bounds of a layout are an edit of the new task, which stays one. -/
theorem sprout_applyBounds {h h' : Hierarchy} (sprout : Sprout h h' task)
    (layout : LaunchParams) : Sprout h (applyBounds h' task layout) task := by
  unfold applyBounds
  split
  · split
    · exact sprout.modifyTask fun _ => rfl
    · exact sprout
  · exact sprout

theorem sameFrame_applyBounds (h : Hierarchy) (task : NodeId) (layout : LaunchParams) :
    SameFrame h (applyBounds h task layout) := by
  unfold applyBounds
  split
  · split
    · exact sameFrame_modifyTask task fun _ => rfl
    · exact .refl h
  · exact .refl h

theorem wellFormed_applyBounds {h : Hierarchy} (formed : h.WellFormed) (layout : LaunchParams) :
    (applyBounds h task layout).WellFormed :=
  formed.of_sameFrame (sameFrame_applyBounds h task layout)

theorem harmless_startInNewTask (revertible : Revertible w s) (r : StartRequest)
    (request : LayoutRequest) (layout : LaunchParams) :
    Harmless w (startInNewTask env chain s l r record request layout) := by
  unfold startInNewTask
  split
  · exact revertible.fail
  rename_i rooted root found
  have revertible := revertible.sameOrRooted (sameOrRooted_launchRoot found)
  dsimp only
  split
  · exact revertible.fail
  rename_i h task made
  -- the bounds come after the layout, but both leave the new task as the only new node
  have laidOut : ∀ (request : LayoutRequest),
      let laid := (rooted.withNew h task).refineLayout chain request layout
      Revertible w (laid.1.withHierarchy (applyBounds laid.1.hierarchy task laid.2)) := by
    intro request
    exact revertible.grown (sprout_applyBounds (revertible.formed.sprout_createTask made) _)
      (wellFormed_applyBounds (revertible.formed.createTask made) _) rfl
      ((rooted.withNew h task).quiet_refineLayout chain request layout) revertible.undone.unset
  split
  · exact fun _ => (laidOut _).undone
  · exact harmless_addTo (laidOut _) task

theorem harmless_deliverToTop (s : Flight) (top : NodeId) :
    Harmless w (deliverToTop env s l record top) := by
  intro failed
  contradiction

/-- At most, a root task is found or made, in the first area of a display. -/
theorem destination_cases {root : NodeId} {target taskDisplay place : Option NodeId}
    (found : destination s l root target taskDisplay = some (t, place)) :
    t = s ∨ ∃ display area mode type h new isNew, s.hierarchy.defaultArea? display = some area ∧
      s.hierarchy.getOrCreateRootTask area mode type = .ok (h, new, isNew) ∧
        t = (if isNew then s.withNew h new else s.withHierarchy h) ∧ place = some new := by
  unfold destination at found
  split at found
  · cases found
    exact .inl rfl
  · cases found
    exact .inl rfl
  dsimp only at found
  split at found
  · cases found
    exact .inl rfl
  split at found
  · contradiction
  split at found
  · contradiction
  · cases found
    exact .inr ⟨_, _, _, _, _, _, _, ‹_›, ‹_›, rfl, rfl⟩

theorem sameOrRooted_destination {root : NodeId} {target taskDisplay place : Option NodeId}
    (found : destination s l root target taskDisplay = some (t, place)) : SameOrRooted s t := by
  rcases destination_cases found with same | ⟨_, area, mode, type, h, new, isNew, _, made, took, _⟩
  · exact .inl same
  · exact .inr ⟨area, mode, type, h, new, isNew, made, took⟩

/-- What comes of bringing a reused task to the front: the flight, and whether that counts as a
move, or that it was refused. -/
inductive Brought (s : Flight) (l : Launch) (task root : NodeId) : Flight → Option Bool → Prop where
  | still {moved : Option Bool} (uncounted : moved ≠ some true) : Brought s l task root s moved
  | raised {u : Flight} {place : Option NodeId}
      (found : destination s l root (l.preferredDisplay.or (s.hierarchy.displayOf? task))
        (s.hierarchy.displayOf? task) = some (u, place))
      (here : place.filter (· != root) = none) (counts : Bool) :
      Brought s l task root (u.raise task) (some counts)
  | refused {u : Flight} {place : Option NodeId}
      (found : destination s l root (l.preferredDisplay.or (s.hierarchy.displayOf? task))
        (s.hierarchy.displayOf? task) = some (u, place)) : Brought s l task root u none
  | moved {u t : Flight} {place : NodeId}
      (found : destination s l root (l.preferredDisplay.or (s.hierarchy.displayOf? task))
        (s.hierarchy.displayOf? task) = some (u, some place))
      (into : moveInto u task place (s.hierarchy.displayOf? task) = some t) :
      Brought s l task root t (some true)

theorem brought_bringForward {root : NodeId} {moved : Option Bool}
    (brought : bringForward s l task root = (t, moved)) : Brought s l task root t moved := by
  unfold bringForward at brought
  dsimp only at brought
  split at brought
  · cases brought
    exact .still (by simp)
  split at brought
  · cases brought
    exact .still (by simp)
  rename_i found
  split at brought
  · cases brought
    exact .raised found ‹_› _
  rename_i chosen
  obtain ⟨rfl, _⟩ := Option.filter_eq_some_iff.mp chosen
  split at brought
  · cases brought
    exact .refused found
  · cases brought
    exact .moved found ‹_›

/-- The task is live, in a well-formed hierarchy. -/
structure Standing (h : Hierarchy) (task : NodeId) : Prop where
  formed : h.WellFormed
  task : h.isTask task = true

theorem Standing.contains {h : Hierarchy} (standing : Standing h task) :
    h.contains task = true :=
  contains_of_isTask standing.task

theorem Standing.of_tag? {h h' : Hierarchy} (standing : Standing h task) (formed : h'.WellFormed)
    (same : h'.tag? task = h.tag? task) : Standing h' task :=
  ⟨formed, (isTask_congr same).trans standing.task⟩

theorem Standing.raise {h : Hierarchy} (standing : Standing h task) :
    Standing (h.moveTaskToFront task).1 task :=
  standing.of_tag? (standing.formed.moveTaskToFront task) (tag?_moveTaskToFront ..)

theorem Standing.sameOrRooted (standing : Standing s.hierarchy task) (rooted : SameOrRooted s t) :
    Standing t.hierarchy task := by
  obtain rfl | ⟨_, _, _, _, _, _, made, rfl⟩ := rooted
  · exact standing
  · rcases getOrCreateRootTask_eq_ok made with ⟨rfl, rfl⟩ | ⟨rfl, created⟩
    · exact standing
    · exact standing.of_tag? (standing.formed.createTask created)
        (tag?_createTask standing.contains created)

theorem standing_moveInto {place : NodeId} {taskDisplay : Option NodeId}
    (standing : Standing s.hierarchy task)
    (moved : moveInto s task place taskDisplay = some t) : Standing t.hierarchy task := by
  unfold moveInto at moved
  dsimp only at moved
  split at moved
  · cases moved
    exact standing.raise
  split at moved
  · contradiction
  · cases moved
    have placed : Standing _ task :=
      standing.of_tag? (standing.formed.reparent ‹_›) (tag?_reparent ‹_› task)
    exact placed.raise

theorem revertible_bringForward {root : NodeId} (revertible : Revertible w s)
    (refused : bringForward s l task root = (t, none)) : Revertible w t := by
  cases brought_bringForward refused with
  | still => exact revertible
  | refused found => exact revertible.sameOrRooted (sameOrRooted_destination found)

theorem standing_bringForward {root : NodeId} {moved : Bool} (standing : Standing s.hierarchy task)
    (taken : bringForward s l task root = (t, some moved)) : Standing t.hierarchy task := by
  cases brought_bringForward taken with
  | still => exact standing
  | raised found => exact (standing.sameOrRooted (sameOrRooted_destination found)).raise
  | moved found into =>
    exact standing_moveInto (standing.sameOrRooted (sameOrRooted_destination found)) into

/-- Clearing a task takes activities out of it, and leaves the task. -/
theorem tag?_arrive {h : Hierarchy} (standing : Standing h task) :
    (arrive h l record task).1.tag? task = h.tag? task := by
  obtain ⟨ks, leaves, cleared⟩ := cleared_arrive standing.formed.forest l record task
  rw [tag?, cleared.data?, if_neg (not_mem_of_isTask leaves standing.task), ← tag?]

theorem harmless_recycle (revertible : Revertible w s) (live : s.hierarchy.isTask task = true) :
    Harmless w (recycle env s l record task) := by
  unfold recycle
  split
  · exact revertible.fail
  rename_i root rooted
  dsimp only
  have noted : Revertible w { s with
      taskWasVisible := some (hasVisibleActivity s.hierarchy task) } :=
    ⟨revertible.formed, revertible.undone.nodes, revertible.undone.quiet, revertible.undone.unset⟩
  split
  · exact (revertible_bringForward noted ‹_›).fail
  rename_i moved brought
  have standing := standing_bringForward ⟨noted.formed, live⟩ brought
  split
  · split
    · rename_i refused
      obtain ⟨i, held⟩ := isTask_eq_true_iff.mp standing.task
      obtain ⟨grown, taken⟩ := exists_addActivity ((tag?_arrive standing).trans held) record .top
      rw [taken] at refused
      contradiction
    · intro failed
      contradiction
  · intro failed
    cases moved <;> contradiction
  · intro failed
    cases moved <;> contradiction

end Start
end WindowHost
