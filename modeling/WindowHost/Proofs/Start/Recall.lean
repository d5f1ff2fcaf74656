import WindowHost.Proofs.Hierarchy.Fetched
import WindowHost.Proofs.Start.Lodging

/-! A reused task comes to the front, unless the options keep it where it is. It stays in its place,
or goes into the root task that the options name or that fits on the display that is asked for, and
is raised there. -/
namespace WindowHost
open Hierarchy
variable {h h' h₀ : Hierarchy} {l : Launch} {r : StartRequest} {record : ActivityRecord}
  {display place root task : NodeId}

theorem Launch.Of.avoidMoveToFront (chosen : l.Of r h) :
    l.avoidMoveToFront = r.options.any LaunchOptions.avoidMoveToFront := by
  obtain ⟨_, _, _, rfl⟩ := chosen
  rfl

/-- A task that is not to come to the front stays where it is. -/
theorem Reuses.eq_of_avoids (reuses : Reuses r h₀ record l task h)
    (avoids : l.avoidMoveToFront = true) : h = h₀ := by
  obtain ⟨_, s, t, root, moved, rfl, _, brought, rfl⟩ := reuses
  unfold Start.bringForward at brought
  dsimp only at brought
  rw [if_pos (by simp [avoids])] at brought
  cases brought
  rfl

namespace Start

theorem isTask_of_getOrCreateRootTask {area : NodeId} {mode : WindowingMode} {type : ActivityType}
    {isNew : Bool} (made : h.getOrCreateRootTask area mode type = .ok (h', root, isNew)) :
    h'.isTask root = true := by
  unfold getOrCreateRootTask at made
  dsimp only at made
  split at made
  · rename_i found
    cases made
    have fits := List.find?_some found
    cases held : h.task? root <;> simp_all [isTask]
  · obtain ⟨⟨_, _⟩, created, same⟩ := bind_eq_ok_iff.mp made
    cases same
    rw [isTask, task?, data?_createTask created, if_pos rfl]
    rfl

theorem isTask_of_destination {u v : Flight} {target taskDisplay : Option NodeId}
    (named : ∀ k, l.rootTask = some k → u.hierarchy.isTask k = true)
    (found : destination u l root target taskDisplay = some (v, some place)) :
    v.hierarchy.isTask place = true := by
  unfold destination at found
  split at found
  · rename_i known
    cases found
    exact named place known
  · cases found
  dsimp only at found
  split at found
  · cases found
  split at found
  · contradiction
  split at found
  · contradiction
  · rename_i made
    cases found
    rw [hierarchy_takeRoot]
    exact isTask_of_getOrCreateRootTask made

/-- The task stays where it is, or it has been fetched and moved to the front at last. -/
theorem fetched_bringForward {u v : Flight} {moved : Bool}
    (named : ∀ k, l.rootTask = some k → u.hierarchy.isTask k = true)
    (standing : Standing u.hierarchy task)
    (brought : bringForward u l task root = (v, some moved)) :
    v.hierarchy = u.hierarchy ∨ Fetched task u.hierarchy v.hierarchy ∧
      ∃ b : Hierarchy, v.hierarchy = (b.moveTaskToFront task).1 := by
  have rooted : ∀ {v target taskDisplay goal},
      destination u l root target taskDisplay = some (v, goal) →
        Fetched task u.hierarchy v.hierarchy ∧ Standing v.hierarchy task := by
    intro v _ _ _ found
    refine ⟨?_, standing.sameOrRooted (sameOrRooted_destination found)⟩
    rcases withRoot_destination found with same | ⟨_, _, same | ⟨_, _, _, made⟩⟩
    · exact same ▸ .refl task _
    · exact same ▸ .refl task _
    · exact .createTask standing.contains made
  have raise : ∀ {h}, Fetched task u.hierarchy h → Standing h task →
      Fetched task u.hierarchy (h.moveTaskToFront task).1 := fun fetched standing =>
    fetched.trans (.moveTaskToFront standing.formed.forest standing.task)
  cases brought_bringForward brought with
  | still => exact .inl rfl
  | @raised v _ found =>
    obtain ⟨fetched, standing⟩ := rooted found
    exact .inr ⟨raise fetched standing, v.hierarchy, rfl⟩
  | @moved v _ _ found into =>
    obtain ⟨fetched, standing⟩ := rooted found
    unfold moveInto at into
    dsimp only at into
    split at into
    · cases into
      exact .inr ⟨raise fetched standing, v.hierarchy, rfl⟩
    split at into
    · contradiction
    · rename_i h placed
      cases into
      have further : Fetched task v.hierarchy h := .reparent standing.formed.forest standing.task
        placed (isTask_of_destination named found)
      have standing : Standing h task :=
        standing.of_tag? (standing.formed.reparent placed) (tag?_reparent placed task)
      exact .inr ⟨raise (fetched.trans further) standing, h, rfl⟩

/-- The reused task has come to the front. -/
structure Recalled (task : NodeId) (h₀ h : Hierarchy) : Prop where
  formed : h.WellFormed
  live : h.isTask task = true
  fetched : Fetched task h₀ h
  exists_raised : ∃ b : Hierarchy, h = (b.moveTaskToFront task).1

theorem Recalled.focus (recalled : Recalled task h₀ h) (forest : Forest h₀)
    (shown : (h₀.display? display).isSome = true)
    (focus : h₀.focusedRootTask? display = some root)
    (runs : h₀.hasRunningActivity root = true) (isRoot : h.isRootTask root = true)
    (here : task = root ∨ Inside h task root) :
    h.topFocusedDisplay? = some display ∧ h.focusedRootTask? display = some root ∧
      h.hasRunningActivity root = true := by
  obtain ⟨_, raised⟩ := recalled.exists_raised
  exact recalled.fetched.focus forest recalled.formed.forest recalled.formed
    (isFragmentLike_of_isTask recalled.live) raised shown focus runs isRoot here

/-- The hierarchy is as it was, or the task that the launch reuses has come to the front in it. -/
def MayRecall (r : StartRequest) (record : ActivityRecord) (h₀ h : Hierarchy) : Prop :=
  h = h₀ ∨ ∃ task, reusableTask? r h₀ record = some task ∧
    r.options.any LaunchOptions.avoidMoveToFront = false ∧ Recalled task h₀ h

theorem mayRecall_of_reuses (formed : h₀.WellFormed) (chosen : l.Of r h₀)
    (reuses : Reuses r h₀ record l task h) : MayRecall r record h₀ h := by
  cases avoids : r.options.any LaunchOptions.avoidMoveToFront with
  | true => exact .inl (reuses.eq_of_avoids (chosen.avoidMoveToFront.trans avoids))
  | false =>
    have standing := reuses.standing formed
    have live := reuses.isTask
    obtain ⟨reused, u, v, root, moved, rfl, _, brought, rfl⟩ := reuses
    obtain ⟨_, _, _, rfl⟩ := chosen
    rcases fetched_bringForward (fun k named => (Option.filter_eq_some_iff.mp named).2)
      ⟨formed, live⟩ brought with same | ⟨fetched, raised⟩
    · exact .inl same
    · exact .inr ⟨task, reused, avoids, standing.formed, standing.task, fetched, raised⟩

end Start
end WindowHost
