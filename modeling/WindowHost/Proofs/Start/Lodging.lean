import WindowHost.Proofs.Hierarchy.Searches
import WindowHost.Proofs.Start.Landing

/-! The place of a new activity. On the way there a launch moves at most the task that it reuses,
and takes activities from it; a launch that keeps a task to itself finds the reused one by an
instance in it, and takes all of them. -/
namespace WindowHost
open Hierarchy
variable {s t : Flight} {l : Launch} {r : StartRequest} {record : ActivityRecord}
  {h h' h₀ : Hierarchy} {j k place root task x : NodeId}

namespace Start

theorem reusableTask?_cases (found : reusableTask? r h record = some task) :
    record.launchMode = .singleInstance ∧ (∃ j,
        h.findActivity? record.component record.userId = some j ∧ h.taskAround? j = some task) ∨
      record.launchMode ≠ .singleInstance ∧
        h.findTask? record.component record.info.affinity record.userId = some task := by
  unfold reusableTask? at found
  dsimp only at found
  split at found
  · split at found
    · exact .inl ⟨‹_›, Option.bind_eq_some_iff.mp found⟩
    · exact .inr ⟨‹_›, found⟩
  · contradiction

theorem isSome_displayOf?_of_reusableTask? (formed : h.WellFormed)
    (found : reusableTask? r h record = some task) : (h.displayOf? task).isSome = true := by
  rcases reusableTask?_cases found with ⟨_, j, here, around⟩ | ⟨_, here⟩
  · rw [← formed.forest.displayOf?_eq_of_inside (formed.forest.inside_of_taskAround? around)]
    exact formed.isSome_displayOf?_of_findActivity? here
  · exact formed.isSome_displayOf?_of_findTask? here

/-- A task is reused for what runs in it. -/
theorem hasRunningActivity_of_reusableTask? (formed : h.WellFormed)
    (found : reusableTask? r h record = some task) : h.hasRunningActivity task = true := by
  rcases reusableTask?_cases found with ⟨_, j, here, around⟩ | ⟨_, here⟩
  · obtain ⟨a, held, runs, _⟩ := exists_of_findActivity? here
    have listed := (formed.forest.mem_activities_iff (isTask_of_taskAround? around)).mpr
      ⟨isActivity_of_activity? held, formed.forest.inside_of_taskAround? around⟩
    exact List.find?_isSome.mpr ⟨j, listed, by simp [activityHas, held, runs]⟩
  · have fits := (List.mem_filter.mp (mem_reusableTasks_of_findTask? here)).2
    exact (Bool.and_eq_true_iff.mp fits).2

theorem WithRoot.carried (rooted : WithRoot h h' root) (x : NodeId) : Carried x h h' := by
  obtain rfl | ⟨_, _, _, made⟩ := rooted
  · exact .refl x h'
  · exact .createTask x made

theorem carried_moveInto {taskDisplay : Option NodeId}
    (moved : moveInto s task place taskDisplay = some t) :
    Carried task s.hierarchy t.hierarchy := by
  unfold moveInto at moved
  dsimp only at moved
  split at moved
  · cases moved
    exact .moveTaskToFront task s.hierarchy task
  split at moved
  · contradiction
  · rename_i h placed
    cases moved
    exact (Carried.reparent placed).trans (.moveTaskToFront task h task)

theorem carried_bringForward {moved : Option Bool}
    (brought : bringForward s l task root = (t, moved)) :
    Carried task s.hierarchy t.hierarchy := by
  have rooted : ∀ {u target taskDisplay place},
      destination s l root target taskDisplay = some (u, place) →
        Carried task s.hierarchy u.hierarchy := by
    intro u _ _ _ found
    rcases withRoot_destination found with same | ⟨_, _, rooted⟩
    · exact same ▸ .refl task s.hierarchy
    · exact rooted.carried task
  cases brought_bringForward brought with
  | still => exact .refl task s.hierarchy
  | @raised u _ found => exact (rooted found).trans (.moveTaskToFront task u.hierarchy task)
  | refused found => exact rooted found
  | moved found into => exact (rooted found).trans (carried_moveInto into)

/-- Where there is an instance, an activity that keeps a task to itself is added only to a task that
has been emptied. -/
theorem arrive_add_of_instance (arrived : arrive h l record task = (h', .add))
    (alone : record.launchMode.requiresNewTask = true)
    (found : h.findActivityIn? task record.component = some j) :
    h' = (h.activities task).foldl Hierarchy.remove h := by
  unfold arrive at arrived
  dsimp only at arrived
  split at arrived
  · cases arrived
    rfl
  rw [if_pos (by simp [alone]), found] at arrived
  dsimp only at arrived
  have several : (record.launchMode == .multiple) = false := by
    cases mode : record.launchMode <;> simp_all [LaunchMode.requiresNewTask]
  rw [several, Bool.and_false] at arrived
  cases arrived

end Start

namespace Reuses
variable (reuses : Reuses r h₀ record l task h)
include reuses

theorem carried : Carried task h₀ h := by
  obtain ⟨_, s, t, root, moved, rfl, _, brought, rfl⟩ := reuses
  exact Start.carried_bringForward brought

theorem activity?_after {a : ActivityRecord} (held : h₀.activity? k = some a) :
    h.activity? k = some a :=
  (activity?_of_data? (reuses.carried.data k (contains_of_activity? held))).trans held

theorem isTask : h₀.isTask task = true := Start.isTask_of_reusableTask? reuses.chosen

theorem isTask_after : h.isTask task = true :=
  isTask_of_data? (reuses.carried.data task (contains_of_isTask reuses.isTask)) reuses.isTask

variable (formed : h₀.WellFormed)
include formed

theorem wellFormed : h.WellFormed := by
  have live := reuses.isTask
  obtain ⟨_, s, t, root, moved, rfl, _, brought, rfl⟩ := reuses
  exact (Start.standing_bringForward ⟨formed, live⟩ brought).formed

theorem inside_iff (live : h₀.contains k = true) : Inside h k task ↔ Inside h₀ k task :=
  reuses.carried.inside_iff formed.forest (reuses.wellFormed formed).forest live

theorem stays (k : NodeId) : Stays h₀ h k :=
  reuses.carried.stays formed.forest (reuses.wellFormed formed).forest
    (fun _ => ⟨reuses.isTask, Start.isSome_displayOf?_of_reusableTask? formed reuses.chosen⟩) k

theorem standing : Start.Standing h task := ⟨reuses.wellFormed formed, reuses.isTask_after⟩

/-- The clearing of the reused task. -/
theorem cleared (arrived : (Start.arrive h l record task).1 = h') :
    Start.Standing h' task ∧ ∀ k, Stays h h' k := by
  have standing := reuses.standing formed
  have forest := standing.formed.forest
  obtain ⟨ks, leaves, cleared⟩ := Start.cleared_arrive forest l record task
  obtain ⟨ls, _, same⟩ := Start.exists_cleared_arrive h l record task
  have after : h'.WellFormed := arrived ▸ same ▸ standing.formed.foldl_remove ls
  have kept : (Start.arrive h l record task).1.tag? task = h.tag? task :=
    Start.tag?_arrive standing
  rw [arrived] at cleared kept
  exact ⟨standing.of_tag? after kept, cleared.stays forest after.forest⟩

/-- The instance by which the task was found lies in it, so nothing else is left in it either. -/
theorem emptied (single : record.launchMode = .singleInstance)
    (arrived : Start.arrive h l record task = (h', .add)) (inside : Inside h k task) :
    h'.isActivity k = false := by
  have formed' := reuses.wellFormed formed
  have mem_iff := fun {k} => formed'.forest.mem_activities_iff (k := k) reuses.isTask_after
  obtain ⟨_, j, found, around⟩ | ⟨other, _⟩ := Start.reusableTask?_cases reuses.chosen
  · obtain ⟨a, held, runs, component, _⟩ := exists_of_findActivity? found
    have held' := reuses.activity?_after held
    have within : Inside h j task := (reuses.inside_iff formed (contains_of_activity? held)).mpr
      (formed.forest.inside_of_taskAround? around)
    have listed : j ∈ h.activities task := mem_iff.mpr ⟨isActivity_of_activity? held', within⟩
    obtain ⟨i, top⟩ : ∃ i, h.findActivityIn? task record.component = some i :=
      Option.isSome_iff_exists.mp
        (List.find?_isSome.mpr ⟨j, listed, by simp [activityHas, held', runs, component]⟩)
    have emptied := Start.arrive_add_of_instance arrived (by rw [single]; rfl) top
    have cleared := formed'.forest.cleared_of_isActivity
      (fun k (member : k ∈ h.activities task) => (List.mem_filter.mp member).2)
    rw [← emptied] at cleared
    rw [Bool.eq_false_iff]
    intro leaf
    by_cases gone : k ∈ h.activities task
    · simp [isActivity, activity?, cleared.data?, gone] at leaf
    · refine gone (mem_iff.mpr ⟨?_, inside⟩)
      rwa [isActivity, cleared.activity? gone, ← isActivity] at leaf
  · exact absurd single other

end Reuses

section
variable {spec : TaskSpec} {position : Position}
  (made : h.createTask x spec position = .ok (h', task))
include made

theorem Start.WithRoot.contains_new (rooted : Start.WithRoot h₀ h root) :
    h₀.contains task = false := by
  obtain ⟨_, _, _, fresh⟩ := createTask_eq_ok_iff.mp made
  rw [Bool.eq_false_iff]
  intro live
  have live := (rooted.carried task).contains live
  rw [← fresh, contains_nextId] at live
  contradiction

/-- A new task, with its bounds, is all that comes. -/
theorem Start.WithRoot.carried_new (rooted : Start.WithRoot h₀ h root) (layout : LaunchParams) :
    Carried task h₀ (Start.applyBounds h' task layout) := by
  have carried := (rooted.carried task).trans (.createTask task made)
  unfold Start.applyBounds
  split
  · split
    · exact carried.modifyTask (Start.WithRoot.contains_new made rooted) _
    · exact carried
  · exact carried

theorem Start.isTask_new (layout : LaunchParams) :
    (Start.applyBounds h' task layout).isTask task = true := by
  have frame := Start.sameFrame_applyBounds h' task layout
  have data := data?_createTask made task
  rw [if_pos rfl] at data
  obtain ⟨i, held⟩ : ∃ i, h'.tag? task = some (.task i) := ⟨_, by rw [tag?, data]; rfl⟩
  exact isTask_eq_true_iff.mpr ⟨i, (frame.tag task).trans held⟩

end

namespace Lodging
variable (lodging : Lodging r h₀ record l place h) (formed : h₀.WellFormed)
include lodging formed

theorem wellFormed : h.WellFormed := by
  cases lodging with
  | reused reuses arrived => exact (reuses.cleared formed (congrArg Prod.fst arrived)).1.formed
  | existing => exact formed
  | made _ _ rooting made layout =>
    have formed' := rooting.withRoot.wellFormed formed
    exact Start.wellFormed_applyBounds (formed'.createTask made) layout

theorem stays (k : NodeId) : Stays h₀ h k := by
  have formed' := lodging.wellFormed formed
  cases lodging with
  | reused reuses arrived =>
    exact (reuses.stays formed k).trans ((reuses.cleared formed (congrArg Prod.fst arrived)).2 k)
  | existing => exact .refl h k
  | made _ _ rooting made layout =>
    have rooted := rooting.withRoot
    have new : h₀.contains place = false := Start.WithRoot.contains_new made rooted
    have bounded := Start.WithRoot.carried_new made rooted layout
    refine bounded.stays formed.forest formed'.forest (fun live => ?_) k
    rw [new] at live
    contradiction

end Lodging

end WindowHost
