import WindowHost.Proofs.Hierarchy.Intact
import WindowHost.Proofs.Start.Course
import WindowHost.Proofs.Start.Lodging

/-! What a launch clears from the task that it reuses. The task comes to the front with everything
in it stacked as it was, so what goes can be told from the task as it lies before the launch. Every
other activity outlasts a launch. -/
namespace WindowHost
open Hierarchy
variable {s t : Flight} {l : Launch} {given r : StartRequest} {record : ActivityRecord}
  {host : Host} {info : ActivityInfo} {flags : IntentFlags} {h h' h₀ : Hierarchy}
  {j k place root task : NodeId} {taskDisplay target destined : Option NodeId}

namespace Start

/-- The activities that a launch takes from the task that it reuses: all of them, or those above the
topmost running instance of its component, and with them the instance if another one is to take its
place. -/
def evicted (h : Hierarchy) (flags : IntentFlags) (info : ActivityInfo) (task : NodeId) :
    List NodeId :=
  if flags.has .clearTask then h.activities task
  else if flags.has .clearTop || info.launchMode.requiresNewTask then
    match h.findActivityIn? task info.component with
    | none => []
    | some top =>
      (h.activities task).takeWhile (· != top) ++
        if flags.has .clearTop && !flags.has .singleTop && info.launchMode == .multiple then [top]
        else []
  else []

theorem mem_activities_of_mem_evicted (member : k ∈ evicted h flags info task) :
    k ∈ h.activities task := by
  unfold evicted at member
  split at member
  · exact member
  split at member
  · split at member
    · contradiction
    rename_i top found
    rcases List.mem_append.mp member with above | itself
    · exact List.takeWhile_subset _ above
    · split at itself
      · rw [List.mem_singleton.mp itself]
        exact List.mem_of_find?_eq_some found
      · contradiction
  · contradiction

theorem isActivity_of_mem_evicted (member : k ∈ evicted h flags info task) :
    h.isActivity k = true :=
  (List.mem_filter.mp (mem_activities_of_mem_evicted member)).2

theorem arrive_eq_foldl_evicted (named : l.flags.has .newTask = true) :
    (arrive h l record task).1 =
      (evicted h l.flags record.info task).foldl Hierarchy.remove h := by
  have component : record.component = record.info.component := rfl
  have mode : record.launchMode = record.info.launchMode := rfl
  unfold arrive evicted
  dsimp only
  rw [named, Bool.true_and, component, mode]
  split
  · rfl
  split
  · cases h.findActivityIn? task record.info.component with
    | none => rfl
    | some top =>
      dsimp only
      split
      · rw [List.foldl_append]
        rfl
      · rw [List.append_nil]
  split
  · rfl
  split <;> rfl

/-- The task that a start reuses for a component, with the flags that really apply. -/
def taskToReuse? (given : StartRequest) (h : Hierarchy) (info : ActivityInfo) : Option NodeId :=
  let r := { given with intent := { given.intent with flags := given.effectiveFlags h info } }
  reusableTask? r h (r.newRecord info.uid info)

/-- Only the terms of a request, its flags and its component matter. -/
theorem Admitted.taskToReuse? (admitted : Admitted host given r info h) (uid : Uid) :
    reusableTask? r h (r.newRecord uid info) = Start.taskToReuse? given h info := by
  have names := admitted.terms.namesPlace h
  have wants := admitted.terms.wantsResult h
  unfold Start.taskToReuse? reusableTask?
  dsimp only
  rw [names, wants, admitted.flags]
  rfl

theorem has_newTask_of_reusableTask? (applied : r.intent.flags = given.effectiveFlags h info)
    (launched : record.info = info) (found : reusableTask? r h record = some task) :
    r.intent.flags.has .newTask = true := by
  unfold reusableTask? at found
  dsimp only at found
  split at found
  · rename_i asked
    simp only [Bool.and_eq_true, Bool.or_eq_true] at asked
    rcases asked.2 with ⟨named, _⟩ | alone
    · exact named
    · by_contra unnamed
      rw [applied, Bool.not_eq_true] at unnamed
      rw [ActivityRecord.launchMode, launched, (shared_of_effectiveFlags unnamed).1] at alone
      contradiction
  · contradiction

theorem contents_destination (standing : Standing s.hierarchy task)
    (found : destination s l root target taskDisplay = some (t, destined)) :
    t.hierarchy.contents task = s.hierarchy.contents task := by
  rcases destination_cases found with rfl | ⟨_, area, _, _, h, new, isNew, first, made, rfl, _⟩
  · rfl
  rw [hierarchy_takeRoot]
  rcases getOrCreateRootTask_eq_ok made with ⟨_, rfl⟩ | ⟨_, created⟩
  · rfl
  -- the new root task lies in an area, so not in the task
  have forest := standing.formed.forest
  refine standing.formed.contents_createTask created ?_
  exact forest.not_inside_of_area (forest.isSome_area?_of_defaultArea? first)
    (isFragmentLike_of_isTask standing.task)

theorem contents_moveInto (standing : Standing s.hierarchy task)
    (moved : moveInto s task place taskDisplay = some t) :
    t.hierarchy.contents task = s.hierarchy.contents task := by
  unfold moveInto at moved
  dsimp only at moved
  split at moved
  · cases moved
    exact standing.formed.contents_moveTaskToFront task
  split at moved
  · contradiction
  · rename_i h placed
    cases moved
    have formed : h.WellFormed := standing.formed.reparent placed
    exact (formed.contents_moveTaskToFront task).trans (standing.formed.contents_reparent placed)

theorem contents_bringForward {moved : Bool} (standing : Standing s.hierarchy task)
    (brought : bringForward s l task root = (t, some moved)) :
    t.hierarchy.contents task = s.hierarchy.contents task := by
  cases brought_bringForward brought with
  | still => rfl
  | @raised u _ found =>
    have rooted := standing.sameOrRooted (sameOrRooted_destination found)
    have raised : (u.raise task).hierarchy.contents task = u.hierarchy.contents task :=
      rooted.formed.contents_moveTaskToFront task
    exact raised.trans (contents_destination standing found)
  | moved found into =>
    have rooted := standing.sameOrRooted (sameOrRooted_destination found)
    exact (contents_moveInto rooted into).trans (contents_destination standing found)

end Start

namespace Reuses
variable (reuses : Reuses r h₀ record l task h) (formed : h₀.WellFormed)
include reuses formed

theorem contents : h.contents task = h₀.contents task := by
  have live := reuses.isTask
  obtain ⟨_, s, t, root, moved, rfl, _, brought, rfl⟩ := reuses
  exact Start.contents_bringForward ⟨formed, live⟩ brought

theorem find?_activities (p : ActivityRecord → Bool) :
    (h.activities task).find? (h.activityHas p) =
      (h₀.activities task).find? (h₀.activityHas p) :=
  formed.forest.find?_activities_of_contents (contains_of_isTask reuses.isTask)
    reuses.carried.data (reuses.contents formed) p

theorem evicted (flags : IntentFlags) (info : ActivityInfo) :
    Start.evicted h flags info task = Start.evicted h₀ flags info task := by
  have activities := formed.forest.activities_of_contents
    (contains_of_isTask reuses.isTask) reuses.carried.data (reuses.contents formed)
  simp only [Start.evicted, findActivityIn?, activities, ← reuses.find?_activities formed]

/-- Something runs in the task, and is the top of it if nothing is cleared. -/
theorem exists_topRunningActivity? :
    ∃ k a, h.topRunningActivity? task = some k ∧ h₀.activity? k = some a ∧ a.isRunning = true := by
  have top : h.topRunningActivity? task = h₀.topRunningActivity? task :=
    reuses.find?_activities formed ActivityRecord.isRunning
  obtain ⟨k, known⟩ := Option.isSome_iff_exists.mp
    (Start.hasRunningActivity_of_reusableTask? formed reuses.chosen)
  obtain ⟨a, held, runs⟩ := exists_of_topRunningActivity? known
  exact ⟨k, a, top.trans known, held, runs⟩

end Reuses

namespace Start

/-- The activity is one that the launch clears from the task that it reuses. -/
def Lost (r : StartRequest) (h : Hierarchy) (record : ActivityRecord) (k : NodeId) : Prop :=
  ∃ task, reusableTask? r h record = some task ∧ k ∈ evicted h r.intent.flags record.info task

theorem not_lost_of_idle (idle : reusableTask? r h record = none) : ¬ Lost r h record k := by
  rintro ⟨task, chosen, _⟩
  rw [idle] at chosen
  contradiction

end Start

section
variable (chosen : l.Of r h₀) (applied : r.intent.flags = given.effectiveFlags h₀ record.info)
  (formed : h₀.WellFormed)
include chosen applied formed

/-- What the launch evicts from the task that it reuses is gone, and nothing else. -/
theorem Reuses.cleared_evicted (reuses : Reuses r h₀ record l task h)
    (arrived : (Start.arrive h l record task).1 = h') :
    Cleared (Start.evicted h₀ r.intent.flags record.info task) h h' := by
  obtain ⟨layout, display, _, rfl⟩ := chosen
  have named := Start.has_newTask_of_reusableTask? applied rfl reuses.chosen
  rw [← reuses.evicted formed, ← arrived, Start.arrive_eq_foldl_evicted named]
  exact (reuses.wellFormed formed).forest.cleared_of_isActivity
    fun j => Start.isActivity_of_mem_evicted

theorem Reuses.isActivity_iff (reuses : Reuses r h₀ record l task h)
    (arrived : (Start.arrive h l record task).1 = h') :
    h'.isActivity k = true ↔ h₀.isActivity k = true ∧ ¬ Start.Lost r h₀ record k := by
  have lost : Start.Lost r h₀ record k ↔
      k ∈ Start.evicted h₀ r.intent.flags record.info task := by
    rw [Start.Lost, reuses.chosen]
    simp
  have cleared := reuses.cleared_evicted chosen applied formed arrived
  rw [lost, ← reuses.carried.isActivity, isActivity, activity?, cleared.data?]
  by_cases gone : k ∈ Start.evicted h₀ r.intent.flags record.info task
  · simp [gone]
  · simp [gone, isActivity, activity?]

theorem Lodging.isActivity_iff (lodging : Lodging r h₀ record l place h) :
    h.isActivity k = true ↔ h₀.isActivity k = true ∧ ¬ Start.Lost r h₀ record k := by
  cases lodging with
  | reused reuses arrived =>
    exact reuses.isActivity_iff chosen applied formed (congrArg Prod.fst arrived)
  | existing idle => exact (and_iff_left (Start.not_lost_of_idle idle)).symm
  | made idle _ rooting made layout =>
    rw [(Start.WithRoot.carried_new made rooting.withRoot layout).isActivity]
    exact (and_iff_left (Start.not_lost_of_idle idle)).symm

end

end WindowHost
