import WindowHost.Proofs.Hierarchy.Clearing
import WindowHost.Start.Placement

/-! What becomes of a reused task when a launch arrives there: activities are taken from its top,
and whoever is to get the intent is then its top running activity. -/
namespace WindowHost.Start
open Hierarchy
variable {h h' : Hierarchy} {l : Launch} {record : ActivityRecord} {task k : NodeId}

/-- Clearing a task takes some of its activities. -/
theorem exists_cleared_arrive (h : Hierarchy) (l : Launch) (record : ActivityRecord)
    (task : NodeId) : ∃ ks : List NodeId, (∀ k ∈ ks, k ∈ h.activities task) ∧
      (arrive h l record task).1 = ks.foldl Hierarchy.remove h := by
  have nothing : ∀ h' : Hierarchy, h' = h → ∃ ks : List NodeId,
      (∀ k ∈ ks, k ∈ h.activities task) ∧ h' = ks.foldl Hierarchy.remove h := by
    rintro _ rfl
    exact ⟨[], by simp, rfl⟩
  unfold arrive
  dsimp only
  split
  · exact ⟨h.activities task, fun _ => id, rfl⟩
  split
  · split
    · exact nothing h rfl
    rename_i existing found
    have above : ∀ k ∈ (h.activities task).takeWhile (· != existing), k ∈ h.activities task :=
      fun k member => List.takeWhile_subset _ member
    split
    · refine ⟨(h.activities task).takeWhile (· != existing) ++ [existing], ?_, ?_⟩
      · intro k member
        rcases List.mem_append.mp member with higher | last
        · exact above k higher
        · rw [List.mem_singleton.mp last]
          exact List.mem_of_find?_eq_some found
      · rw [List.foldl_append]
        rfl
    · exact ⟨_, above, rfl⟩
  split
  · exact nothing h rfl
  split <;> exact nothing h rfl

/-- The launch looks in the task that it reuses for an instance by the component alone. -/
def looksInside (flags : IntentFlags) (mode : LaunchMode) : Bool :=
  !(flags.has .newTask && flags.has .clearTask) && (flags.has .clearTop || mode.requiresNewTask)

/-- The intent goes to the top of the task, or to the topmost instance of its component once
everything above that is gone. -/
theorem arrive_deliver (arrived : arrive h l record task = (h', .deliver k)) :
    (h.topRunningActivity? task = some k ∧ isSameActivity h record k = true ∧ h' = h) ∨
      (h.findActivityIn? task record.component = some k ∧
        h' = ((h.activities task).takeWhile (· != k)).foldl Hierarchy.remove h ∧
          looksInside l.flags record.launchMode = true) := by
  unfold arrive at arrived
  dsimp only at arrived
  split at arrived
  · simp at arrived
  rename_i kept
  split at arrived
  · rename_i looks
    split at arrived
    · simp at arrived
    split at arrived
    · simp at arrived
    · cases arrived
      exact .inr ⟨‹_›, rfl, by rw [looksInside, Bool.eq_false_iff.mpr kept, looks]; rfl⟩
  split at arrived
  · rename_i found
    cases arrived
    obtain ⟨top, same⟩ := Option.filter_eq_some_iff.mp found
    exact .inl ⟨top, (Bool.and_eq_true_iff.mp same).2, rfl⟩
  · split at arrived <;> simp only [Prod.mk.injEq] at arrived <;> split at arrived <;>
      simp at arrived

/-- A task that is enough as it is stays as it is. -/
theorem arrive_keep (arrived : arrive h l record task = (h', .keep)) : h' = h := by
  unfold arrive at arrived
  dsimp only at arrived
  split at arrived
  · simp at arrived
  split at arrived
  · split at arrived
    · simp at arrived
    split at arrived <;> simp at arrived
  split at arrived
  · simp at arrived
  · split at arrived <;> exact (Prod.mk.inj arrived).1.symm

theorem isRunning_of_findActivityIn? {c : ComponentName}
    (found : h.findActivityIn? task c = some k) :
    h.activityHas ActivityRecord.isRunning k = true := by
  obtain ⟨a, held, runs⟩ := exists_of_activityHas (List.find?_some found)
  simp [activityHas, held, (Bool.and_eq_true_iff.mp runs).1]

/-- Whoever is to get the intent runs. -/
theorem exists_running_of_arrive (arrived : arrive h l record task = (h', .deliver k)) :
    ∃ a, h.activity? k = some a ∧ a.isRunning = true := by
  rcases arrive_deliver arrived with ⟨top, _, _⟩ | ⟨found, _⟩
  · exact exists_of_topRunningActivity? top
  · exact exists_of_activityHas (isRunning_of_findActivityIn? found)

theorem cleared_arrive (forest : Forest h) (l : Launch) (record : ActivityRecord)
    (task : NodeId) : ∃ ks : List NodeId, (∀ k ∈ ks, h.isActivity k = true) ∧
      Cleared ks h (arrive h l record task).1 := by
  obtain ⟨ks, within, cleared⟩ := exists_cleared_arrive h l record task
  have leaves : ∀ k ∈ ks, h.isActivity k = true :=
    fun k member => (List.mem_filter.mp (within k member)).2
  exact ⟨ks, leaves, cleared ▸ forest.cleared_of_isActivity leaves⟩

/-- After the clearing, the activity that is to get the intent is the top of the task. -/
theorem topRunningActivity?_arrive (forest : Forest h) (live : h.isTask task = true)
    (arrived : arrive h l record task = (h', .deliver k)) :
    h'.topRunningActivity? task = some k := by
  rcases arrive_deliver arrived with ⟨top, _, rfl⟩ | ⟨found, rfl, _⟩
  · exact top
  obtain ⟨above, rest, shown, first⟩ := List.eq_append_cons_of_mem (List.mem_of_find?_eq_some found)
  have higher : (h.activities task).takeWhile (· != k) = above := by
    have passed : ∀ j ∈ above, (j != k) = true := by
      intro j member
      rw [bne_iff_ne]
      rintro rfl
      exact first member
    rw [shown, List.takeWhile_append_of_pos passed]
    simp
  have leaves : ∀ j ∈ above, h.isActivity j = true := by
    intro j member
    have listed : j ∈ h.activities task := shown ▸ List.mem_append_left _ member
    exact (List.mem_filter.mp listed).2
  have cleared := forest.cleared_of_isActivity leaves
  have stays : task ∉ above := not_mem_of_isTask leaves live
  have left : (h.activities task).filter (· ∉ above) = k :: rest.filter (· ∉ above) := by
    rw [shown, List.filter_append, List.filter_eq_nil_iff.mpr (by simp), List.nil_append,
      List.filter_cons_of_pos (by simpa using first)]
  rw [higher, cleared.topRunningActivity? forest (forest.foldl_remove above) stays, left,
    List.find?_cons_of_pos (isRunning_of_findActivityIn? found)]

end WindowHost.Start
