import WindowHost.Proofs.Hierarchy.Homes

/-! What the searches for a task or an activity to reuse find. They look into every root task on a
display and into nothing else, so what they answer is on a display, and a running instance that is
on a display is not missed. -/
namespace WindowHost.Hierarchy
variable {h : Hierarchy} {j k root task : NodeId} {c : ComponentName} {affinity : String}
  {user : UserId} {a : ActivityRecord}

theorem mem_allRootTasks :
    root ∈ h.allRootTasks ↔ ∃ display ∈ h.displays, root ∈ h.rootTasks display := by
  simp only [allRootTasks, List.mem_flatMap, List.mem_reverse]

theorem mem_ids_of_mem_leavesOf (L : Layers) (member : k ∈ h.leavesOf L) : k ∈ L.ids := by
  induction L with
  | nil => contradiction
  | node i inside below inner rest =>
    rw [leavesOf] at member
    rw [Layers.ids]
    rcases List.mem_append.mp member with here | lower
    · split at here
      · split at here
        · exact List.mem_singleton.mp here ▸ List.mem_cons_self
        · rename_i leaves _ _
          exact List.mem_cons_of_mem _ (List.mem_append_left _ (inner here))
      · contradiction
    · exact List.mem_cons_of_mem _ (List.mem_append_right _ (rest lower))

theorem exists_of_findActivity? (found : h.findActivity? c user = some j) :
    ∃ a, h.activity? j = some a ∧ a.isRunning = true ∧ a.component = c ∧ a.userId = user := by
  obtain ⟨a, held, fits⟩ := exists_of_activityHas (List.find?_some found)
  rw [Bool.and_eq_true, Bool.and_eq_true, beq_iff_eq, beq_iff_eq] at fits
  exact ⟨a, held, fits.1.1, fits.2, fits.1.2⟩

/-- The tasks of a user that a launch may reuse: leaf tasks with a running activity, outside
pinned root tasks. -/
def reusableTasks (h : Hierarchy) (user : UserId) : List NodeId :=
  ((h.allRootTasks.filter fun root => h.mode root != .pinned).flatMap h.leafTasks).filter fun k =>
    (h.task? k).any (·.userId == user) && h.hasRunningActivity k

/-- Where a search stands that was left with `kept` before some tasks: it has ended at the first of
them that wins, or goes on with `kept`, or else with the first of them that fits. -/
def settled (wins fits : NodeId → Bool) (kept : Option NodeId) (tasks : List NodeId) :
    Except NodeId (Option NodeId) :=
  match tasks.find? wins with
  | some task => .error task
  | none => .ok (kept.or (tasks.find? fits))

theorem settled_cons (wins fits : NodeId → Bool) (kept : Option NodeId) (task : NodeId)
    (tasks : List NodeId) : settled wins fits kept (task :: tasks) =
      settled wins fits kept [task] >>= (settled wins fits · tasks) := by
  unfold settled
  cases won : wins task with
  | true => simp [won, bind, Except.bind]
  | false =>
    cases kept <;> cases fit : fits task <;> simp [won, fit, bind, Except.bind]

theorem foldlM_settled (wins fits : NodeId → Bool) (tasks : List NodeId) (kept : Option NodeId) :
    tasks.foldlM (fun kept task => settled wins fits kept [task]) kept =
      settled wins fits kept tasks := by
  induction tasks generalizing kept with
  | nil => exact congrArg Except.ok (Option.or_none ..).symm
  | cons task tasks ih =>
    rw [List.foldlM_cons, settled_cons wins fits kept task tasks]
    exact bind_congr ih

theorem foldlM_flatMap {α β σ ε : Type} (f : α → List β) (g : σ → β → Except ε σ) (xs : List α)
    (s : σ) : (xs.flatMap f).foldlM g s = xs.foldlM (fun s x => (f x).foldlM g s) s := by
  induction xs generalizing s with
  | nil => rfl
  | cons x xs ih =>
    rw [List.flatMap_cons, List.foldlM_append, List.foldlM_cons]
    exact bind_congr ih

theorem weighTask_eq (h : Hierarchy) (c : ComponentName) (affinity : String) (user : UserId)
    (kept : Option NodeId) (task : NodeId) : h.weighTask c affinity user kept task =
      if (h.task? task).any (·.userId == user) && h.hasRunningActivity task then
        settled (fun k => (h.task? k).any (·.rootComponent == some c))
          (fun k => (h.task? k).any (·.affinity == some affinity)) kept [task]
      else pure kept := by
  unfold weighTask settled
  cases held : h.task? task with
  | none => rfl
  | some info =>
    by_cases reusable : info.userId = user ∧ h.hasRunningActivity task = true
    · by_cases made : info.rootComponent = some c
      · simp [held, reusable, made]
      · cases kept <;> by_cases akin : info.affinity = some affinity <;>
          simp [held, reusable, made, akin]
    · have skipped : info.userId ≠ user ∨ ¬ h.hasRunningActivity task = true :=
        not_and_or.mp reusable
      simp only [if_pos skipped, Option.any_some, Bool.and_eq_true, beq_iff_eq, if_neg reusable]
      rfl

/-- The search is one for a task made by the component and, after it, one for the affinity. -/
theorem findTask?_eq_or (h : Hierarchy) (c : ComponentName) (affinity : String) (user : UserId) :
    h.findTask? c affinity user =
      ((h.reusableTasks user).find? fun k => (h.task? k).any (·.rootComponent == some c)).or
        ((h.reusableTasks user).find? fun k => (h.task? k).any (·.affinity == some affinity)) := by
  have pass : h.displays.reverse.foldlM (fun akin display =>
      (h.rootTasks display).foldlM (fun akin root =>
        if h.mode root = .pinned then .ok akin
        else (h.leafTasks root).foldlM (h.weighTask c affinity user) akin) akin) none =
      settled (fun k => (h.task? k).any (·.rootComponent == some c))
        (fun k => (h.task? k).any (·.affinity == some affinity)) none (h.reusableTasks user) := by
    rw [← foldlM_settled]
    simp only [reusableTasks, allRootTasks, List.foldlM_filter, foldlM_flatMap, ← weighTask_eq,
      bne_iff_ne, ne_eq, ite_not]
    rfl
  unfold findTask?
  rw [pass, settled]
  cases (h.reusableTasks user).find? fun k => (h.task? k).any (·.rootComponent == some c) with
  | some task => rfl
  | none => rfl

theorem mem_reusableTasks_of_findTask? (found : h.findTask? c affinity user = some task) :
    task ∈ h.reusableTasks user := by
  rw [findTask?_eq_or] at found
  rcases Option.or_eq_some_iff.mp found with first | ⟨_, second⟩
  · exact List.mem_of_find?_eq_some first
  · exact List.mem_of_find?_eq_some second

theorem exists_of_findTask? (found : h.findTask? c affinity user = some task) :
    ∃ i, h.task? task = some i ∧ i.userId = user := by
  have fits := (List.mem_filter.mp (mem_reusableTasks_of_findTask? found)).2
  obtain ⟨i, held, owner⟩ := (Option.any_eq_true ..).mp (Bool.and_eq_true_iff.mp fits).1
  exact ⟨i, held, beq_iff_eq.mp owner⟩

namespace WellFormed
variable (formed : h.WellFormed)
include formed

theorem isSome_displayOf?_of_mem_allRootTasks (member : root ∈ h.allRootTasks) :
    (h.displayOf? root).isSome = true := by
  obtain ⟨display, listed, member⟩ := mem_allRootTasks.mp member
  have shown := Option.isSome_iff_exists.mpr (formed.listed.mp listed)
  rw [formed.forest.displayOf?_of_inside shown (formed.forest.inside_of_mem_rootTasks member)]
  rfl

theorem isSome_displayOf?_of_mem_subtree (member : root ∈ h.allRootTasks)
    (within : k ∈ (h.subtree root).ids) : (h.displayOf? k).isSome = true := by
  have shown := formed.isSome_displayOf?_of_mem_allRootTasks member
  rcases (formed.forest.mem_ids_subtree (contains_of_mem_subtree within)).mp within
    with rfl | inside
  · exact shown
  · rwa [formed.forest.displayOf?_eq_of_inside inside]

theorem isSome_displayOf?_of_findActivity? (found : h.findActivity? c user = some j) :
    (h.displayOf? j).isSome = true := by
  obtain ⟨root, member, within⟩ := List.mem_flatMap.mp (List.mem_of_find?_eq_some found)
  exact formed.isSome_displayOf?_of_mem_subtree member (List.mem_filter.mp within).1

theorem isSome_displayOf?_of_findTask? (found : h.findTask? c affinity user = some task) :
    (h.displayOf? task).isSome = true := by
  have listed := mem_reusableTasks_of_findTask? found
  obtain ⟨root, member, leaf⟩ := List.mem_flatMap.mp (List.mem_filter.mp listed).1
  exact formed.isSome_displayOf?_of_mem_subtree (List.mem_filter.mp member).1
    (mem_ids_of_mem_leavesOf _ leaf)

theorem exists_rootTask_of_shown (held : h.activity? k = some a)
    (shown : (h.displayOf? k).isSome = true) : ∃ root ∈ h.allRootTasks, Inside h k root := by
  obtain ⟨display, placed⟩ := Option.isSome_iff_exists.mp shown
  obtain ⟨root, member, inside⟩ := formed.forest.exists_rootTask_of_activity placed held
  obtain ⟨d, known⟩ := Option.isSome_iff_exists.mp (isSome_display?_of_displayOf? placed)
  exact ⟨root, mem_allRootTasks.mpr ⟨display, formed.listed.mpr ⟨d, known⟩, member⟩, inside⟩

/-- A running activity on a display is found, or another instance above it is. -/
theorem exists_findActivity? (held : h.activity? k = some a) (runs : a.isRunning = true)
    (shown : (h.displayOf? k).isSome = true) :
    ∃ j, h.findActivity? a.component a.userId = some j := by
  obtain ⟨root, member, inside⟩ := formed.exists_rootTask_of_shown held shown
  have task : h.isTask root = true := by
    obtain ⟨_, _, listed⟩ := mem_allRootTasks.mp member
    exact (mem_rootTasks.mp listed).1
  refine Option.isSome_iff_exists.mp (List.find?_isSome.mpr ⟨k, ?_, ?_⟩)
  · exact List.mem_flatMap.mpr ⟨root, member,
      (formed.forest.mem_activities_iff task).mpr ⟨isActivity_of_activity? held, inside⟩⟩
  · simp [activityHas, held, runs]

/-- An activity on a display lives in a task. -/
theorem exists_taskAround? (held : h.activity? k = some a)
    (shown : (h.displayOf? k).isSome = true) : ∃ task, h.taskAround? k = some task := by
  obtain ⟨root, member, inside⟩ := formed.exists_rootTask_of_shown held shown
  obtain ⟨_, _, listed⟩ := mem_allRootTasks.mp member
  exact formed.forest.exists_taskAround?_of_inside (isActivity_of_activity? held)
    (mem_rootTasks.mp listed).1 inside

end WellFormed

end WindowHost.Hierarchy
