import WindowHost.Proofs.Timers.FreezeTimer

/-! The order of the recent tasks. The list has no task twice and stays within its capacity, a task
that is added comes to the front, the others keep their order, and a frozen list moves no task that
it holds. -/
namespace WindowHost
namespace RecentTasks
variable {l : RecentTasks} {task a b : TaskId}

/-- A list as it is between two calls. -/
structure Orderly (l : RecentTasks) : Prop where
  roomy : 0 < l.capacity
  nodup : l.tasks.Nodup
  bounded : l.tasks.length ≤ l.capacity

/-- What the addition of a task makes of a list of at most `limit` tasks. -/
structure Takes (limit : ℕ) (l : RecentTasks) (task : TaskId) (after : RecentTasks) : Prop where
  held : task ∈ after.tasks
  stays : l.frozen = true → task ∈ l.tasks → after = l
  front : ¬ (l.frozen = true ∧ task ∈ l.tasks) → after.tasks.head? = some task
  /-- The others keep their order, and only the last of them are dropped, beyond the limit. -/
  others : after.tasks.filter (· ≠ task) = (l.tasks.filter (· ≠ task)).take (limit - 1)

theorem add_of_stays (frozen : l.frozen = true) (held : task ∈ l.tasks) : l.add task = l := by
  simp [add, frozen, held]

theorem tasks_add_of_moves (orderly : l.Orderly) (moves : ¬ (l.frozen = true ∧ task ∈ l.tasks)) :
    (l.add task).tasks = task :: (l.tasks.filter (· ≠ task)).take (l.capacity - 1) := by
  obtain ⟨rest, room⟩ : ∃ rest, l.capacity = rest + 1 :=
    Nat.exists_eq_add_of_le' orderly.roomy
  have erased : l.tasks.erase task = l.tasks.filter (· ≠ task) := by
    rw [orderly.nodup.erase_eq_filter]
    exact List.filter_congr fun other _ => by simp [bne, beq_eq_decide]
  simp [add, moves, erased, room]

theorem Orderly.length_others_lt (orderly : l.Orderly) (held : task ∈ l.tasks) :
    (l.tasks.filter (· ≠ task)).length < l.capacity := by
  refine Nat.lt_of_lt_of_le ?_ orderly.bounded
  exact List.length_filter_lt_length_iff_exists.mpr ⟨task, held, by simp⟩

theorem Orderly.takes (orderly : l.Orderly) (task : TaskId) :
    l.Takes l.capacity task (l.add task) := by
  by_cases moves : l.frozen = true ∧ task ∈ l.tasks
  · rw [add_of_stays moves.1 moves.2]
    refine ⟨moves.2, fun _ _ => rfl, fun other => absurd moves other, ?_⟩
    rw [List.take_of_length_le]
    exact Nat.le_sub_one_of_lt (orderly.length_others_lt moves.2)
  · have tasks := tasks_add_of_moves orderly moves
    refine ⟨?_, fun frozen held => absurd ⟨frozen, held⟩ moves, fun _ => ?_, ?_⟩
    · rw [tasks]
      exact List.mem_cons_self
    · rw [tasks, List.head?_cons]
    · rw [tasks, List.filter_cons_of_neg (by simp), List.filter_eq_self]
      intro other later
      exact (List.mem_filter.mp (List.mem_of_mem_take later)).2

theorem Orderly.add (orderly : l.Orderly) (task : TaskId) : (l.add task).Orderly := by
  have room := orderly.roomy
  by_cases moves : l.frozen = true ∧ task ∈ l.tasks
  · rwa [add_of_stays moves.1 moves.2]
  · have tasks := tasks_add_of_moves orderly moves
    have capacity : (l.add task).capacity = l.capacity := by
      obtain ⟨_, same⟩ := exists_tasks_of_add l task
      rw [same]
    refine ⟨by rwa [capacity], ?_, ?_⟩
    · rw [tasks, List.nodup_cons]
      constructor
      · intro again
        simpa using (List.mem_filter.mp (List.mem_of_mem_take again)).2
      · exact (orderly.nodup.filter _).sublist (List.take_sublist ..)
    · rw [tasks, capacity, List.length_cons, List.length_take]
      omega

theorem tasks_serve (l : RecentTasks) {call : RecentsCall} (other : ∀ task, call ≠ .add task) :
    (l.serve call).tasks = l.tasks := by
  cases call with
  | add task => exact absurd rfl (other task)
  | freeze => rfl
  | reset => rfl
  | advance time => rw [serve, advance, foldl_fire]

theorem capacity_serve (l : RecentTasks) (call : RecentsCall) :
    (l.serve call).capacity = l.capacity := by
  cases call with
  | add task =>
    obtain ⟨_, same⟩ := exists_tasks_of_add l task
    rw [serve, same]
  | freeze => rfl
  | reset => rfl
  | advance time => rw [serve, advance, foldl_fire]

theorem Orderly.serve (orderly : l.Orderly) (call : RecentsCall) : (l.serve call).Orderly := by
  by_cases adds : ∃ task, call = .add task
  · obtain ⟨task, rfl⟩ := adds
    exact orderly.add task
  · have tasks := tasks_serve l fun task same => adds ⟨task, same⟩
    have capacity := capacity_serve l call
    refine ⟨capacity ▸ orderly.roomy, tasks ▸ orderly.nodup, ?_⟩
    rw [tasks, capacity]
    exact orderly.bounded

/-- `a` is more recent than `b`. -/
def Ahead (l : RecentTasks) (a b : TaskId) : Prop := [a, b].Sublist l.tasks

instance : Decidable (l.Ahead a b) := inferInstanceAs (Decidable ([a, b].Sublist l.tasks))

/-- In a list without repeats, what a prefix holds is in the same order in the whole list. -/
theorem sublist_take_iff {tasks : List TaskId} {n : ℕ} (nodup : tasks.Nodup)
    (stays : b ∈ tasks.take n) : [a, b].Sublist (tasks.take n) ↔ [a, b].Sublist tasks := by
  refine ⟨fun ahead => ahead.trans (List.take_sublist ..), fun ahead => ?_⟩
  have gone : b ∉ tasks.drop n := by
    rw [← List.take_append_drop n tasks, List.nodup_append'] at nodup
    exact nodup.2.2 stays
  rw [← List.take_append_drop n tasks, List.sublist_append_iff] at ahead
  obtain ⟨front, back, split, early, late⟩ := ahead
  cases back using List.reverseRecOn with
  | nil => simpa [split] using early
  | append_singleton back last =>
    rw [← List.append_assoc] at split
    obtain rfl : b = last := by
      have := congrArg List.getLast? split
      simpa using this
    exact absurd (late.subset (by simp)) gone

theorem Orderly.ahead_serve (orderly : l.Orderly) (frozen : l.frozen = true) (call : RecentsCall)
    (before : a ∈ l.tasks ∧ b ∈ l.tasks) (after : b ∈ (l.serve call).tasks) :
    (l.serve call).Ahead a b ↔ l.Ahead a b := by
  by_cases adds : ∃ task, call = .add task
  · obtain ⟨task, rfl⟩ := adds
    rw [RecentTasks.serve] at after ⊢
    by_cases held : task ∈ l.tasks
    · rw [add_of_stays frozen held]
    · have absent : l.tasks.filter (· ≠ task) = l.tasks := by
        rw [List.filter_eq_self]
        intro other member
        simpa using ne_of_mem_of_not_mem member held
      have tasks := tasks_add_of_moves orderly (fun both => held both.2)
      rw [absent] at tasks
      rw [tasks, List.mem_cons] at after
      have kept := after.resolve_left (ne_of_mem_of_not_mem before.2 held)
      rw [Ahead, Ahead, tasks, List.sublist_cons_iff, ← sublist_take_iff orderly.nodup kept]
      constructor
      · rintro (ahead | ⟨rest, same, -⟩)
        · exact ahead
        · obtain ⟨rfl, -⟩ := List.cons.inj same
          exact absurd before.1 held
      · exact .inl
  · rw [Ahead, Ahead, tasks_serve l fun task same => adds ⟨task, same⟩]

theorem ahead_foldl_serve {calls : List RecentsCall} (orderly : l.Orderly)
    (stay : ∀ early, early <+: calls → (early.foldl serve l).frozen = true ∧
      a ∈ (early.foldl serve l).tasks ∧ b ∈ (early.foldl serve l).tasks) :
    (calls.foldl serve l).Ahead a b ↔ l.Ahead a b := by
  induction calls generalizing l with
  | nil => rfl
  | cons call calls ih =>
    obtain ⟨frozen, before⟩ := stay [] List.nil_prefix
    obtain ⟨-, -, after⟩ := stay [call] ⟨calls, rfl⟩
    rw [List.foldl_cons, ih (orderly.serve call), orderly.ahead_serve frozen call before after]
    intro early shorter
    exact stay (call :: early) (List.cons_prefix_cons.mpr ⟨rfl, shorter⟩)

theorem orderly_create (maxTasks timeout : ℕ) : (create maxTasks timeout).Orderly where
  roomy := by simp [create]
  nodup := List.nodup_nil
  bounded := Nat.zero_le _

theorem orderly_ofCalls (maxTasks timeout : ℕ) (calls : List RecentsCall) :
    (ofCalls maxTasks timeout calls).Orderly ∧
      (ofCalls maxTasks timeout calls).capacity = max 1 maxTasks := by
  induction calls using List.reverseRecOn with
  | nil => exact ⟨orderly_create maxTasks timeout, Nat.max_comm ..⟩
  | append_singleton calls call ih =>
    rw [ofCalls, List.foldl_concat, capacity_serve]
    exact ⟨ih.1.serve call, ih.2⟩

/-- The recent tasks are a bounded order without repeats, which an addition changes only at the
front and beyond the limit, and a freeze keeps the order of those that stay. -/
theorem order_ofCalls (maxTasks timeout : ℕ) (calls : List RecentsCall) :
    let l := ofCalls maxTasks timeout calls
    l.tasks.Nodup ∧ l.tasks.length ≤ max 1 maxTasks ∧
      (∀ task, l.Takes (max 1 maxTasks) task (l.serve (.add task))) ∧
      (∀ call, (∀ task, call ≠ .add task) → (l.serve call).tasks = l.tasks) ∧
      ∀ more a b,
        (∀ early, early <+: more → (ofCalls maxTasks timeout (calls ++ early)).frozen = true ∧
          a ∈ (ofCalls maxTasks timeout (calls ++ early)).tasks ∧
            b ∈ (ofCalls maxTasks timeout (calls ++ early)).tasks) →
        ((ofCalls maxTasks timeout (calls ++ more)).Ahead a b ↔ l.Ahead a b) := by
  intro l
  obtain ⟨orderly, capacity⟩ := orderly_ofCalls maxTasks timeout calls
  refine ⟨orderly.nodup, capacity ▸ orderly.bounded, fun task => ?_, fun call => tasks_serve l, ?_⟩
  · rw [← capacity]
    exact orderly.takes task
  · intro more a b stay
    simp only [ofCalls, List.foldl_append] at stay ⊢
    exact ahead_foldl_serve orderly stay

/-- In a frozen list, neither a use of the older task nor a new task changes the order. -/
theorem ahead_of_frozen_uses :
    (ofCalls 3 100 [.add ⟨1⟩, .add ⟨2⟩, .freeze, .add ⟨1⟩, .add ⟨3⟩]).Ahead ⟨2⟩ ⟨1⟩ := by
  obtain ⟨-, -, -, -, kept⟩ := order_ofCalls 3 100 [.add ⟨1⟩, .add ⟨2⟩, .freeze]
  refine (kept [.add ⟨1⟩, .add ⟨3⟩] ⟨2⟩ ⟨1⟩ fun early shorter => ?_).mpr (by decide +kernel)
  rw [← List.mem_inits] at shorter
  revert early
  decide +kernel

/-- With room for two tasks, a frozen list that takes a third one in drops the last. -/
example : (ofCalls 2 100 [.add ⟨1⟩, .add ⟨2⟩, .freeze, .add ⟨1⟩, .add ⟨3⟩]).tasks =
    [⟨3⟩, ⟨2⟩] := by decide +kernel

end RecentTasks
end WindowHost
