import WindowHost.Proofs.Run.Delivery
import WindowHost.Proofs.Run.Entries
import WindowHost.Proofs.Start.Clearance

/-! Every start is accounted for once, wherever it ends. All ends come down to one report, which
reads what the ways there have left in the starter: the activity that the start ends at, and whether
its task was on screen before anything became of it. -/
namespace WindowHost.Start
open Hierarchy
variable {w w' : World} {env : Environment} {host : Host} {caller : Caller} {s t : Starter}
  {given r : StartRequest} {info : ActivityInfo} {result : StartResult} {h h' h₀ : Hierarchy}
  {record : ActivityRecord} {out : Option NodeId} {goal k task : NodeId} {l : Launch}

/-- Something of the task is on screen: an activity anywhere in it is wanted there, and is neither
finishing nor torn down. -/
def OnScreen (h : Hierarchy) (task : NodeId) : Prop :=
  ∃ k a, h.activity? k = some a ∧ Inside h k task ∧ a.finishing = false ∧
    a.state ≠ .destroyed ∧ a.visibleRequested = true

theorem hasVisibleActivity_iff (forest : Forest h) (live : h.isTask task = true) :
    hasVisibleActivity h task = true ↔ OnScreen h task := by
  have wanted : ∀ a : ActivityRecord, (a.isRunning && a.visibleRequested) = true ↔
      a.finishing = false ∧ a.state ≠ .destroyed ∧ a.visibleRequested = true := by
    intro a
    simp [ActivityRecord.isRunning, and_assoc]
  rw [hasVisibleActivity, List.any_eq_true]
  constructor
  · rintro ⟨k, member, shown⟩
    obtain ⟨a, held, shown⟩ := exists_of_activityHas shown
    exact ⟨k, a, held, ((forest.mem_activities_iff live).mp member).2, (wanted a).mp shown⟩
  · rintro ⟨k, a, held, inside, shown⟩
    refine ⟨k, (forest.mem_activities_iff live).mpr ⟨isActivity_of_activity? held, inside⟩, ?_⟩
    exact (activityHas_of_activity? held _).trans ((wanted a).mpr shown)

theorem not_settles_fail (s : Flight) : ¬ Settles s.fail.2 := by
  rintro (same | same) <;> contradiction

theorem not_settles_addTo (s : Flight) (parent : NodeId) :
    ¬ Settles (addTo env s l record parent).2 := by
  unfold addTo
  split
  · exact not_settles_fail s
  · rintro (same | same) <;> contradiction

theorem not_settles_startInNewTask {chain : List Modifier} {request : LayoutRequest}
    {layout : LaunchParams} (s : Flight) :
    ¬ Settles (startInNewTask env chain s l r record request layout).2 := by
  unfold startInNewTask
  split
  · exact not_settles_fail s
  dsimp only
  split
  · exact not_settles_fail _
  split
  · rintro (same | same) <;> contradiction
  · exact not_settles_addTo _ _

/-- What the task shows is looked up before anything becomes of it. -/
theorem taskWasVisible_recycle (s : Flight) (task : NodeId) :
    Settles (recycle env s l record task).2 →
      (recycle env s l record task).1.taskWasVisible =
        some (hasVisibleActivity s.hierarchy task) := by
  unfold recycle
  split
  · exact fun settles => absurd settles (not_settles_fail s)
  let seen : Flight := { s with taskWasVisible := some (hasVisibleActivity s.hierarchy task) }
  dsimp only
  split
  · exact fun settles => absurd settles (not_settles_fail _)
  rename_i t moved brought
  have kept : t.taskWasVisible = seen.taskWasVisible :=
    (sameNotes_bringForward (s := seen) brought).taskWasVisible
  cases arrive t.hierarchy l record task with | mk h arrival => ?_
  cases arrival with
  | add =>
    dsimp only
    split
    · exact fun settles => absurd settles (not_settles_fail _)
    · rintro (same | same) <;> contradiction
  | deliver k => exact fun _ => kept
  | keep => exact fun _ => kept

/-- The task that was looked at is the reused one, or else the one around the activity that the
intent has gone to. -/
theorem taskWasVisible_place (host : Host) (r : StartRequest) (caller : Caller)
    (info : ActivityInfo) (w : World) :
    Settles (place host r caller info w).2 →
      (place host r caller info w).1.taskWasVisible =
        ((reusableTask? r w.hierarchy (r.newRecord caller.uid info)).or
          ((place host r caller info w).1.outActivity.bind w.hierarchy.taskAround?)).map
            (hasVisibleActivity w.hierarchy) := by
  unfold place
  dsimp only
  split
  · rintro (same | same) <;> contradiction
  split
  · rename_i task reusable
    rw [reusable]
    exact taskWasVisible_recycle _ task
  rename_i idle
  rw [idle, Option.none_or]
  split
  · exact fun _ => rfl
  split
  · exact fun settles => absurd settles (not_settles_addTo _ _)
  · exact fun settles => absurd settles (not_settles_startInNewTask _)

/-- The activity that was there was found as the top of a task, which is the reused one if there is
one, and nothing has moved since. -/
theorem exists_top_of_landing (formed : h₀.WellFormed)
    (landing : Landing env r h₀ record goal w w' out result) (settles : Settles result) :
    ∃ k task h, out = some k ∧ h.WellFormed ∧ h.isTask task = true ∧
      h.topRunningActivity? task = some k ∧ SameFrame h w'.hierarchy ∧
        (reusableTask? r h₀ record = some task ∨ reusableTask? r h₀ record = none ∧ h = h₀) := by
  cases landing with
  | failed _ fails => rcases settles with rfl | rfl <;> contradiction
  | added => rcases settles with same | same <;> contradiction
  | @delivered l h k moved _ live _ arrived reuses =>
    have standing := (reuses.cleared formed (congrArg Prod.fst arrived)).1
    have top := topRunningActivity?_arrive (reuses.wellFormed formed).forest live arrived
    exact ⟨k, goal, h, rfl, standing.formed, standing.task, top,
      (sameFrame_deliver { w with hierarchy := h } ..).trans (sameFrame_propagate ..),
      .inl reuses.chosen⟩
  | @kept l h moved _ live _ arrived reuses =>
    obtain rfl := arrive_keep arrived
    obtain ⟨k, _, top, _⟩ := reuses.exists_topRunningActivity? formed
    exact ⟨k, goal, w.hierarchy, top, reuses.wellFormed formed, live, top,
      (sameFrame_leaveCookie w ..).trans (sameFrame_propagate ..), .inl reuses.chosen⟩
  | @topped l _ found same idle =>
    obtain ⟨root, focused, top⟩ := exists_root_of_deliverableTop? found
    have listed := mem_rootTasks_of_focusedRootTask? focused
    exact ⟨goal, root, w.hierarchy, rfl, same ▸ formed, (mem_rootTasks.mp listed).1, top,
      (sameFrame_deliver w ..).trans (sameFrame_propagate ..), .inr ⟨idle, same⟩⟩

/-- It has a task around it, before the start, unless a task is reused, and afterwards. -/
theorem exists_taskAround?_of_landing (formed : h₀.WellFormed)
    (landing : Landing env r h₀ record goal w w' out result) (settles : Settles result) :
    (∃ task, (reusableTask? r h₀ record).or (out.bind h₀.taskAround?) = some task ∧
        h₀.isTask task = true) ∧
      ∃ task, out.bind w'.hierarchy.taskAround? = some task := by
  obtain ⟨k, task, h, rfl, formed, live, top, frame, before⟩ :=
    exists_top_of_landing formed landing settles
  obtain ⟨leaf, inside⟩ :=
    (formed.forest.mem_activities_iff live).mp (List.mem_of_find?_eq_some top)
  obtain ⟨around, known⟩ := formed.forest.exists_taskAround?_of_inside leaf live inside
  refine ⟨?_, around, (frame.taskAround? formed.forest leaf).trans known⟩
  rcases before with chosen | ⟨idle, rfl⟩
  · exact ⟨task, by rw [chosen, Option.some_or], isTask_of_reusableTask? chosen⟩
  · exact ⟨around, by rw [idle, Option.none_or, Option.bind_some, known],
      isTask_of_taskAround? known⟩

theorem exists_taskIdAround? (lies : out.bind h.taskAround? = some task) :
    ∃ id, taskIdAround? h out = some id := by
  obtain ⟨_, _, around⟩ := Option.bind_eq_some_iff.mp lies
  obtain ⟨t, held⟩ := Option.isSome_iff_exists.mp (isTask_of_taskAround? around)
  exact ⟨t.id, by rw [taskIdAround?, lies, Option.bind_some, held, Option.map_some]⟩

/-- The start has looked at a task before it touched it, and ends at an activity in a task. -/
structure LooksAt (given : StartRequest) (info : ActivityInfo) (h : Hierarchy)
    (ended : Starter × World × StartResult) : Prop where
  known : ended.1.request.info = some info
  exists_looked : ∃ task,
    (taskToReuse? given h info).or (ended.1.outActivity.bind h.taskAround?) = some task ∧
      ∃ shown, ended.1.taskWasVisible = some shown ∧ (shown = true ↔ OnScreen h task)
  exists_around : ∃ task, ended.1.outActivity.bind ended.2.1.hierarchy.taskAround? = some task

theorem looksAt_decideAndPlace (formed : w.hierarchy.WellFormed)
    (known : s.request.info = some info) :
    Settles (decideAndPlace host caller info s w).2.2 →
      LooksAt s.request info w.hierarchy (decideAndPlace host caller info s w) := by
  unfold decideAndPlace
  dsimp only
  generalize same : (if host.options.logsStarts = true then w.emit _ else w) = logged
  have still : logged.hierarchy = w.hierarchy := by
    rw [← same]
    split <;> rfl
  split
  · rintro (same | same) <;> contradiction
  rw [still]
  intro settles
  let flags := s.request.effectiveFlags w.hierarchy info
  let r : StartRequest := { s.request with intent := { s.request.intent with flags := flags } }
  have admitted : Admitted host s.request r info w.hierarchy :=
    ⟨⟨rfl, rfl, rfl, rfl, rfl⟩, known, .inl known, rfl⟩
  have reused := admitted.taskToReuse? caller.uid
  have seen := taskWasVisible_place host r caller info logged settles
  obtain ⟨_, _, _, landing, _⟩ := (lands_place host r caller info logged).exists_landing
  rw [still] at seen landing
  obtain ⟨⟨task, looked, live⟩, around⟩ := exists_taskAround?_of_landing formed landing settles
  rw [looked] at seen
  rw [reused] at looked
  exact ⟨known, ⟨task, looked, _, seen, hasVisibleActivity_iff formed.forest live⟩, around⟩

theorem Filled.taskToReuse? (filled : Filled given r) (known : r.info = some info)
    (may : MayLaunch host given info) (h : Hierarchy) :
    Start.taskToReuse? r h info = Start.taskToReuse? given h info := by
  let flags := r.effectiveFlags h info
  have admitted : Admitted host r { r with intent := { r.intent with flags := flags } } info h :=
    ⟨⟨rfl, rfl, rfl, rfl, rfl⟩, known, .inl known, rfl⟩
  exact (admitted.taskToReuse? info.uid).symm.trans
    ((filled.admitted known may admitted).taskToReuse? info.uid)

theorem looksAt_admission (formed : w.hierarchy.WellFormed) :
    Settles (admission host caller s w).2.2 →
      ∃ info, LooksAt s.request info w.hierarchy (admission host caller s w) := by
  have checked : Asked w (checkPreconditions host.environment caller s.request w).2.1 :=
    asked_checkPreconditions
  obtain ⟨fails, admits⟩ := checkPreconditions_spec host caller s.request w
  unfold admission
  split <;> rename_i found <;> rw [found] at checked fails admits
  · intro settles
    rcases settles with rfl | rfl <;> exact absurd (fails _ rfl) (by decide)
  · rename_i r w' info
    obtain ⟨filled, known, may⟩ := admits _ rfl
    intro settles
    obtain ⟨named, looked, around⟩ :=
      looksAt_decideAndPlace (s := { s with request := r }) (checked.hierarchy ▸ formed) known
        settles
    rw [filled.taskToReuse? known may, checked.hierarchy] at looked
    exact ⟨info, named, looked, around⟩

/-- What a start enters, by its outcome and the places of things before and after it. -/
structure Accounted (host : Host) (given : StartRequest) (w w' : World) (s : Starter)
    (result : StartResult) (later : List Call) : Prop where
  launched : ∃ report, later.filterMap Call.launched? = [report] ∧ report.result = result ∧
    report.activity = s.outActivity ∧ report.newActivityCreated = (result == .success)
  restart : Settles result → ∃ attempt info task,
    later.filterMap Call.restart? = [attempt] ∧
      taskIdAround? w'.hierarchy s.outActivity = some attempt.task ∧
        s.request.info = some info ∧
          (taskToReuse? given w.hierarchy info).or
            (s.outActivity.bind w.hierarchy.taskAround?) = some task ∧
              (attempt.wasVisible = true ↔ OnScreen w.hierarchy task)
  noRestart : ¬ Settles result → later.filterMap Call.restart? = []
  recents : later.filterMap Call.recent? =
    if (result = .success ∨ result = .taskToFront) ∧ fromRecents host given w = false ∧
        given.wantsFreeze = false
    then (taskIdAround? w'.hierarchy s.outActivity).toList else []
  freezes : later.count .freezeRecents = if Start.freezes host given w then 1 else 0
  resets : later.count .resetRecentsFreeze =
    if result.isSuccessful then 0 else later.count .freezeRecents

theorem looksAt_run (formed : w.hierarchy.WellFormed) (host : Host) (given : StartRequest) :
    Settles (run host { request := given } w).2.2 →
      ∃ info, LooksAt given info w.hierarchy (run host { request := given } w) := by
  rw [run_eq]
  obtain ⟨_, still, kept, _⟩ := engageFreeze_spec host { request := given } w
  dsimp only at still kept ⊢
  generalize given.resolveCaller (host.environment w.calls) = caller at *
  generalize engageFreeze host.environment caller { request := given } w = frozen at *
  intro settles
  obtain ⟨info, known, looked, lies⟩ := looksAt_admission (still ▸ formed) settles
  generalize admission host caller frozen.1 frozen.2 = ended at *
  obtain ⟨s, u, result⟩ := ended
  obtain ⟨same, out, seen, nodes⟩ :=
    post_keeps s u s.outActivity result (s.outActivity.bind u.hierarchy.rootTaskOf?)
  rw [kept, still] at looked
  exact ⟨info, same.trans known, by rwa [out, seen], by rwa [out, nodes]⟩

theorem accounted_run (reached : Reachable w.hierarchy) (host : Host) (given : StartRequest) :
    let ended := run host { request := given } w
    ∃ later, ended.2.1.calls = w.calls ++ later ∧
      Accounted host given w ended.2.1 ended.1 ended.2.2 later := by
  obtain ⟨attempts, report, ⟨later, made, entries⟩, reports⟩ := enters_run host given w
  have looks := looksAt_run reached.wellFormed host given
  generalize run host { request := given } w = ended at *
  obtain ⟨s, w', result⟩ := ended
  have tasks := reports.tasks
  refine ⟨later, made, ?_, ?_, ?_, ?_, ?_, ?_⟩
  · exact ⟨report, launched?_of_entries entries, reports.ended, reports.about, reports.created⟩
  · intro settles
    obtain ⟨info, known, ⟨task, looked, shown, visible, means⟩, _, lies⟩ := looks settles
    obtain ⟨id, number⟩ := exists_taskIdAround? lies
    rw [if_pos settles, number] at tasks
    obtain ⟨attempt, single, rfl⟩ := List.map_eq_singleton_iff.mp tasks
    have told : attempt ∈ attempts := single ▸ List.mem_singleton_self attempt
    refine ⟨attempt, info, task, (restart?_of_entries entries).trans single, number, known,
      looked, ?_⟩
    rw [reports.visible attempt told _ visible]
    exact means
  · intro other
    rw [if_neg other] at tasks
    rw [restart?_of_entries entries, List.map_eq_nil_iff.mp tasks]
  · rw [recent?_of_entries entries]
    simp only [Bool.not_eq_true']
  · exact count_freezeRecents_of_entries entries
  · rw [count_freezeRecents_of_entries entries, count_resetRecentsFreeze_of_entries entries]
    cases result.isSuccessful <;> simp

/-- The first start of a request without file descriptors makes its entries once and in full, and
its starter makes none after that. -/
theorem accounted_execute (reached : Reachable w.hierarchy) (host : Host)
    (plain : given.intent.hasFileDescriptors = false) :
    ∃ s w' result later, execute host { request := given } w = (s, w', .ok result) ∧
      w'.calls = w.calls ++ later ∧ Accounted host given w w' s result later ∧
        ∀ host' v, execute host' s v = (s, v, .error .alreadyExecuted) := by
  obtain ⟨later, made, account⟩ := accounted_run reached host given
  rcases ran : run host { request := given } w with ⟨s, w', result⟩
  rw [ran] at made account
  refine ⟨{ s with progress := .done result }, w', result, later, ?_, made, ?_, fun host' v => ?_⟩
  · rw [execute_of_plain plain, ran]
  · exact ⟨account.launched, account.restart, account.noRestart, account.recents, account.freezes,
      account.resets⟩
  · exact execute_of_done (by simp) host' v

/-- Where a task is reused, the one attempt is about that task as it was before the start. -/
theorem Accounted.exists_attempt {later : List Call} {id : TaskId}
    (account : Accounted host given w w' s result later) (settles : Settles result)
    (known : s.request.info = some info)
    (reused : taskToReuse? given w.hierarchy info = some task)
    (number : taskIdAround? w'.hierarchy s.outActivity = some id) :
    ∃ attempt, later.filterMap Call.restart? = [attempt] ∧ attempt.task = id ∧
      (attempt.wasVisible = true ↔ OnScreen w.hierarchy task) := by
  obtain ⟨attempt, info', task', single, named, known', looked, seen⟩ := account.restart settles
  obtain rfl : info = info' := Option.some.inj (known.symm.trans known')
  rw [reused, Option.some_or] at looked
  obtain rfl : task = task' := Option.some.inj looked
  exact ⟨attempt, single, Option.some.inj (named.symm.trans number), seen⟩

/-- The recents application asks for the list of mailboxes and freezes the recent tasks for it. The
task of the list is on screen, and it is not once a calendar has opened in front. -/
theorem accounted_execute_of_recents :
    let recents : Host := { environment := fun _ => { isCallerRecents := fun _ => true } }
    let day : ActivityInfo := { component := ⟨"calendar", "Day"⟩, uid := ⟨10020⟩ }
    let before := blankWorld.afterActs (openInbox 0)
    let behind := before.act (.start mailHost
      { request := { intent := .ofComponent day.component, info := some day } })
    let given :=
      { mailRequest "List" 0 [.newTask] none with options := some { freezeRecents := true } }
    given.intent.hasFileDescriptors = false ∧
      (∃ s w' later attempt,
        execute recents { request := given } before = (s, w', .ok .deliveredToTop) ∧
          w'.calls = before.calls ++ later ∧ later.filterMap Call.restart? = [attempt] ∧
            attempt.task = ⟨2⟩ ∧ attempt.wasVisible = true ∧ later.filterMap Call.recent? = [] ∧
              later.count .freezeRecents = 1 ∧ later.count .resetRecentsFreeze = 0 ∧
                execute mailHost s before = (s, before, .error .alreadyExecuted)) ∧
      ∃ s w' later attempt,
        execute recents { request := given } behind = (s, w', .ok .taskToFront) ∧
          w'.calls = behind.calls ++ later ∧ later.filterMap Call.restart? = [attempt] ∧
            attempt.task = ⟨2⟩ ∧ attempt.wasVisible = false := by
  intro recents day before behind given
  have steps : Steps true blankWorld before :=
    steps_afterActs (openInbox 0) (fun _ _ _ => rfl) blankWorld
  have reached : Reachable before.hierarchy := steps.reached reachable_blankWorld
  have reached' : Reachable behind.hierarchy :=
    Steps.reached (steps_act before fun _ => rfl : Steps true before behind) reached
  have plain : given.intent.hasFileDescriptors = false := by decide +kernel
  obtain ⟨info, known⟩ : ∃ info, given.info = some info := ⟨_, rfl⟩
  have reused : taskToReuse? given before.hierarchy info = some ⟨4⟩ ∧
      taskToReuse? given behind.hierarchy info = some ⟨4⟩ := by
    obtain rfl := Option.some.inj known
    decide +kernel
  refine ⟨plain, ?_, ?_⟩
  · have ended : (execute recents { request := given } before).2.2 = .ok .deliveredToTop := by
      decide +kernel
    have number : taskIdAround? (execute recents { request := given } before).2.1.hierarchy
        (execute recents { request := given } before).1.outActivity = some ⟨2⟩ := by
      decide +kernel
    have launched : (execute recents { request := given } before).1.request.info = given.info := by
      decide +kernel
    have shown : OnScreen before.hierarchy ⟨4⟩ :=
      (hasVisibleActivity_iff reached.wellFormed.forest (by decide +kernel)).mp (by decide +kernel)
    obtain ⟨s, w', result, later, ran, made, account, done⟩ :=
      accounted_execute reached recents plain
    rw [ran] at ended number launched
    obtain rfl : result = .deliveredToTop := Except.ok.inj ended
    obtain ⟨attempt, single, named, seen⟩ :=
      account.exists_attempt (.inr rfl) (launched.trans known) reused.1 number
    refine ⟨s, w', later, attempt, ran, made, single, named, seen.mpr shown, account.recents, ?_,
      ?_, done mailHost before⟩
    · exact account.freezes.trans (by decide +kernel)
    · rw [account.resets]
      rfl
  · have ended : (execute recents { request := given } behind).2.2 = .ok .taskToFront := by
      decide +kernel
    have number : taskIdAround? (execute recents { request := given } behind).2.1.hierarchy
        (execute recents { request := given } behind).1.outActivity = some ⟨2⟩ := by
      decide +kernel
    have launched : (execute recents { request := given } behind).1.request.info = given.info := by
      decide +kernel
    have hidden : ¬ OnScreen behind.hierarchy ⟨4⟩ := by
      rw [← hasVisibleActivity_iff reached'.wellFormed.forest (by decide +kernel)]
      decide +kernel
    obtain ⟨s, w', result, later, ran, made, account, _⟩ :=
      accounted_execute reached' recents plain
    rw [ran] at ended number launched
    obtain rfl : result = .taskToFront := Except.ok.inj ended
    obtain ⟨attempt, single, named, seen⟩ :=
      account.exists_attempt (.inl rfl) (launched.trans known) reused.2 number
    exact ⟨s, w', later, attempt, ran, made, single, named,
      Bool.eq_false_iff.mpr fun seen' => hidden (seen.mp seen')⟩

end WindowHost.Start
