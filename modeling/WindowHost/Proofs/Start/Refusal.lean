import WindowHost.Proofs.Hierarchy.Searches
import WindowHost.Proofs.Start.Rollback

/-! A start that does not go through changes nothing, wherever it is stopped: at its request, at
its preconditions, by the policy for background starts, or while it is placed. -/
namespace WindowHost.Start
open Hierarchy
variable {w : World} {host : Host} {r : StartRequest} {caller : Caller} {info : ActivityInfo}
  {s : Starter}

theorem isTask_of_reusableTask? {h : Hierarchy} {record : ActivityRecord} {task : NodeId}
    (found : reusableTask? r h record = some task) : h.isTask task = true := by
  unfold reusableTask? at found
  dsimp only at found
  split at found
  · split at found
    · obtain ⟨instance_, _, around⟩ := Option.bind_eq_some_iff.mp found
      obtain ⟨parent, _, around⟩ := Option.bind_eq_some_iff.mp around
      exact List.find?_some around
    · obtain ⟨i, held, _⟩ := exists_of_findTask? found
      rw [isTask, held, Option.isSome_some]
  · contradiction

theorem harmless_place (formed : w.hierarchy.WellFormed) :
    Harmless w (place host r caller info w) := by
  have refined : ∀ first params second params', Revertible w
      ((({ world := w } : Flight).refineLayout host.modifiers first params).1.refineLayout
        host.modifiers second params').1 := fun _ _ =>
    ((Revertible.start formed).refineLayout host.modifiers _ _).refineLayout host.modifiers
  unfold place
  dsimp only
  split
  · exact fun _ => ((Revertible.start formed).refineLayout ..).undone
  split
  · exact harmless_recycle (refined ..) (isTask_of_reusableTask? ‹_›)
  split
  · exact harmless_deliverToTop _ _
  split
  · exact harmless_addTo (refined ..) _
  · exact harmless_startInNewTask (refined ..) _ _ _

/-- The start is over and has left nothing behind. -/
structure Withdrawn (w w' : World) (s : Starter) : Prop where
  nodes : SameNodes w.hierarchy w'.hierarchy
  quiet : Quiet w w'
  unset : s.outActivity = none

/-- A start that ends without success has left nothing behind. -/
def Tidy (w : World) (outcome : Starter × World × StartResult) : Prop :=
  outcome.2.2.isSuccessful = false → Withdrawn w outcome.2.1 outcome.1

theorem Withdrawn.of_asked {w' : World} (asked : Asked w w') (unset : s.outActivity = none) :
    Withdrawn w w' s :=
  ⟨asked.hierarchy ▸ .refl _, asked.quiet, unset⟩

theorem Tidy.of_asked {w' : World} {outcome : Starter × World × StartResult} (asked : Asked w w')
    (tidy : Tidy w' outcome) : Tidy w outcome := by
  intro failed
  have withdrawn := tidy failed
  exact ⟨asked.hierarchy ▸ withdrawn.nodes, asked.quiet.trans withdrawn.quiet, withdrawn.unset⟩

theorem Tidy.post {w' : World} {result : StartResult} (tidy : Tidy w (s, w', result))
    (activity rootTask : Option NodeId) :
    Tidy w ((Start.post s w' activity result rootTask).1,
      (Start.post s w' activity result rootTask).2, result) := by
  intro failed
  have withdrawn := tidy failed
  have asked : Asked w' (Start.post s w' activity result rootTask).2 := asked_post
  have kept : (Start.post s w' activity result rootTask).1.outActivity = s.outActivity :=
    outActivity_post
  exact ⟨asked.hierarchy.symm ▸ withdrawn.nodes, withdrawn.quiet.trans asked.quiet,
    kept.trans withdrawn.unset⟩

theorem tidy_decideAndPlace (formed : w.hierarchy.WellFormed) (unset : s.outActivity = none) :
    Tidy w (decideAndPlace host caller info s w) := by
  unfold decideAndPlace
  dsimp only
  generalize same : (if host.options.logsStarts = true then w.emit _ else w) = logged
  have asked : Asked w logged := by
    rw [← same]
    split
    · exact asked_emit w rfl
    · exact .refl w
  split
  · exact fun _ => .of_asked asked unset
  · refine .of_asked asked fun failed => ?_
    have undone := harmless_place (asked.hierarchy ▸ formed) failed
    exact ⟨undone.nodes, undone.quiet, undone.unset⟩

/-- A start between the freeze of the recent tasks and its report. -/
def admission (host : Host) (caller : Caller) (s : Starter) (w : World) :
    Starter × World × StartResult :=
  match checkPreconditions host.environment caller s.request w with
  | (r, w, .error result) => ({ s with request := r }, w, result)
  | (r, w, .ok info) => decideAndPlace host caller info { s with request := r } w

/-- A start freezes the recent tasks, is admitted and placed or not, and is reported. -/
theorem run_eq (host : Host) (s : Starter) (w : World) :
    run host s w =
      let caller := s.request.resolveCaller (host.environment w.calls)
      let frozen := engageFreeze host.environment caller s w
      let ended := admission host caller frozen.1 frozen.2
      let settled := Start.post ended.1 ended.2.1 ended.1.outActivity ended.2.2
        (ended.1.outActivity.bind ended.2.1.hierarchy.rootTaskOf?)
      (settled.1, settled.2, ended.2.2) := by
  rcases checked : checkPreconditions host.environment
      (s.request.resolveCaller (host.environment w.calls))
      (engageFreeze host.environment (s.request.resolveCaller (host.environment w.calls)) s
        w).1.request
      (engageFreeze host.environment (s.request.resolveCaller (host.environment w.calls)) s w).2
    with ⟨r, w', result | info⟩
  · simp only [run, admission, checked]
  · simp only [run, admission, checked]

theorem execute_of_plain (plain : r.intent.hasFileDescriptors = false) :
    execute host { request := r } w =
      let ended := run host { request := r } w
      ({ ended.1 with progress := .done ended.2.2 }, ended.2.1, .ok ended.2.2) := by
  rw [execute, if_neg (by simp), if_neg (by simp [plain])]

/-- A starter that is done is turned away. -/
theorem execute_of_done (done : s.progress ≠ .building) (host : Host) (w : World) :
    execute host s w = (s, w, .error .alreadyExecuted) :=
  if_pos done

/-- The preconditions are checked without a change, and the rest is placing. -/
theorem tidy_admission (formed : w.hierarchy.WellFormed) (unset : s.outActivity = none) :
    Tidy w (admission host caller s w) := by
  have checked : Asked w (checkPreconditions host.environment caller s.request w).2.1 :=
    asked_checkPreconditions
  unfold admission
  split <;> rename_i known <;> rw [known] at checked
  · exact fun _ => .of_asked checked unset
  · exact .of_asked checked (tidy_decideAndPlace (checked.hierarchy ▸ formed) unset)

theorem tidy_run (formed : w.hierarchy.WellFormed) (unset : s.outActivity = none) :
    Tidy w (run host s w) := by
  rw [run_eq]
  have frozen : Asked w (engageFreeze host.environment
      (s.request.resolveCaller (host.environment w.calls)) s w).2 := asked_engageFreeze
  have unset : (engageFreeze host.environment
      (s.request.resolveCaller (host.environment w.calls)) s w).1.outActivity = none :=
    outActivity_engageFreeze.trans unset
  exact ((tidy_admission (frozen.hierarchy ▸ formed) unset).of_asked frozen).post _ _

/-- The first start of a request that ends in an error or without success leaves every node, the
order of the displays and every record as they were, starts no activity, and reaches no client. -/
theorem execute_undone (reached : Reachable w.hierarchy) {s' : Starter} {w' : World}
    {outcome : Except StartError StartResult}
    (ran : execute host { request := r } w = (s', w', outcome))
    (refused : ∀ result, outcome = .ok result → result.isSuccessful = false) :
    SameNodes w.hierarchy w'.hierarchy ∧ s'.outActivity = none ∧
      ∃ later, w'.calls = w.calls ++ later ∧ ∀ call ∈ later, call.reachesClient = false := by
  unfold execute at ran
  rw [if_neg (by simp)] at ran
  split at ran
  · cases ran
    exact ⟨.refl _, rfl, Quiet.refl w⟩
  · have tidy : Tidy w (run host { request := r } w) := tidy_run reached.wellFormed rfl
    cases ran
    have withdrawn := tidy (refused _ rfl)
    exact ⟨withdrawn.nodes, withdrawn.unset, withdrawn.quiet⟩

/-- Lock task mode forbids the task that the start makes, in a root task that it makes too. -/
theorem execute_undone_of_locked :
    let bounds : Rect := ⟨0, 0, 1920, 1080⟩
    let world : World := { hierarchy := empty.mutate (.addDisplay ⟨0⟩ bounds) }
    let locked : Host := { environment := fun _ => { violatesLockTask := fun _ => true } }
    let info : ActivityInfo := { component := ⟨"mail", "Inbox"⟩, uid := ⟨10010⟩ }
    let request : StartRequest := { intent := .ofComponent info.component, info := some info }
    let ended := execute locked { request := request } world
    ended.2.2 = .ok .lockTaskModeViolation ∧ SameNodes world.hierarchy ended.2.1.hierarchy ∧
      ended.2.1.hierarchy.nextTaskId = ⟨3⟩ := by
  intro bounds world locked info request ended
  have reached : Reachable world.hierarchy := Reachable.empty.call (.addDisplay ⟨0⟩ bounds)
  have vetoed : ended.2.2 = .ok .lockTaskModeViolation := by decide +kernel
  have ran : execute locked { request := request } world = (ended.1, ended.2.1, ended.2.2) := rfl
  have undone := execute_undone reached ran fun result same => by
    cases vetoed.symm.trans same
    rfl
  exact ⟨vetoed, undone.1, by decide +kernel⟩

end WindowHost.Start
