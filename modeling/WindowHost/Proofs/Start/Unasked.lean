import WindowHost.Proofs.Run.Oblivious

/-! What surrounds the placing of a launch. The freeze of the recent tasks, the preconditions, the
policy for background starts and the report go by what the world answers, and ask no layout
modifier. -/
namespace WindowHost.Start
open Told (told)
variable {env : Environment} {w : World}

theorem oblivious_engageFreeze (caller : Caller) (s : Starter) (w : World) :
    Oblivious env (engageFreeze env caller s ·) w := by
  by_cases engages : s.request.wantsFreeze && (env w.calls).isCallerRecents caller.uid &&
    !(env w.calls).recentsFrozen
  · refine ⟨[.freezeRecents], by simp [Unasked, Call.modifier?], fun c agree => ?_⟩
    simp only [engageFreeze, agree.answers_told]
    rw [if_pos engages, if_pos engages]
    rfl
  · refine .of_silent fun c agree => ?_
    simp only [engageFreeze, agree.answers_told]
    rw [if_neg engages, if_neg engages]
    rfl

theorem oblivious_resolveInfo (caller : Caller) (r : StartRequest) (w : World) :
    Oblivious env (resolveInfo env caller r ·) w := by
  cases known : r.info with
  | some info =>
    refine .of_silent fun c _ => ?_
    simp only [resolveInfo, known]
    rfl
  | none =>
    refine ⟨[.resolve r.intent caller.uid.userId], by simp [Unasked, Call.modifier?],
      fun c agree => ?_⟩
    simp only [resolveInfo, known, agree.answers_told]
    rfl

theorem oblivious_askSupport (component : ComponentName) (intent : Intent) (w : World) :
    Oblivious env (askSupport env component intent ·) w := by
  refine ⟨[.supports component intent], by simp [Unasked, Call.modifier?], fun c agree => ?_⟩
  simp only [askSupport, agree.answers_told]
  rfl

theorem oblivious_checkVoiceSource (component : ComponentName) (info : ActivityInfo)
    (r : StartRequest) (w : World) :
    Oblivious env (checkVoiceSource env component info r ·) w := by
  cases leaves : r.leavesVoiceSession w.hierarchy info with
  | false =>
    refine .of_silent fun c _ => ?_
    rw [checkVoiceSource, checkVoiceSource, hierarchy_told, leaves]
    rfl
  | true =>
    let marked := { r with intent := r.intent.addCategory Intent.voiceCategory }
    refine ((oblivious_askSupport component marked.intent w).beside marked).of_eq fun c _ => ?_
    rw [checkVoiceSource, hierarchy_told, leaves]
    rfl

theorem oblivious_checkVoiceTarget (component : ComponentName) (r : StartRequest) (w : World) :
    Oblivious env (checkVoiceTarget env component r ·) w := by
  cases voiced : r.voiceSession.isSome with
  | false =>
    refine Oblivious.of_silent fun c _ => ?_
    simp only [checkVoiceTarget, voiced]
    rfl
  | true =>
    refine (oblivious_askSupport component r.intent w).of_eq fun c _ => ?_
    simp only [checkVoiceTarget, voiced]
    rfl

theorem oblivious_askPermission (caller : Caller) (info : ActivityInfo) (r : StartRequest)
    (w : World) : Oblivious env (askPermission env caller info r ·) w := by
  let check : PermissionCheck :=
    { intent := r.intent
      info := info
      callingUid := caller.uid
      realCallingUid := caller.realUid
      callingPackage := r.callingPackage
      hasResultTo := (r.source? w.hierarchy).isSome }
  refine ⟨[.permission check], by simp [Unasked, Call.modifier?], fun c agree => ?_⟩
  simp only [askPermission, agree.answers_told]
  rfl

/-- Goes on with a request where a check holds. -/
def proceed (failure : StartResult)
    (next : StartRequest → World → StartRequest × World × Except StartResult ActivityInfo) :
    StartRequest × World × Bool → StartRequest × World × Except StartResult ActivityInfo
  | (r, w, false) => (r, w, .error failure)
  | (r, w, true) => next r w

theorem oblivious_proceed
    {next : StartRequest → World → StartRequest × World × Except StartResult ActivityInfo}
    (goesOn : ∀ r w, Oblivious env (next r) w) (failure : StartResult)
    (checked : StartRequest × World × Bool) : Oblivious env (proceed failure next) checked := by
  obtain ⟨r, w, _ | _⟩ := checked
  · exact .of_silent fun _ _ => rfl
  · exact (goesOn r w).after rfl fun _ _ => rfl

/-- What remains to be checked once the component is known: that it takes the intent out of a voice
session and into one, and that the permission to start is there. -/
def checkKnown (env : Environment) (caller : Caller) (component : ComponentName)
    (info : ActivityInfo) (r : StartRequest) (w : World) :
    StartRequest × World × Except StartResult ActivityInfo :=
  let permit (r : StartRequest) (w : World) :=
    proceed .aborted (fun r w => (r, w, .ok info)) (r, askPermission env caller info r w)
  let target (r : StartRequest) (w : World) :=
    proceed .notVoiceCompatible permit (r, checkVoiceTarget env component r w)
  proceed .notVoiceCompatible target
    (checkVoiceSource env component info { r with info := some info } w)

theorem oblivious_checkKnown (caller : Caller) (component : ComponentName) (info : ActivityInfo)
    (r : StartRequest) (w : World) :
    Oblivious env (checkKnown env caller component info r ·) w := by
  refine (oblivious_checkVoiceSource component info { r with info := some info } w).comp
    (oblivious_proceed (fun r w => ?_) .notVoiceCompatible _)
  refine ((oblivious_checkVoiceTarget component r w).beside r).comp
    (oblivious_proceed (fun r w => ?_) .notVoiceCompatible _)
  exact ((oblivious_askPermission caller info r w).beside r).comp
    (oblivious_proceed (fun _ _ => .of_silent fun _ _ => rfl) .aborted _)

theorem checkPreconditions_eq_checkKnown {caller : Caller} {component : ComponentName}
    {r : StartRequest} (known : ¬ (r.caller.isSome && caller.process.isNone) = true)
    (consistent : ¬ (r.intent.flags.has .forwardResult && r.wantsResult w.hierarchy) = true)
    (named : r.intent.component = some component) :
    checkPreconditions env caller r w =
      match resolveInfo env caller r w with
      | (w, some info) => checkKnown env caller component info r w
      | (w, none) => (r, w, .error .classNotFound) := by
  rw [checkPreconditions, if_neg known, if_neg consistent, named]
  dsimp only
  rcases resolveInfo env caller r w with ⟨w₁, _ | info⟩
  · rfl
  dsimp only [checkKnown]
  rcases checkVoiceSource env component info { r with info := some info } w₁ with ⟨r₂, w₂, _ | _⟩
  · rfl
  dsimp only [proceed]
  rcases checkVoiceTarget env component r₂ w₂ with ⟨w₃, _ | _⟩
  · rfl
  dsimp only [proceed]
  rcases askPermission env caller info r₂ w₃ with ⟨w₄, _ | _⟩ <;> rfl

theorem oblivious_checkPreconditions (caller : Caller) (r : StartRequest) (w : World) :
    Oblivious env (checkPreconditions env caller r ·) w := by
  by_cases unknown : r.caller.isSome && caller.process.isNone
  · refine .of_silent fun c _ => ?_
    simp only [checkPreconditions, if_pos unknown]
    rfl
  by_cases conflict : r.intent.flags.has .forwardResult && r.wantsResult w.hierarchy
  · refine .of_silent fun c _ => ?_
    simp only [checkPreconditions, if_neg unknown, hierarchy_told, if_pos conflict]
    rfl
  cases named : r.intent.component with
  | none =>
    refine .of_silent fun c _ => ?_
    simp only [checkPreconditions, if_neg unknown, hierarchy_told, if_neg conflict, named]
    rfl
  | some component =>
    have goesOn : ∀ found, Oblivious env (fun found : World × Option ActivityInfo =>
        match found with
        | (w, some info) => checkKnown env caller component info r w
        | (w, none) => (r, w, .error .classNotFound)) found := by
      rintro ⟨w, _ | info⟩
      · exact .of_silent fun _ _ => rfl
      · exact (oblivious_checkKnown caller component info r w).after rfl fun _ _ => rfl
    exact ((oblivious_resolveInfo caller r w).comp (goesOn _)).of_eq fun c _ =>
      checkPreconditions_eq_checkKnown (w := told w c) unknown conflict named

/-- The policy for background starts, and the switch that overrules it, let the launch pass. -/
def passesPolicy (host : Host) (caller : Caller) (callerIsRecents : Bool) (info : ActivityInfo)
    (w : World) : Bool :=
  let query := backgroundStart (host.environment w.calls) caller callerIsRecents w.hierarchy info
  host.options.backgroundStarts || (query.allowReason? false).isSome

/-- Enters a start in the log, where starts are logged. -/
def logged (host : Host) (caller : Caller) (info : ActivityInfo) (s : Starter) (w : World) :
    World :=
  let entry : StartLog :=
    { reason := s.request.reason
      callingUid := caller.uid
      callingPackage := s.request.callingPackage
      realCallingUid := caller.realUid
      component := info.component
      aborted := !passesPolicy host caller s.callerIsRecents info w }
  if host.options.logsStarts then w.emit (.logStart entry) else w

/-- Places a launch that passes the policy. -/
def placeIf (host : Host) (caller : Caller) (info : ActivityInfo) (s : Starter) (passes : Bool)
    (w : World) : Starter × World × StartResult :=
  if passes then
    let flags := s.request.effectiveFlags w.hierarchy info
    let request := { s.request with intent := { s.request.intent with flags := flags } }
    let (flight, result) := place host request caller info w
    ({ s with
       request := request
       outActivity := flight.outActivity
       clearedTask := flight.clearedTask
       taskWasVisible := flight.taskWasVisible }, flight.world, result)
  else (s, w, .aborted)

theorem decideAndPlace_eq (host : Host) (caller : Caller) (info : ActivityInfo) (s : Starter)
    (w : World) : decideAndPlace host caller info s w =
      placeIf host caller info s (passesPolicy host caller s.callerIsRecents info w)
        (logged host caller info s w) := by
  have gate : (!host.options.backgroundStarts && ((backgroundStart (host.environment w.calls) caller
      s.callerIsRecents w.hierarchy info).allowReason? false).isNone) =
      !passesPolicy host caller s.callerIsRecents info w := by
    rw [passesPolicy, Bool.not_or, Option.not_isSome]
  unfold decideAndPlace
  dsimp only
  rw [gate]
  cases passes : passesPolicy host caller s.callerIsRecents info w with
  | false =>
    rw [Bool.not_false, if_pos rfl, placeIf, if_neg Bool.false_ne_true, logged, passes]
    rfl
  | true =>
    rw [Bool.not_true, if_neg Bool.false_ne_true, placeIf, if_pos rfl, logged, passes]
    rfl

theorem hierarchy_logged (host : Host) (caller : Caller) (info : ActivityInfo) (s : Starter)
    (w : World) : (logged host caller info s w).hierarchy = w.hierarchy := by
  unfold logged
  dsimp only
  split <;> rfl

theorem passesPolicy_told {host : Host} {c : List Call}
    (agree : SameAnswers host.environment w.calls c) (caller : Caller) (callerIsRecents : Bool)
    (info : ActivityInfo) :
    passesPolicy host caller callerIsRecents info (told w c) =
      passesPolicy host caller callerIsRecents info w := by
  rw [passesPolicy, agree.answers_told]
  rfl

theorem oblivious_logged (host : Host) (caller : Caller) (info : ActivityInfo) (s : Starter)
    (w : World) : Oblivious host.environment (logged host caller info s) w := by
  let entry : StartLog :=
    { reason := s.request.reason
      callingUid := caller.uid
      callingPackage := s.request.callingPackage
      realCallingUid := caller.realUid
      component := info.component
      aborted := !passesPolicy host caller s.callerIsRecents info w }
  have logs : Oblivious host.environment
      (fun w => if host.options.logsStarts then w.emit (.logStart entry) else w) w := by
    split
    · exact oblivious_emit rfl
    · exact .id
  refine logs.of_eq fun c agree => ?_
  rw [logged, passesPolicy_told agree]

theorem oblivious_releaseFailed (s : Starter) (w : World) :
    Oblivious env (releaseFailed s ·) w := by
  cases froze : s.froze with
  | false =>
    refine .of_silent fun c _ => ?_
    simp only [releaseFailed, froze]
    rfl
  | true =>
    have lifted : Oblivious env (World.emit · .resetRecentsFreeze) w := oblivious_emit rfl
    refine (lifted.beside ({ s with froze := false } : Starter).abort).of_eq fun c _ => ?_
    simp only [releaseFailed, froze]
    rfl

theorem oblivious_reportRestart (s : Starter) (w : World) (task rootTask : Option NodeId) :
    Oblivious env (reportRestart s · task rootTask) w := by
  cases named : (task.bind w.hierarchy.task?).map Task.id with
  | none =>
    refine .of_silent fun c _ => ?_
    simp only [reportRestart, hierarchy_told, named]
  | some id =>
    cases task with
    | none => contradiction
    | some task =>
      let attempt : RestartAttempt :=
        { task := id
          homeVisible :=
            (w.hierarchy.displayOf? (rootTask.getD task)).any (isHomeVisible w.hierarchy)
          clearedTask := s.clearedTask
          wasVisible := s.taskWasVisible.getD (hasVisibleActivity w.hierarchy task) }
      have told : Oblivious env (World.emit · (.restart attempt)) w := oblivious_emit rfl
      refine told.of_eq fun c _ => ?_
      simp only [reportRestart, hierarchy_told, named]
      rfl

theorem oblivious_recent (task : Option Task) (counts : Prop) [Decidable counts] (w : World) :
    Oblivious env (fun w =>
      if counts then
        match task with
        | some t => w.emit (.addRecent t.id)
        | none => w
      else w) w := by
  by_cases holds : counts
  · simp only [if_pos holds]
    cases task with
    | none => exact .id
    | some t => exact oblivious_emit rfl
  · simp only [if_neg holds]
    exact .id

/-- Tells the services of a start that is over, and released where it failed. -/
def announce (activity : Option NodeId) (result : StartResult) (rootTask : Option NodeId)
    (ended : Starter × World) : Starter × World :=
  let (s, w) := ended
  let h := w.hierarchy
  let task := activity.bind h.taskAround?
  let w :=
    if result = .taskToFront ∨ result = .deliveredToTop then reportRestart s w task rootTask
    else w
  let w :=
    if (result = .success ∨ result = .taskToFront) ∧ !s.callerIsRecents ∧ !s.request.wantsFreeze
    then
      match task.bind h.task? with
      | some t => w.emit (.addRecent t.id)
      | none => w
    else w
  (s, w.emit (.launched
    { result := result
      newActivityCreated := result == .success
      activity := activity
      component := (s.request.info.map ActivityInfo.component).or s.request.intent.component
      hasOptions := s.request.options.isSome }))

theorem post_eq_announce (s : Starter) (w : World) (activity : Option NodeId)
    (result : StartResult) (rootTask : Option NodeId) :
    post s w activity result rootTask =
      announce activity result rootTask
        (if result.isSuccessful then (s, w) else releaseFailed s w) :=
  rfl

theorem oblivious_announce (activity : Option NodeId) (result : StartResult)
    (rootTask : Option NodeId) (ended : Starter × World) :
    Oblivious env (announce activity result rootTask) ended := by
  obtain ⟨s, w⟩ := ended
  let task := activity.bind w.hierarchy.taskAround?
  have retold : Oblivious env (fun w =>
      if result = .taskToFront ∨ result = .deliveredToTop then reportRestart s w task rootTask
      else w) w := by
    by_cases settles : result = .taskToFront ∨ result = .deliveredToTop
    · simp only [if_pos settles]
      exact oblivious_reportRestart s w task rootTask
    · simp only [if_neg settles]
      exact .id
  have listed := retold.comp (oblivious_recent (task.bind w.hierarchy.task?)
    ((result = .success ∨ result = .taskToFront) ∧ !s.callerIsRecents ∧ !s.request.wantsFreeze) _)
  exact ((listed.comp (oblivious_emit rfl)).beside s).after (t := w) rfl fun _ _ => rfl

theorem oblivious_post (s : Starter) (w : World) (activity : Option NodeId) (result : StartResult)
    (rootTask : Option NodeId) : Oblivious env (post s · activity result rootTask) w := by
  have released : Oblivious env
      (fun w => if result.isSuccessful then (s, w) else releaseFailed s w) w := by
    cases result.isSuccessful with
    | true => exact .of_silent fun _ _ => rfl
    | false => exact oblivious_releaseFailed s w
  exact (released.comp (oblivious_announce activity result rootTask _)).of_eq fun c _ =>
    post_eq_announce s (told w c) activity result rootTask

end WindowHost.Start
