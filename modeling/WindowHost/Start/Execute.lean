import WindowHost.Settings
import WindowHost.Start.Admission
import WindowHost.Start.Placement

/-! One start from its request to its report. -/
namespace WindowHost

/-- What a host is set up with: the world around it, its switches, and its layout modifiers. -/
structure Host where
  environment : Environment
  options : Options := {}
  modifiers : List Modifier := []

namespace Start

/-- Places an admitted launch. The request has the flags that really apply. -/
def place (host : Host) (r : StartRequest) (caller : Caller) (info : ActivityInfo) (w : World) :
    Flight × StartResult :=
  let env := host.environment
  let chain := host.modifiers
  let h := w.hierarchy
  let record := r.newRecord caller.uid info
  let request : LayoutRequest :=
    { phase := .display
      info := info
      sourceDisplay := r.sourceDisplay? h
      requestedBounds := r.requestedLayout.bounds }
  let (s, layout) := Flight.refineLayout { world := w } chain request r.requestedLayout
  match launchDisplay? r h layout with
  | none => (s, .canceled)
  | some display =>
    let l := launch r h layout display
    let reusable := reusableTask? r h record
    let id := (reusable.bind h.task?).map Task.id
    let request := { request with phase := .bounds, task := id }
    let (s, layout) := s.refineLayout chain request layout
    match reusable with
    | some task => recycle env s l record task
    | none =>
      let top :=
        if r.wantsResult h || r.namesPlace h then none else deliverableTop? h display record
      match top with
      | some top => deliverToTop env s l record top
      | none =>
        match existingPlace? h r l with
        | some parent => addTo env s l record parent
        | none => startInNewTask env chain s l r record request layout

/-- Whether a display shows home. -/
def isHomeVisible (h : Hierarchy) (display : NodeId) : Bool :=
  (h.rootTasks display).any fun root =>
    h.activityType root == .home && h.shouldBeVisible root none

/-- Lifts the freeze and runs the abort hook of a start that did not go through. -/
def releaseFailed (s : Starter) (w : World) : Starter × World :=
  let w := if s.froze then w.emit .resetRecentsFreeze else w
  ({ s with froze := false }.abort, w)

/-- Tells of an existing task that was brought forward or given the intent. -/
def reportRestart (s : Starter) (w : World) (task : Option NodeId) (rootTask : Option NodeId) :
    World :=
  let h := w.hierarchy
  match task, (task.bind h.task?).map Task.id with
  | some task, some id =>
    let display := h.displayOf? (rootTask.getD task)
    w.emit (.restart
      { task := id
        homeVisible := display.any (isHomeVisible h)
        clearedTask := s.clearedTask
        wasVisible := s.taskWasVisible.getD (hasVisibleActivity h task) })
  | _, _ => w

/-- Settles what remains once a start has ended with a result. -/
def post (s : Starter) (w : World) (activity : Option NodeId) (result : StartResult)
    (rootTask : Option NodeId) : Starter × World :=
  let (s, w) := if result.isSuccessful then (s, w) else releaseFailed s w
  let h := w.hierarchy
  let task := activity.bind h.taskAround?
  let w :=
    if result = .taskToFront ∨ result = .deliveredToTop then reportRestart s w task rootTask
    else w
  let w :=
    if (result = .success ∨ result = .taskToFront) ∧ !s.callerIsRecents ∧ !s.request.wantsFreeze
    then
      match task.bind h.task? with
      | some t => w.emit (.addRecent t.id)
      | none => w
    else w
  let component := (s.request.info.map ActivityInfo.component).or s.request.intent.component
  let report : Launched :=
    { result := result
      newActivityCreated := result == .success
      activity := activity
      component := component
      hasOptions := s.request.options.isSome }
  (s, w.emit (.launched report))

/-- Puts a start whose preconditions hold to the policy for background starts, and places it. -/
def decideAndPlace (host : Host) (caller : Caller) (info : ActivityInfo) (s : Starter) (w : World) :
    Starter × World × StartResult :=
  let query :=
    backgroundStart (host.environment w.calls) caller s.callerIsRecents w.hierarchy info
  let aborted := !host.options.backgroundStarts && (query.allowReason? false).isNone
  let entry : StartLog :=
    { reason := s.request.reason
      callingUid := caller.uid
      callingPackage := s.request.callingPackage
      realCallingUid := caller.realUid
      component := info.component
      aborted := aborted }
  let w := if host.options.logsStarts then w.emit (.logStart entry) else w
  if aborted then (s, w, .aborted)
  else
    let flags := s.request.effectiveFlags w.hierarchy info
    let request := { s.request with intent := { s.request.intent with flags := flags } }
    let (flight, result) := place host request caller info w
    ({ s with
       request := request
       outActivity := flight.outActivity
       clearedTask := flight.clearedTask
       taskWasVisible := flight.taskWasVisible }, flight.world, result)

/-- Runs a request that has not run before. -/
def run (host : Host) (s : Starter) (w : World) : Starter × World × StartResult :=
  let env := host.environment
  let caller := s.request.resolveCaller (env w.calls)
  let (s, w) := engageFreeze env caller s w
  let (s, w, result) :=
    match checkPreconditions env caller s.request w with
    | (r, w, .error result) => ({ s with request := r }, w, result)
    | (r, w, .ok info) => decideAndPlace host caller info { s with request := r } w
  let rootTask := s.outActivity.bind w.hierarchy.rootTaskOf?
  let (s, w) := post s w s.outActivity result rootTask
  (s, w, result)

/-- Runs a request. A starter runs once; a request that carries file descriptors is refused. -/
def execute (host : Host) (s : Starter) (w : World) :
    Starter × World × Except StartError StartResult :=
  if s.progress ≠ .building then (s, w, .error .alreadyExecuted)
  else if s.request.intent.hasFileDescriptors then
    ({ s with progress := .done .canceled }, w, .error .fileDescriptorsInIntent)
  else
    let (s, w, result) := run host s w
    ({ s with progress := .done result }, w, .ok result)

end Start
end WindowHost
