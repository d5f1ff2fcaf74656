import WindowHost.Hierarchy.Restructure
import WindowHost.Start.Launch
import WindowHost.Visibility

/-! Where a launch goes. It reuses a task, or goes to the focused activity, or adds an activity to
a place that is named, adjacent, shared with the asking activity, or new. A change that the
hierarchy refuses takes back the nodes that the launch has made. -/
namespace WindowHost

/-- A launch under way. -/
structure Flight where
  world : World
  /-- The nodes that the launch has made, first one first. -/
  created : List NodeId := []
  outActivity : Option NodeId := none
  clearedTask : Bool := false
  taskWasVisible : Option Bool := none

namespace Flight

def hierarchy (s : Flight) : Hierarchy := s.world.hierarchy

def withHierarchy (s : Flight) (h : Hierarchy) : Flight :=
  { s with world := { s.world with hierarchy := h } }

/-- Takes over a hierarchy in which `k` is new. -/
def withNew (s : Flight) (h : Hierarchy) (k : NodeId) : Flight :=
  { s.withHierarchy h with created := s.created ++ [k] }

/-- Removes the nodes that the launch has made, the last one first. -/
def rollback (s : Flight) : Flight :=
  { s.withHierarchy (s.created.reverse.foldl Hierarchy.remove s.hierarchy) with created := [] }

/-- Ends a launch that the hierarchy refused. -/
def fail (s : Flight) : Flight × StartResult :=
  ({ s.rollback with outActivity := none }, .canceled)

def raise (s : Flight) (k : NodeId) : Flight := s.withHierarchy (s.hierarchy.moveTaskToFront k).1

/-- Runs the layout modifiers. -/
def refineLayout (s : Flight) (chain : List Modifier) (request : LayoutRequest)
    (current : LaunchParams) : Flight × LaunchParams :=
  let (params, calls) := refine chain request current
  ({ s with world := { s.world with calls := s.world.calls ++ calls.map .modifier } }, params)

end Flight

namespace Start

/-- Brings the visibility of a display up to date and resumes its focused activity. -/
def propagate (env : Environment) (w : World) (display : NodeId) (starting : Option NodeId) :
    World :=
  let (w, _) :=
    Visibility.updateDisplay (env w.calls).keyguardLocked { starting := starting } w display
  (Visibility.resumeFocused w display).1

/-- Hands an intent to an activity, and the cookie with it. -/
def deliver (w : World) (k : NodeId) (intent : Intent) (cookie : Option LaunchCookie) : World :=
  if w.hierarchy.isActivity k then
    (w.modifyActivity k fun r =>
      { r.deliverNewIntent intent with launchCookie := cookie.or r.launchCookie }).send k .newIntent
  else w

/-- Adds the activity at the top of its place and shows it. -/
def addTo (env : Environment) (s : Flight) (l : Launch) (record : ActivityRecord)
    (parent : NodeId) : Flight × StartResult :=
  match s.hierarchy.addActivity parent record .top with
  | .error _ => s.fail
  | .ok (h, k) =>
    let s := { s.withNew h k with outActivity := some k }
    let s := if l.movesToFront then s.raise parent else s
    let display := (s.hierarchy.displayOf? k).getD l.display
    ({ s with world := propagate env s.world display (some k) }, .success)

/-- The task to whose partner a start beside something goes: the asking activity's root task, or
the focused one. -/
def adjacentRoot? (h : Hierarchy) (l : Launch) : Option NodeId :=
  if l.flags.has .launchAdjacent then
    ((l.source.bind h.rootTaskOf?).or (h.focusedRootTask? l.display)).bind h.adjacent?
  else none

/-- A split mode without a split pair on the display falls back to fullscreen. -/
def pairedMode (h : Hierarchy) (display : NodeId) (mode : WindowingMode) : WindowingMode :=
  if mode.isSplit && !(h.rootTasks display).any fun root => (h.adjacent? root).isSome
  then .fullscreen else mode

/-- The root task for a new task, made where it is missing. -/
def launchRoot (s : Flight) (l : Launch) (mode : WindowingMode) (type : ActivityType) :
    Option (Flight × NodeId) :=
  let h := s.hierarchy
  match l.rootTask with
  | some root => some (s, root)
  | none =>
    match adjacentRoot? h l with
    | some root => some (s, root)
    | none =>
      match h.defaultArea? l.display with
      | none => none
      | some area =>
        match h.getOrCreateRootTask area (pairedMode h l.display mode) type with
        | .error _ => none
        | .ok (h, root, isNew) =>
          some (if isNew then s.withNew h root else s.withHierarchy h, root)

/-- What a new task for an activity is made with. -/
def newTaskSpec (r : StartRequest) (record : ActivityRecord) : TaskSpec where
  affinity := some record.info.affinity
  userId := record.userId
  rootComponent := some record.component
  voiceSession := r.voiceSession

/-- A task that floats freely takes the bounds of its layout. -/
def applyBounds (h : Hierarchy) (task : NodeId) (layout : LaunchParams) : Hierarchy :=
  match layout.bounds with
  | some bounds =>
    if h.mode task = .freeform then h.modifyTask task fun t => { t with bounds := some bounds }
    else h
  | none => h

/-- Starts the activity in a new task. The layout is refined a last time once the task is known,
and lock task mode may forbid the task. -/
def startInNewTask (env : Environment) (chain : List Modifier) (s : Flight) (l : Launch)
    (r : StartRequest) (record : ActivityRecord) (request : LayoutRequest)
    (layout : LaunchParams) : Flight × StartResult :=
  match launchRoot s l layout.mode record.info.type with
  | none => s.fail
  | some (s, root) =>
    let position := if l.movesToFront then Position.top else .bottom
    match s.hierarchy.createTask root (newTaskSpec r record) position with
    | .error _ => s.fail
    | .ok (h, task) =>
      let s := s.withNew h task
      let id := (s.hierarchy.task? task).map Task.id
      let (s, layout) :=
        s.refineLayout chain { request with phase := .taskLayout, task := id } layout
      let s := s.withHierarchy (applyBounds s.hierarchy task layout)
      if (env s.world.calls).violatesLockTask record then (s.rollback, .lockTaskModeViolation)
      else addTo env s l record task

/-- The place that an activity goes to when no new task is made: one that the caller names, the
fragment beside the asking activity, or the asking activity's own place. -/
def existingPlace? (h : Hierarchy) (r : StartRequest) (l : Launch) : Option NodeId :=
  (r.inFragment? h).or <| (r.inTask? h).or <| (adjacentFragment? h l).or <|
    if l.flags.has .newTask then none else l.source.bind h.parent?

/-- The root task that a reused task moves to: the one that the options name, or on another
display than its own one like its present root task. The outer option is empty when the display
takes none. -/
def destination (s : Flight) (l : Launch) (root : NodeId) (target taskDisplay : Option NodeId) :
    Option (Flight × Option NodeId) :=
  match l.rootTask, target with
  | some named, _ => some (s, some named)
  | none, none => some (s, none)
  | none, some display =>
    let h := s.hierarchy
    if target = taskDisplay then some (s, none)
    else
      match h.defaultArea? display with
      | none => none
      | some area =>
        match h.getOrCreateRootTask area (h.mode root) (h.activityType root) with
        | .error _ => none
        | .ok (h, found, isNew) =>
          some (if isNew then s.withNew h found else s.withHierarchy h, some found)

/-- Moves a task into a root task and to the front. A task in the root task adjacent to it stays
there and is only raised. The option is empty when the move is refused. -/
def moveInto (s : Flight) (task destination : NodeId) (taskDisplay : Option NodeId) :
    Option Flight :=
  let h := s.hierarchy
  if h.displayOf? destination = taskDisplay
      && (h.adjacent? destination).any fun partner => h.parent? task == some partner
  then some (s.raise task)
  else
    match h.reparent task destination .top with
    | .error _ => none
    | .ok h => some ((s.withHierarchy h).raise task)

/-- Brings a reused task to the front, unless it is there or is to stay behind. Tells whether that
counts as a move, which raising the top task of a split root task does not; nothing when the move
is refused. -/
def bringForward (s : Flight) (l : Launch) (task root : NodeId) : Flight × Option Bool :=
  let h := s.hierarchy
  let taskDisplay := h.displayOf? task
  let target := l.preferredDisplay.or taskDisplay
  let isInFront := target == taskDisplay
    && h.topFocusedDisplay?.bind h.focusedRootTask? == some root
    && h.topMostTask? root == some task
  if isInFront || l.avoidMoveToFront then (s, some false)
  else
    match destination s l root target taskDisplay with
    | none => (s, none)
    | some (s, place) =>
      match place.filter (· != root) with
      | none =>
        let h := s.hierarchy
        let isSplitTop := (h.mode root).isSplit && h.topMostTask? root == some task
        (s.raise task, some !isSplitTop)
      | some place =>
        match moveInto s task place taskDisplay with
        | none => (s, none)
        | some s => (s, some true)

/-- What becomes of the intent in a reused task. -/
inductive Arrival where
  /-- A new activity is added. -/
  | add
  /-- A running activity gets the intent. -/
  | deliver (k : NodeId)
  /-- The task is enough as it is. -/
  | keep
  deriving DecidableEq

/-- Clears a reused task as far as the launch asks for it, and settles what becomes of the
intent. -/
def arrive (h : Hierarchy) (l : Launch) (record : ActivityRecord) (task : NodeId) :
    Hierarchy × Arrival :=
  let flags := l.flags
  let activities := h.activities task
  if flags.has .newTask && flags.has .clearTask then
    (activities.foldl Hierarchy.remove h, .add)
  else if flags.has .clearTop || record.launchMode.requiresNewTask then
    match h.findActivityIn? task record.component with
    | none => (h, .add)
    | some existing =>
      let h := (activities.takeWhile (· != existing)).foldl Hierarchy.remove h
      if flags.has .clearTop && !flags.has .singleTop && record.launchMode == .multiple then
        (h.remove existing, .add)
      else (h, .deliver existing)
  else
    let singleTop := flags.has .singleTop || record.launchMode.isSingleTopLike
    match (h.topRunningActivity? task).filter fun top =>
        singleTop && isSameActivity h record top with
    | some top => (h, .deliver top)
    | none =>
      if (h.task? task).any (·.rootComponent == some record.component) then
        let lowest := activities.reverse.find? (h.activityHas ActivityRecord.isRunning)
        let same := lowest.any (h.activityHas fun r => r.intent.addressesSame record.intent)
        (h, if same then .keep else .add)
      else (h, if flags.has .resetTaskIfNeeded then .keep else .add)

/-- Marks the activity that a launch ends at without a new intent. -/
def leaveCookie (w : World) (cookie : Option LaunchCookie) (top : Option NodeId) : World :=
  match top with
  | some k => w.modifyActivity k fun r => { r with launchCookie := cookie.or r.launchCookie }
  | none => w

/-- Reuses a task for the launch. -/
def recycle (env : Environment) (s : Flight) (l : Launch) (record : ActivityRecord)
    (task : NodeId) : Flight × StartResult :=
  match s.hierarchy.rootTaskOf? task with
  | none => s.fail
  | some root =>
    let s := { s with taskWasVisible := some (hasVisibleActivity s.hierarchy task) }
    match bringForward s l task root with
    | (s, none) => s.fail
    | (s, some moved) =>
      let (h, arrival) := arrive s.hierarchy l record task
      let clears := l.flags.has .newTask && l.flags.has .clearTask
      let s := { s.withHierarchy h with clearedTask := clears }
      let display := (h.displayOf? task).getD l.display
      let result := if moved then StartResult.taskToFront else .deliveredToTop
      match arrival with
      | .add =>
        match h.addActivity task record .top with
        | .error _ => s.fail
        | .ok (h, k) =>
          let s := { s.withNew h k with outActivity := some k }
          let s := if l.movesToFront then s.raise task else s
          ({ s with world := propagate env s.world display (some k) }, .success)
      | .deliver k =>
        let w := deliver s.world k record.intent l.cookie
        ({ s with outActivity := some k, world := propagate env w display none }, result)
      | .keep =>
        let top := h.topRunningActivity? task
        let w := leaveCookie s.world l.cookie top
        ({ s with outActivity := top, world := propagate env w display none }, result)

/-- Hands the intent to the focused activity. -/
def deliverToTop (env : Environment) (s : Flight) (l : Launch) (record : ActivityRecord)
    (top : NodeId) : Flight × StartResult :=
  let h := s.hierarchy
  let wasVisible := (h.taskAround? top).map (hasVisibleActivity h)
  let w := deliver s.world top record.intent l.cookie
  ({ s with
     taskWasVisible := wasVisible
     outActivity := some top
     world := propagate env w l.display none }, .deliveredToTop)

end Start
end WindowHost
