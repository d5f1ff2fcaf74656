import WindowHost.Hierarchy.Navigation
import WindowHost.Start.Request

/-! What a start works with once it is admitted: the flags that really apply, the display, and
the task or activity that a launch may reuse. -/
namespace WindowHost

namespace StartRequest

def inTask? (r : StartRequest) (h : Hierarchy) : Option NodeId := r.inTask.filter h.isTask

def inFragment? (r : StartRequest) (h : Hierarchy) : Option NodeId :=
  r.inFragment.filter h.isFragmentLike

/-- Whether the caller says where the activity goes. -/
def namesPlace (r : StartRequest) (h : Hierarchy) : Bool :=
  (r.inTask? h).isSome || (r.inFragment? h).isSome

/-- The flags of the intent. A new task is added where there is nothing to start from, where the
activity or the asking one keeps a task to itself, and for a start beside the asking one. -/
def effectiveFlags (r : StartRequest) (h : Hierarchy) (info : ActivityInfo) : IntentFlags :=
  let flags := r.intent.flags
  let source := r.source? h
  let sourceIsAlone := source.any (h.activityHas fun a => a.launchMode == .singleInstance)
  if (source.isNone && !r.namesPlace h) || info.launchMode.requiresNewTask || sourceIsAlone
      || flags.has .launchAdjacent
  then flags.insert .newTask else flags

/-- The record of the activity to start. -/
def newRecord (r : StartRequest) (callingUid : Uid) (info : ActivityInfo) : ActivityRecord :=
  { ActivityRecord.create info r.intent with
    launchedFromUid := callingUid
    launchedFromPackage := r.callingPackage
    launchTaskBehind := r.options.any LaunchOptions.taskBehind
    launchCookie := r.options.bind LaunchOptions.cookie }

/-- The display of the activity that asks for the start. -/
def sourceDisplay? (r : StartRequest) (h : Hierarchy) : Option DisplayId :=
  ((r.source? h).bind h.displayOf?).bind h.displayId?

/-- The layout that the options ask for. -/
def requestedLayout (r : StartRequest) : LaunchParams where
  display := r.options.bind LaunchOptions.displayId
  mode := (r.options.map LaunchOptions.mode).getD .undefined
  bounds := r.options.bind LaunchOptions.bounds

end StartRequest

/-- The choices of one launch. -/
structure Launch where
  flags : IntentFlags
  source : Option NodeId
  display : NodeId
  /-- The display that the options or the layout ask for. -/
  preferredDisplay : Option NodeId
  rootTask : Option NodeId
  taskBehind : Bool
  avoidMoveToFront : Bool
  cookie : Option LaunchCookie

/-- Whether the launch may take the focus. -/
def Launch.movesToFront (l : Launch) : Bool := !l.taskBehind && !l.avoidMoveToFront

namespace Start

/-- The display that is asked for: the one of the options wins over the one of the layout. -/
def preferredDisplay? (r : StartRequest) (h : Hierarchy) (layout : LaunchParams) :
    Option NodeId :=
  ((r.options.bind LaunchOptions.displayId).or layout.display).bind h.displayWithId?

/-- The display that is asked for, or the one of the asking activity, or the focused one. -/
def launchDisplay? (r : StartRequest) (h : Hierarchy) (layout : LaunchParams) : Option NodeId :=
  ((preferredDisplay? r h layout).or ((r.sourceDisplay? h).bind h.displayWithId?)).or
    h.topFocusedDisplay?

def launch (r : StartRequest) (h : Hierarchy) (layout : LaunchParams) (display : NodeId) :
    Launch where
  flags := r.intent.flags
  source := r.source? h
  display := display
  preferredDisplay := preferredDisplay? r h layout
  rootTask := (r.options.bind LaunchOptions.rootTask).filter h.isTask
  taskBehind := r.options.any LaunchOptions.taskBehind
  avoidMoveToFront := r.options.any LaunchOptions.avoidMoveToFront
  cookie := r.options.bind LaunchOptions.cookie

/-- The task that the launch may reuse. -/
def reusableTask? (r : StartRequest) (h : Hierarchy) (record : ActivityRecord) : Option NodeId :=
  let flags := r.intent.flags
  if !r.namesPlace h && !r.wantsResult h
      && ((flags.has .newTask && !flags.has .multipleTask) || record.launchMode.requiresNewTask)
  then
    if record.launchMode = .singleInstance then
      (h.findActivity? record.component record.userId).bind h.taskAround?
    else h.findTask? record.component record.info.affinity record.userId
  else none

/-- Whether an activity is of the same component and user as the one to start. -/
def isSameActivity (h : Hierarchy) (record : ActivityRecord) (k : NodeId) : Bool :=
  h.activityHas (fun r => r.component == record.component && r.userId == record.userId) k

/-- The focused activity of a display, if the intent can go to it in place of a new one. -/
def deliverableTop? (h : Hierarchy) (display : NodeId) (record : ActivityRecord) :
    Option NodeId :=
  if record.intent.flags.has .singleTop || record.launchMode.isSingleTopLike then
    ((h.focusedRootTask? display).bind h.topRunningActivity?).filter fun top =>
      h.activityHas (·.attached) top && isSameActivity h record top
  else none

/-- The fragment beside the one that the asking activity lies in, for a start beside it. -/
def adjacentFragment? (h : Hierarchy) (l : Launch) : Option NodeId :=
  if l.flags.has .launchAdjacent && l.rootTask.isNone then do
    let parent ← h.parent? (← l.source)
    let _ ← h.fragment? parent
    h.adjacent? parent
  else none

/-- Whether a task shows a running activity. -/
def hasVisibleActivity (h : Hierarchy) (task : NodeId) : Bool :=
  (h.activities task).any (h.activityHas fun r => r.isRunning && r.visibleRequested)

end Start
end WindowHost
