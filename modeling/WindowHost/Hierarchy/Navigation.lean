import WindowHost.Hierarchy.Layers

/-! Questions about the places of nodes: the display, area and task that enclose a node, the root
tasks and activities that a node encloses, what is inherited on the way up, and where the focus
lies. -/
namespace WindowHost.Hierarchy

def isDescendantOf (h : Hierarchy) (k ancestor : NodeId) : Bool :=
  (h.ancestors k).contains ancestor

def displayWithId? (h : Hierarchy) (id : DisplayId) : Option NodeId :=
  h.displays.find? fun k => (h.display? k).any (·.id == id)

def displayId? (h : Hierarchy) (k : NodeId) : Option DisplayId := (h.display? k).map Display.id

def topFocusedDisplay? (h : Hierarchy) : Option NodeId := h.displays.getLast?

/-- The first area of a display. -/
def defaultArea? (h : Hierarchy) (display : NodeId) : Option NodeId := do
  let _ ← h.display? display
  (h.children display).head?

def displayOf? (h : Hierarchy) (k : NodeId) : Option NodeId :=
  (h.lineage k).find? fun j => (h.display? j).isSome

def areaOf? (h : Hierarchy) (k : NodeId) : Option NodeId :=
  (h.lineage k).find? fun j => (h.area? j).isSome

def rootTaskOf? (h : Hierarchy) (k : NodeId) : Option NodeId := (h.lineage k).find? h.isRootTask

/-- The nearest task around a node, which is the node itself when it is a task. -/
def taskOf? (h : Hierarchy) (k : NodeId) : Option NodeId := (h.lineage k).find? h.isTask

/-- The nearest task around an activity's parent. -/
def taskAround? (h : Hierarchy) (k : NodeId) : Option NodeId := (h.parent? k).bind h.taskOf?

/-- The mode that the nearest task with a mode of its own gives. -/
def mode (h : Hierarchy) (k : NodeId) : WindowingMode :=
  ((h.lineage k).findSome? fun j => (h.task? j).bind (·.mode.explicit?)).getD .fullscreen

/-- The bounds that the nearest node with bounds of its own gives. -/
def bounds (h : Hierarchy) (k : NodeId) : Rect :=
  ((h.lineage k).findSome? fun j => (h.data? j).bind NodeData.ownBounds?).getD .zero

/-- The type of the root task where it has one, else that of the activity itself. -/
def activityType (h : Hierarchy) (k : NodeId) : ActivityType :=
  let own := ((h.activity? k).map (·.info.type)).getD .standard
  match (h.rootTaskOf? k).bind h.task? with
  | some root => if root.type = .undefined then own else root.type
  | none => own

/-- The root tasks of every area of a display. -/
def rootTasks (h : Hierarchy) (display : NodeId) : List NodeId :=
  (h.children display).reverse.flatMap fun area => (h.children area).reverse.filter h.isTask

/-- The root tasks of every display. -/
def allRootTasks (h : Hierarchy) : List NodeId := h.displays.reverse.flatMap h.rootTasks

/-- The tasks of a stack that hold no task. Nodes that are no tasks are not looked into. -/
def leavesOf (h : Hierarchy) : Layers → List NodeId
  | .nil => []
  | .node k inside below =>
    let here :=
      if h.isTask k then
        match h.leavesOf inside with
        | [] => [k]
        | leaves => leaves
      else []
    here ++ h.leavesOf below

/-- The tasks in a task that hold no task, which may be the task itself. -/
def leafTasks (h : Hierarchy) (root : NodeId) : List NodeId := h.leavesOf (h.subtree root)

def topMostTask? (h : Hierarchy) (root : NodeId) : Option NodeId := (h.leafTasks root).head?

/-- Puts a test to the activities of a stack, topmost first, until one passes. The test takes notes,
which each activity hands on to the next one. An activity is not looked into. -/
def searchFromTop {σ : Type} (h : Hierarchy) (test : NodeId → ActivityRecord → σ → Bool × σ) :
    Layers → σ → Option NodeId × σ
  | .nil, notes => (none, notes)
  | .node k inside below, notes =>
    let here :=
      match h.activity? k with
      | some record =>
        let (passed, notes) := test k record notes
        (if passed then some k else none, notes)
      | none => h.searchFromTop test inside notes
    match here with
    | (some found, notes) => (some found, notes)
    | (none, notes) => h.searchFromTop test below notes

def activities (h : Hierarchy) (k : NodeId) : List NodeId := (h.subtree k).ids.filter h.isActivity

def topRunningActivity? (h : Hierarchy) (k : NodeId) : Option NodeId :=
  (h.activities k).find? (h.activityHas ActivityRecord.isRunning)

def hasRunningActivity (h : Hierarchy) (k : NodeId) : Bool := (h.topRunningActivity? k).isSome

/-- Whether an activity is the lowest running one of its task. -/
def isRootOfTask (h : Hierarchy) (activity : NodeId) : Bool :=
  match h.taskAround? activity with
  | none => false
  | some task =>
    (h.activities task).reverse.find? (h.activityHas ActivityRecord.isRunning) == some activity

/-- The topmost running instance of a component in a container. -/
def findActivityIn? (h : Hierarchy) (container : NodeId) (c : ComponentName) : Option NodeId :=
  (h.activities container).find? (h.activityHas fun r => r.isRunning && r.component == c)

/-- The topmost running instance of a component for a user, on any display. -/
def findActivity? (h : Hierarchy) (c : ComponentName) (user : UserId) : Option NodeId :=
  (h.allRootTasks.flatMap h.activities).find?
    (h.activityHas fun r => r.isRunning && r.userId == user && r.component == c)

/-- One task in the search for a task to reuse. One made by the component ends the search, which is
what the error says, and the first one of the affinity is kept. -/
def weighTask (h : Hierarchy) (c : ComponentName) (affinity : String) (user : UserId)
    (akin : Option NodeId) (task : NodeId) : Except NodeId (Option NodeId) :=
  match h.task? task with
  | none => .ok akin
  | some info =>
    if info.userId ≠ user ∨ ¬ h.hasRunningActivity task then .ok akin
    else if info.rootComponent = some c then .error task
    else if akin.isNone ∧ info.affinity = some affinity then .ok (some task)
    else .ok akin

/-- The task to reuse for a launch: one made by the same component wins over one of the same
affinity, and of several the topmost is taken. Pinned root tasks are passed over. -/
def findTask? (h : Hierarchy) (c : ComponentName) (affinity : String) (user : UserId) :
    Option NodeId :=
  let search := h.displays.reverse.foldlM (fun akin display =>
    (h.rootTasks display).foldlM (fun akin root =>
      if h.mode root = .pinned then .ok akin
      else (h.leafTasks root).foldlM (h.weighTask c affinity user) akin) akin) none
  match search with
  | .error task => some task
  | .ok akin => akin

/-- The root task with the focus on a display: the topmost one with a running activity, or the
topmost one at all. Pinned root tasks never have the focus. -/
def focusedRootTask? (h : Hierarchy) (display : NodeId) : Option NodeId :=
  let roots := (h.rootTasks display).filter fun root => h.mode root != .pinned
  (roots.find? h.hasRunningActivity).or roots.head?

/-- The nodes on the way to the focus: the focused display, its focused root task, and from the
top running activity there up to that root task. -/
def focusPath (h : Hierarchy) : List NodeId :=
  match h.topFocusedDisplay? with
  | none => []
  | some display =>
    match h.focusedRootTask? display with
    | none => [display]
    | some root =>
      match h.topRunningActivity? root with
      | none => [display, root]
      | some top => display :: root :: top :: (h.ancestors top).takeWhile (· != root)

end WindowHost.Hierarchy
