import WindowHost.Intent

/-! Activities: what is known of a component before it runs, and the record of one running
instance with its lifecycle. -/
namespace WindowHost

inductive LaunchMode where
  | multiple
  | singleTop
  | singleTask
  | singleInstance
  deriving DecidableEq, Repr

namespace LaunchMode

def all : List LaunchMode := [.multiple, .singleTop, .singleTask, .singleInstance]

def name : LaunchMode → String
  | .multiple => "multiple"
  | .singleTop => "single-top"
  | .singleTask => "single-task"
  | .singleInstance => "single-instance"

/-- Whether a matching activity on top receives the intent in place of a new instance. -/
def isSingleTopLike : LaunchMode → Bool
  | .singleTop | .singleTask => true
  | .multiple | .singleInstance => false

/-- Whether the activity always lives in a task of its own. -/
def requiresNewTask : LaunchMode → Bool
  | .singleTask | .singleInstance => true
  | .multiple | .singleTop => false

end LaunchMode

inductive ActivityType where
  | undefined
  | standard
  | home
  | recents
  | assistant
  deriving DecidableEq, Repr

namespace ActivityType

def all : List ActivityType := [.undefined, .standard, .home, .recents, .assistant]

def name : ActivityType → String
  | .undefined => "undefined"
  | .standard => "standard"
  | .home => "home"
  | .recents => "recents"
  | .assistant => "assistant"

/-- The capitalised name. -/
def label : ActivityType → String
  | .undefined => "Undefined"
  | .standard => "Standard"
  | .home => "Home"
  | .recents => "Recents"
  | .assistant => "Assistant"

end ActivityType

/-- The initial size that an activity asks for. -/
structure WindowLayout where
  width : Option Int32
  height : Option Int32
  deriving DecidableEq

/-- What is known of an activity's component. -/
structure ActivityInfo where
  component : ComponentName
  /-- The application that owns the component. -/
  uid : Uid
  launchMode : LaunchMode := .multiple
  taskAffinity : Option String := none
  type : ActivityType := .standard
  layout : Option WindowLayout := none
  translucent : Bool := false
  showWhenLocked : Bool := false
  deriving DecidableEq

/-- The affinity that tasks are matched by: the package unless the component names another. -/
def ActivityInfo.affinity (info : ActivityInfo) : String :=
  info.taskAffinity.getD info.component.package

inductive ConfigChange where
  | locale
  | orientation
  | uiMode
  | screenSize
  | smallestScreenSize
  | density
  | layoutDirection
  | windowConfiguration
  | fontScale
  deriving DecidableEq, Repr

instance : FlagKind ConfigChange where
  members := [.locale, .orientation, .uiMode, .screenSize, .smallestScreenSize, .density,
    .layoutDirection, .windowConfiguration, .fontScale]
  bit
    | .locale => 0x00000004
    | .orientation => 0x00000080
    | .uiMode => 0x00000200
    | .screenSize => 0x00000400
    | .smallestScreenSize => 0x00000800
    | .density => 0x00001000
    | .layoutDirection => 0x00002000
    | .windowConfiguration => 0x20000000
    | .fontScale => 0x40000000
  name
    | .locale => "LOCALE"
    | .orientation => "ORIENTATION"
    | .uiMode => "UI_MODE"
    | .screenSize => "SCREEN_SIZE"
    | .smallestScreenSize => "SMALLEST_SCREEN_SIZE"
    | .density => "DENSITY"
    | .layoutDirection => "LAYOUT_DIRECTION"
    | .windowConfiguration => "WINDOW_CONFIGURATION"
    | .fontScale => "FONT_SCALE"

abbrev ConfigChanges := Flags ConfigChange

inductive ActivityState where
  | initializing
  | resumed
  | paused
  | stopped
  | destroyed
  deriving DecidableEq, Repr

namespace ActivityState

def all : List ActivityState := [.initializing, .resumed, .paused, .stopped, .destroyed]

def name : ActivityState → String
  | .initializing => "initializing"
  | .resumed => "resumed"
  | .paused => "paused"
  | .stopped => "stopped"
  | .destroyed => "destroyed"

/-- The capitalised name. -/
def label : ActivityState → String
  | .initializing => "Initializing"
  | .resumed => "Resumed"
  | .paused => "Paused"
  | .stopped => "Stopped"
  | .destroyed => "Destroyed"

end ActivityState

/-- One instance of an activity. -/
structure ActivityRecord where
  info : ActivityInfo
  intent : Intent
  userId : UserId
  launchedFromUid : Uid
  launchedFromPackage : Option String := none
  state : ActivityState := .initializing
  finishing : Bool := false
  /-- Whether the host wants the activity on screen. -/
  visibleRequested : Bool := false
  visible : Bool := false
  /-- Whether the activity would be on screen if the keyguard were open. -/
  visibleIgnoringKeyguard : Bool := false
  /-- Its client has not heard yet that it became visible. -/
  clientVisibilityDeferred : Bool := false
  /-- It was started behind the current task and stays visible there. -/
  launchTaskBehind : Bool := false
  /-- Its process was asked to start. -/
  restarting : Bool := false
  /-- Its process is there. -/
  attached : Bool := false
  configChangeFlags : ConfigChanges := .empty
  /-- The changes it froze the screen for, if it ever did. -/
  frozenConfigChanges : Option ConfigChanges := none
  launchCookie : Option LaunchCookie := none
  newIntents : List Intent := []
  deriving DecidableEq

namespace ActivityRecord

/-- A fresh instance: it belongs to the user of its application. -/
def create (info : ActivityInfo) (intent : Intent) : ActivityRecord where
  info := info
  intent := intent
  userId := info.uid.userId
  launchedFromUid := info.uid

def component (r : ActivityRecord) : ComponentName := r.info.component

def launchMode (r : ActivityRecord) : LaunchMode := r.info.launchMode

def isHome (r : ActivityRecord) : Bool := r.info.type == .home

def isRunning (r : ActivityRecord) : Bool := !r.finishing && r.state != .destroyed

/-- Whether nothing behind the activity shows through. -/
def occludesParent (r : ActivityRecord) : Bool := !r.finishing && !r.info.translucent

def deliverNewIntent (r : ActivityRecord) (intent : Intent) : ActivityRecord :=
  { r with newIntents := r.newIntents ++ [intent] }

/-- Stops an activity that never got to run. -/
def cancelInitializing (r : ActivityRecord) : ActivityRecord :=
  if r.state = .initializing then { r with state := .stopped } else r

/-- Freezes the screen for more changes, on top of those it is frozen for. -/
def startFreezingScreen (r : ActivityRecord) (changes : ConfigChanges) : ActivityRecord :=
  { r with frozenConfigChanges := some ((r.frozenConfigChanges.getD .empty).union changes) }

/-- Begins to finish the activity. A second call changes nothing. -/
def finish (r : ActivityRecord) : ActivityRecord :=
  if r.finishing then r else { r with finishing := true, visibleRequested := false }

end ActivityRecord
end WindowHost
