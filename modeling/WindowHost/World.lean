import WindowHost.Hierarchy.Basic
import WindowHost.LaunchParams
import WindowHost.BackgroundStart
import WindowHost.Start.Outcome

/-! The host and the world around it. What lies outside the host (processes, packages, recent
tasks, lock task policy, metrics and the keyguard) answers questions and is told things; all calls
that it could act on are recorded in order. -/
namespace WindowHost

/-- The process of a client that asks for a start. -/
structure ClientProcess where
  uid : Uid
  hasForegroundActivities : Bool := false
  hasStartToken : Bool := false
  isInstrumenting : Bool := false

/-- A message to the client that hosts an activity. -/
inductive Transaction where
  | configuration (preserveWindows : Bool)
  | visibility (shown : Bool)
  | makeActive
  | resume
  | pause
  | stop
  | newIntent
  deriving DecidableEq, Repr

def Transaction.name : Transaction → String
  | .configuration false => "configuration"
  | .configuration true => "configuration-preserve"
  | .visibility true => "show"
  | .visibility false => "hide"
  | .makeActive => "make-active"
  | .resume => "resume"
  | .pause => "pause"
  | .stop => "stop"
  | .newIntent => "new-intent"

/-- What the check of the permission to start is told. -/
structure PermissionCheck where
  intent : Intent
  info : ActivityInfo
  callingUid : Uid
  realCallingUid : Uid
  callingPackage : Option String
  hasResultTo : Bool
  deriving DecidableEq

structure StartLog where
  reason : String
  callingUid : Uid
  callingPackage : Option String
  realCallingUid : Uid
  component : ComponentName
  /-- The policy for background starts stopped it. -/
  aborted : Bool
  deriving DecidableEq

structure Launched where
  result : StartResult
  newActivityCreated : Bool
  activity : Option NodeId
  component : Option ComponentName
  hasOptions : Bool
  deriving DecidableEq

/-- An existing task was brought forward or given a new intent. -/
structure RestartAttempt where
  task : TaskId
  homeVisible : Bool
  clearedTask : Bool
  /-- The task showed a running activity before the launch touched it. -/
  wasVisible : Bool
  deriving DecidableEq

/-- A call to the world around the host. -/
inductive Call where
  | resolve (intent : Intent) (user : UserId)
  | permission (check : PermissionCheck)
  | supports (component : ComponentName) (intent : Intent)
  | startProcess (activity : NodeId) (andResume checkConfig : Bool)
  | transaction (activity : NodeId) (t : Transaction)
  | addRecent (task : TaskId)
  | freezeRecents
  | resetRecentsFreeze
  | logStart (entry : StartLog)
  | launched (report : Launched)
  | restart (attempt : RestartAttempt)
  | modifier (call : ModifierCall)
  deriving DecidableEq

/-- The activity that a call is about, where it names one. -/
def Call.activity? : Call → Option NodeId
  | .startProcess k .. => some k
  | .transaction k _ => some k
  | .launched report => report.activity
  | _ => none

/-- How the world answers. The default answers know no processes or packages and grant every
permission. -/
structure Answers where
  process? : CallerToken → Option ClientProcess := fun _ => none
  hasVisibleWindow : Uid → Bool := fun _ => false
  importance : Uid → ProcessImportance := fun _ => .nonExistent
  resolve? : Intent → UserId → Option ActivityInfo := fun _ _ => none
  permits : PermissionCheck → Bool := fun _ => true
  /-- Whether an activity takes an intent, or the text of a failed remote call. -/
  supports : ComponentName → Intent → Except String Bool := fun _ _ => .ok true
  isDeviceOwner : Uid → Bool := fun _ => false
  inputMethodUid? : Option Uid := none
  violatesLockTask : ActivityRecord → Bool := fun _ => false
  keyguardLocked : DisplayId → Bool := fun _ => false
  isCallerRecents : Uid → Bool := fun _ => false
  recentsFrozen : Bool := false

/-- The answers may change with the calls so far. -/
abbrev Environment := List Call → Answers

/-- The hierarchy, and the calls so far, first call first. -/
structure World where
  hierarchy : Hierarchy
  calls : List Call := []

namespace World

def emit (w : World) (call : Call) : World := { w with calls := w.calls ++ [call] }

def send (w : World) (activity : NodeId) (t : Transaction) : World :=
  w.emit (.transaction activity t)

def modifyActivity (w : World) (k : NodeId) (f : ActivityRecord → ActivityRecord) : World :=
  { w with hierarchy := w.hierarchy.modifyActivity k f }

end World
end WindowHost
