import WindowHost.RecentTasks
import WindowHost.World

/-! A world that answers from what is registered with it, and keeps the recent tasks. -/
namespace WindowHost

structure Registry where
  /-- Of several entries for a component the first one counts; likewise below. -/
  packages : List ActivityInfo := []
  processes : List (CallerToken × ClientProcess) := []
  importance : List (Uid × ProcessImportance) := []
  visibleWindows : List Uid := []
  /-- Whether anything may be started at all. -/
  permission : Bool := true
  deniedUids : List Uid := []
  lockTaskViolation : Bool := false
  /-- Whether activities take voice intents, or the text of a failed remote call. -/
  voice : Except String Bool := .ok true
  deviceOwner : Option Uid := none
  inputMethod : Option Uid := none
  lockedDisplays : List DisplayId := []
  recents : RecentTasks

/-- What a call does to the recent tasks. -/
def RecentTasks.observe (l : RecentTasks) : Call → RecentTasks
  | .addRecent task => l.add task
  | .freezeRecents => l.freeze
  | .resetRecentsFreeze => l.resetOnTimeout
  | _ => l

/-- The recent tasks after some calls. -/
def RecentTasks.after (l : RecentTasks) (calls : List Call) : RecentTasks :=
  calls.foldl RecentTasks.observe l

namespace Registry

def register (r : Registry) (info : ActivityInfo) : Registry :=
  { r with packages := info :: r.packages }

def forget (r : Registry) (component : ComponentName) : Registry :=
  { r with packages := r.packages.filter (·.component != component) }

def resolve? (r : Registry) (intent : Intent) : Option ActivityInfo :=
  intent.component.bind fun component => r.packages.find? (·.component == component)

def answers (r : Registry) : Answers where
  process? token := r.processes.lookup token
  hasVisibleWindow uid := r.visibleWindows.contains uid
  importance uid := (r.importance.lookup uid).getD .nonExistent
  resolve? intent _ := r.resolve? intent
  permits check := r.permission && !r.deniedUids.contains check.callingUid
  supports _ _ := r.voice
  isDeviceOwner uid := r.deviceOwner == some uid
  inputMethodUid? := r.inputMethod
  violatesLockTask _ := r.lockTaskViolation
  keyguardLocked display := r.lockedDisplays.contains display
  isCallerRecents := r.recents.isCallerRecents
  recentsFrozen := r.recents.frozen

/-- The host after some calls, of which only the recent tasks keep a trace. -/
def after (r : Registry) (calls : List Call) : Registry :=
  { r with recents := r.recents.after calls }

def environment (r : Registry) : Environment := fun calls => (r.after calls).answers

end Registry
end WindowHost
