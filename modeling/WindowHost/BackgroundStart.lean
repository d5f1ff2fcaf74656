import WindowHost.Intent

/-! The policy for starts that come from applications the user is not looking at. A start passes
for the first reason that holds. -/
namespace WindowHost

/-- How important a process is, most important first. -/
inductive ProcessImportance where
  | persistent
  /-- It hosts the activity that the user interacts with. -/
  | top
  | boundTop
  | foregroundService
  | service
  | cached
  | nonExistent
  deriving DecidableEq, Repr

namespace ProcessImportance

def all : List ProcessImportance :=
  [.persistent, .top, .boundTop, .foregroundService, .service, .cached, .nonExistent]

def name : ProcessImportance → String
  | .persistent => "persistent"
  | .top => "top"
  | .boundTop => "bound-top"
  | .foregroundService => "foreground-service"
  | .service => "service"
  | .cached => "cached"
  | .nonExistent => "non-existent"

end ProcessImportance

/-- What the policy looks at. By default a caller has nothing in its favour. -/
structure BackgroundStart where
  callingUid : Uid
  realCallingUid : Uid
  callingImportance : ProcessImportance := .nonExistent
  callingHasVisibleWindow : Bool := false
  realCallingImportance : ProcessImportance := .nonExistent
  realCallingHasVisibleWindow : Bool := false
  hasForegroundActivities : Bool := false
  callerIsRecents : Bool := false
  hasStartToken : Bool := false
  isInstrumenting : Bool := false
  callerIsDeviceOwner : Bool := false
  callerIsInputMethod : Bool := false
  /-- The start would land on a single-instance activity in a pinned root task. -/
  targetIsPinnedSingleInstance : Bool := false

inductive AllowReason where
  | startsEnabled
  | pinnedSingleInstance
  | privilegedUid
  | topProcess
  | visibleWindow
  | foregroundActivities
  | recents
  | startToken
  | instrumentation
  | deviceOwner
  | inputMethod
  deriving DecidableEq, Repr

def AllowReason.text : AllowReason → String
  | .startsEnabled => "background starts enabled"
  | .pinnedSingleInstance => "pinned single instance target"
  | .privilegedUid => "privileged uid"
  | .topProcess => "top process"
  | .visibleWindow => "visible window"
  | .foregroundActivities => "foreground activities"
  | .recents => "recents"
  | .startToken => "background start token"
  | .instrumentation => "instrumentation"
  | .deviceOwner => "device owner"
  | .inputMethod => "input method"

/-- The uids of the system itself, under any user. -/
def Uid.isPrivileged (u : Uid) : Bool :=
  let app : Uid := ⟨u.value % perUser⟩
  app == root || app == system || app == nfc

namespace BackgroundStart

/-- Whether a reason holds, given whether starts from the background are enabled at all. -/
def holds (q : BackgroundStart) (startsEnabled : Bool) : AllowReason → Bool
  | .startsEnabled => startsEnabled
  | .pinnedSingleInstance => q.targetIsPinnedSingleInstance
  | .privilegedUid => q.callingUid.isPrivileged || q.realCallingUid.isPrivileged
  | .topProcess => q.callingImportance == .top || q.realCallingImportance == .top
  | .visibleWindow => q.callingHasVisibleWindow || q.realCallingHasVisibleWindow
  | .foregroundActivities => q.hasForegroundActivities
  | .recents => q.callerIsRecents
  | .startToken => q.hasStartToken
  | .instrumentation => q.isInstrumenting
  | .deviceOwner => q.callerIsDeviceOwner
  | .inputMethod => q.callerIsInputMethod

/-- The reasons in the order in which they are looked at. -/
def reasons : List AllowReason :=
  [.startsEnabled, .pinnedSingleInstance, .privilegedUid, .topProcess, .visibleWindow,
    .foregroundActivities, .recents, .startToken, .instrumentation, .deviceOwner, .inputMethod]

/-- The reason for which a start passes, or nothing if it is aborted. -/
def allowReason? (q : BackgroundStart) (startsEnabled : Bool) : Option AllowReason :=
  reasons.find? (q.holds startsEnabled)

end BackgroundStart
end WindowHost
