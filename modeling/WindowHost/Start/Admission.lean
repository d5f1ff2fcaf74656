import WindowHost.Hierarchy.Navigation
import WindowHost.Start.Request

/-! Who may start what. The caller is made out, the recent tasks are frozen where that is asked
for and allowed, the preconditions are checked in a fixed order, and the policy for background
starts has the last word. -/
namespace WindowHost

/-- The caller of a start. -/
structure Caller where
  uid : Uid
  realUid : Uid
  process : Option ClientProcess

namespace StartRequest

def resolveCaller (r : StartRequest) (answers : Answers) : Caller :=
  let process := r.caller.bind answers.process?
  let uid := (r.callingUid.or (process.map ClientProcess.uid)).getD .system
  { uid := uid, realUid := r.realCallingUid.getD uid, process := process }

/-- Whether the voice session around the asking activity hands the start on: it does so inside
its own task, to another application. -/
def leavesVoiceSession (r : StartRequest) (h : Hierarchy) (info : ActivityInfo) : Bool :=
  let source := r.source? h
  let session := ((source.bind h.taskAround?).bind h.task?).bind fun t => t.voiceSession
  session.isSome && !r.intent.flags.has .newTask
    && (source.bind h.activity?).map (·.info.uid) != some info.uid

end StartRequest

namespace Start

/-- Freezes the recent tasks when the recents application asks for it and they are not frozen. -/
def engageFreeze (env : Environment) (caller : Caller) (s : Starter) (w : World) :
    Starter × World :=
  let answers := env w.calls
  let s := { s with callerIsRecents := answers.isCallerRecents caller.uid }
  if s.request.wantsFreeze && s.callerIsRecents && !answers.recentsFrozen then
    ({ s with froze := true }, w.emit .freezeRecents)
  else (s, w)

/-- What is known of the component to start: it comes with the request, or it is asked for. -/
def resolveInfo (env : Environment) (caller : Caller) (r : StartRequest) (w : World) :
    World × Option ActivityInfo :=
  match r.info with
  | some info => (w, some info)
  | none =>
    let user := caller.uid.userId
    (w.emit (.resolve r.intent user), (env w.calls).resolve? r.intent user)

/-- Asks whether a component takes an intent; a failed remote call counts as no. -/
def askSupport (env : Environment) (component : ComponentName) (intent : Intent) (w : World) :
    World × Bool :=
  let answer := match (env w.calls).supports component intent with
    | .ok supported => supported
    | .error _ => false
  (w.emit (.supports component intent), answer)

/-- Checks that a start out of a voice session can go on by voice, and marks its intent. -/
def checkVoiceSource (env : Environment) (component : ComponentName) (info : ActivityInfo)
    (r : StartRequest) (w : World) : StartRequest × World × Bool :=
  if r.leavesVoiceSession w.hierarchy info then
    let r := { r with intent := r.intent.addCategory Intent.voiceCategory }
    let (w, supported) := askSupport env component r.intent w
    (r, w, supported)
  else (r, w, true)

/-- Checks that a start into a voice session is supported. -/
def checkVoiceTarget (env : Environment) (component : ComponentName) (r : StartRequest)
    (w : World) : World × Bool :=
  if r.voiceSession.isSome then askSupport env component r.intent w else (w, true)

/-- Asks for the permission to start. -/
def askPermission (env : Environment) (caller : Caller) (info : ActivityInfo) (r : StartRequest)
    (w : World) : World × Bool :=
  let check : PermissionCheck :=
    { intent := r.intent
      info := info
      callingUid := caller.uid
      realCallingUid := caller.realUid
      callingPackage := r.callingPackage
      hasResultTo := (r.source? w.hierarchy).isSome }
  (w.emit (.permission check), (env w.calls).permits check)

/-- Checks everything that has to hold before the policy is asked. The first failure decides, and
leaves the request as far as it was filled in. -/
def checkPreconditions (env : Environment) (caller : Caller) (r : StartRequest) (w : World) :
    StartRequest × World × Except StartResult ActivityInfo :=
  if r.caller.isSome && caller.process.isNone then (r, w, .error .permissionDenied)
  else if r.intent.flags.has .forwardResult && r.wantsResult w.hierarchy then
    (r, w, .error .forwardAndRequestConflict)
  else
    match r.intent.component with
    | none => (r, w, .error .intentNotResolved)
    | some component =>
      match resolveInfo env caller r w with
      | (w, none) => (r, w, .error .classNotFound)
      | (w, some info) =>
        match checkVoiceSource env component info { r with info := some info } w with
        | (r, w, false) => (r, w, .error .notVoiceCompatible)
        | (r, w, true) =>
          match checkVoiceTarget env component r w with
          | (w, false) => (r, w, .error .notVoiceCompatible)
          | (w, true) =>
            match askPermission env caller info r w with
            | (w, false) => (r, w, .error .aborted)
            | (w, true) => (r, w, .ok info)

/-- What the policy for background starts looks at. -/
def backgroundStart (answers : Answers) (caller : Caller) (callerIsRecents : Bool)
    (h : Hierarchy) (info : ActivityInfo) : BackgroundStart where
  callingUid := caller.uid
  realCallingUid := caller.realUid
  callingImportance := answers.importance caller.uid
  callingHasVisibleWindow := answers.hasVisibleWindow caller.uid
  realCallingImportance := answers.importance caller.realUid
  realCallingHasVisibleWindow := answers.hasVisibleWindow caller.realUid
  hasForegroundActivities := caller.process.any ClientProcess.hasForegroundActivities
  hasStartToken := caller.process.any ClientProcess.hasStartToken
  isInstrumenting := caller.process.any ClientProcess.isInstrumenting
  callerIsRecents := callerIsRecents
  callerIsDeviceOwner := answers.isDeviceOwner caller.uid
  callerIsInputMethod := answers.inputMethodUid? == some caller.uid
  targetIsPinnedSingleInstance :=
    info.launchMode == .singleInstance
      && ((h.findActivity? info.component info.uid.userId).bind h.rootTaskOf?).any
        fun root => h.mode root == .pinned

end Start
end WindowHost
