import WindowHost.World

/-! Requests for a start, and the single-use starter that carries one through its start. -/
namespace WindowHost

structure LaunchOptions where
  bounds : Option Rect := none
  displayId : Option DisplayId := none
  rootTask : Option NodeId := none
  mode : WindowingMode := .undefined
  freezeRecents : Bool := false
  cookie : Option LaunchCookie := none
  /-- Start the task behind the current one and leave the focus alone. -/
  taskBehind : Bool := false
  avoidMoveToFront : Bool := false
  /-- There is a hook that releases what the caller tied to the launch, and it has not run. -/
  abortHook : Bool := false

structure StartRequest where
  caller : Option CallerToken := none
  /-- The uid of the caller's process when missing, or else the system's. -/
  callingUid : Option Uid := none
  /-- The calling uid when missing. -/
  realCallingUid : Option Uid := none
  callingPackage : Option String := none
  intent : Intent := {}
  /-- Resolved from the intent when missing. -/
  info : Option ActivityInfo := none
  /-- The activity that asks for the start and may get its result. -/
  resultTo : Option NodeId := none
  requestCode : Option Int32 := none
  voiceSession : Option VoiceSession := none
  options : Option LaunchOptions := none
  inTask : Option NodeId := none
  inFragment : Option NodeId := none
  reason : String := ""

namespace StartRequest

/-- The activity that asks for the start, if it is still there. -/
def source? (r : StartRequest) (h : Hierarchy) : Option NodeId := r.resultTo.filter h.isActivity

/-- Whether the asking activity wants a result. -/
def wantsResult (r : StartRequest) (h : Hierarchy) : Bool :=
  (r.source? h).isSome && r.requestCode.any (0 ≤ ·)

def wantsFreeze (r : StartRequest) : Bool := r.options.any LaunchOptions.freezeRecents

end StartRequest

/-- How far a starter has come. -/
inductive Progress where
  | building
  | done (result : StartResult)
  deriving DecidableEq, Repr

def Progress.text : Progress → String
  | .building => "building"
  | .done result => "done:" ++ result.name

structure Starter where
  request : StartRequest
  progress : Progress := .building
  /-- The activity that was started or brought forward. -/
  outActivity : Option NodeId := none
  /-- This start froze the recent tasks. -/
  froze : Bool := false
  callerIsRecents : Bool := false
  /-- The reused task was cleared. -/
  clearedTask : Bool := false
  /-- Whether the reused task showed anything before the start touched it. -/
  taskWasVisible : Option Bool := none
  /-- How often the abort hook has run. -/
  hookRuns : Nat := 0

namespace Starter

/-- Runs the abort hook, unless there is none or it has run. -/
def abort (s : Starter) : Starter :=
  match s.request.options with
  | some options =>
    if options.abortHook then
      { s with
        request := { s.request with options := some { options with abortHook := false } }
        hookRuns := s.hookRuns + 1 }
    else s
  | none => s

end Starter
end WindowHost
