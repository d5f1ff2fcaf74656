/-! How a start ends: the results with their numeric codes, and the two misuses of a starter that
are errors. -/
namespace WindowHost

inductive StartResult where
  | success
  | taskToFront
  | deliveredToTop
  | canceled
  | aborted
  | intentNotResolved
  | classNotFound
  | forwardAndRequestConflict
  | notVoiceCompatible
  | permissionDenied
  | lockTaskModeViolation
  deriving DecidableEq, Repr

namespace StartResult

def all : List StartResult :=
  [.success, .taskToFront, .deliveredToTop, .canceled, .aborted, .intentNotResolved,
    .classNotFound, .forwardAndRequestConflict, .notVoiceCompatible, .permissionDenied,
    .lockTaskModeViolation]

def code : StartResult → Int32
  | .success => 0
  | .taskToFront => 2
  | .deliveredToTop => 3
  | .canceled => -96
  | .aborted => 102
  | .intentNotResolved => -91
  | .classNotFound => -92
  | .forwardAndRequestConflict => -93
  | .notVoiceCompatible => -97
  | .permissionDenied => -94
  | .lockTaskModeViolation => 101

def ofCode? (code : Int32) : Option StartResult := all.find? fun r => r.code == code

/-- Codes from 0 to 99 mean that something was started or brought forward. -/
def isSuccessful (r : StartResult) : Bool := 0 ≤ r.code && r.code < 100

def name : StartResult → String
  | .success => "success"
  | .taskToFront => "task-to-front"
  | .deliveredToTop => "delivered-to-top"
  | .canceled => "canceled"
  | .aborted => "aborted"
  | .intentNotResolved => "intent-not-resolved"
  | .classNotFound => "class-not-found"
  | .forwardAndRequestConflict => "forward-and-request-conflict"
  | .notVoiceCompatible => "not-voice-compatible"
  | .permissionDenied => "permission-denied"
  | .lockTaskModeViolation => "lock-task-mode-violation"

def text (r : StartResult) : String := r.name ++ " (" ++ toString r.code.toInt ++ ")"

/-- What a caller gets to see that only needs a yes or no. A blocked start is a success to it, so
that it cannot tell that it was blocked. -/
def external : StartResult → StartResult
  | .success | .taskToFront | .deliveredToTop | .aborted => .success
  | r => r

end StartResult

inductive StartError where
  | fileDescriptorsInIntent
  | alreadyExecuted
  deriving DecidableEq, Repr

def StartError.message : StartError → String
  | .fileDescriptorsInIntent => "file descriptors passed in intent"
  | .alreadyExecuted => "launch request was already executed"

end WindowHost
