import WindowHost.Checked
import WindowHost.Flags

/-! Who launches what: users and the uids of their applications, component names, and the intents
that ask for a component. -/
namespace WindowHost

structure UserId where
  value : UInt32
  deriving DecidableEq

instance : Inhabited UserId := ⟨⟨0⟩⟩

/-- An application under one user: every user owns a block of `Uid.perUser` uids. -/
structure Uid where
  value : UInt32
  deriving DecidableEq

namespace Uid

def perUser : UInt32 := 100000

def root : Uid := ⟨0⟩
def system : Uid := ⟨1000⟩
def nfc : Uid := ⟨1027⟩

def userId (u : Uid) : UserId := ⟨u.value / perUser⟩

/-- The same application under another user. -/
def forUser (u : Uid) (user : UserId) : Except Overflow Uid := do
  let first ← Checked.multiply user.value perUser
  let value ← Checked.add first (u.value % perUser)
  return ⟨value⟩

def toText (u : Uid) : String := toString u.value.toNat

end Uid

/-- A client process as its caller names it. -/
structure CallerToken where
  value : UInt64
  deriving DecidableEq

/-- A running voice interaction. -/
structure VoiceSession where
  value : UInt64
  deriving DecidableEq

/-- A value with which a launcher recognises the activity that its launch leads to. -/
structure LaunchCookie where
  value : UInt64
  deriving DecidableEq

structure ComponentName where
  package : String
  className : String
  deriving DecidableEq

namespace ComponentName

def toText (c : ComponentName) : String := c.package ++ "/" ++ c.className

/-- By package, then by class. Strings are ordered by code points, which is the order of their
encoded bytes too. -/
def order (a b : ComponentName) : Ordering :=
  (compareOfLessAndEq a.package b.package).then (compareOfLessAndEq a.className b.className)

end ComponentName

inductive IntentFlag where
  | launchAdjacent
  | clearTask
  | noAnimation
  | reorderToFront
  | resetTaskIfNeeded
  | forwardResult
  | clearTop
  | multipleTask
  | newTask
  | singleTop
  deriving DecidableEq, Repr

instance : FlagKind IntentFlag where
  members := [.launchAdjacent, .clearTask, .noAnimation, .reorderToFront, .resetTaskIfNeeded,
    .forwardResult, .clearTop, .multipleTask, .newTask, .singleTop]
  bit
    | .launchAdjacent => 0x00001000
    | .clearTask => 0x00008000
    | .noAnimation => 0x00010000
    | .reorderToFront => 0x00020000
    | .resetTaskIfNeeded => 0x00200000
    | .forwardResult => 0x02000000
    | .clearTop => 0x04000000
    | .multipleTask => 0x08000000
    | .newTask => 0x10000000
    | .singleTop => 0x20000000
  name
    | .launchAdjacent => "LAUNCH_ADJACENT"
    | .clearTask => "CLEAR_TASK"
    | .noAnimation => "NO_ANIMATION"
    | .reorderToFront => "REORDER_TO_FRONT"
    | .resetTaskIfNeeded => "RESET_TASK_IF_NEEDED"
    | .forwardResult => "FORWARD_RESULT"
    | .clearTop => "CLEAR_TOP"
    | .multipleTask => "MULTIPLE_TASK"
    | .newTask => "NEW_TASK"
    | .singleTop => "SINGLE_TOP"

abbrev IntentFlags := Flags IntentFlag

inductive Extra where
  | text (key value : String)
  | fileDescriptor (key : String) (descriptor : Int32)
  deriving DecidableEq

def Extra.isFileDescriptor : Extra → Bool
  | .text .. => false
  | .fileDescriptor .. => true

structure Intent where
  component : Option ComponentName := none
  flags : IntentFlags := .empty
  categories : List String := []
  data : Option String := none
  extras : List Extra := []
  deriving DecidableEq

instance : Inhabited Intent := ⟨{}⟩

namespace Intent

/-- The category that an intent carries when its target is asked about voice interaction. -/
def voiceCategory : String := "category.VOICE"

def ofComponent (c : ComponentName) : Intent := { component := some c }

def withFlags (i : Intent) (flags : IntentFlags) : Intent := { i with flags := i.flags.union flags }

def hasFileDescriptors (i : Intent) : Bool := i.extras.any Extra.isFileDescriptor

def hasCategory (i : Intent) (category : String) : Bool := i.categories.contains category

/-- Adds a category at the end unless it is there already. -/
def addCategory (i : Intent) (category : String) : Intent :=
  if i.hasCategory category then i else { i with categories := i.categories ++ [category] }

/-- Whether two intents address the same thing: flags and extras play no part, while the order
of the categories does. -/
def addressesSame (i j : Intent) : Bool :=
  i.component == j.component && i.data == j.data && i.categories == j.categories

end Intent
end WindowHost
