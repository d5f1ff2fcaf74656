import WindowHost.Hierarchy.Node

/-! The layout of a launch, refined by a chain of modifiers in stages. -/
namespace WindowHost

/-- The stage of a launch at which the modifiers are asked. -/
inductive LaunchPhase where
  /-- The display is being picked. -/
  | display
  /-- The bounds are estimated before the task exists. -/
  | bounds
  /-- The task is known. -/
  | taskLayout
  deriving DecidableEq, Repr

namespace LaunchPhase

def all : List LaunchPhase := [.display, .bounds, .taskLayout]

def name : LaunchPhase → String
  | .display => "display"
  | .bounds => "bounds"
  | .taskLayout => "task-layout"

end LaunchPhase

structure LaunchParams where
  display : Option DisplayId := none
  mode : WindowingMode := .undefined
  bounds : Option Rect := none
  deriving DecidableEq

/-- What every modifier of one run is told. -/
structure LayoutRequest where
  phase : LaunchPhase
  info : ActivityInfo
  task : Option TaskId := none
  sourceDisplay : Option DisplayId := none
  requestedBounds : Option Rect := none
  deriving DecidableEq

/-- What a modifier makes of the current parameters. -/
inductive Refinement where
  /-- Nothing to say. -/
  | skip
  /-- Later modifiers may refine the result. -/
  | adjust (params : LaunchParams)
  /-- The chain ends here. -/
  | settle (params : LaunchParams)

/-- What a modifier answers. One that keeps a state of its own, which no other modifier sees, is
here as a start finds it: a start asks it at most once for each phase, which the request names, so
that all its answers in one start are those of one function. -/
abbrev Modifier := LayoutRequest → LaunchParams → Refinement

/-- One question to a modifier. -/
structure ModifierCall where
  /-- The place of the modifier in its chain, from 0. -/
  index : Nat
  request : LayoutRequest
  current : LaunchParams
  deriving DecidableEq

/-- Runs the modifiers of a chain from the one at `index` on, and lists what they were asked. -/
def refineFrom (request : LayoutRequest) (current : LaunchParams) (index : Nat) :
    List Modifier → LaunchParams × List ModifierCall
  | [] => (current, [])
  | m :: ms =>
    let call : ModifierCall := { index := index, request := request, current := current }
    match m request current with
    | .settle params => (params, [call])
    | .adjust params =>
      let (result, calls) := refineFrom request params (index + 1) ms
      (result, call :: calls)
    | .skip =>
      let (result, calls) := refineFrom request current (index + 1) ms
      (result, call :: calls)

/-- Runs a whole chain. -/
def refine (chain : List Modifier) (request : LayoutRequest) (initial : LaunchParams) :
    LaunchParams × List ModifierCall :=
  refineFrom request initial 0 chain

end WindowHost
