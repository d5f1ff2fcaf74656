import WindowHost.Proofs.Run.Starts

/-! Runs of a host: visibility passes of any width, changes of the focus and starts, in any
order. -/
namespace WindowHost
variable {silent : Bool} {w : World}

/-- One thing that a host does. The keyguard may answer every pass otherwise. -/
inductive Act where
  | updateContainer (locked : DisplayId → Bool) (p : VisibilityParams) (k : NodeId)
  | updateDisplay (locked : DisplayId → Bool) (p : VisibilityParams) (display : NodeId)
  | updateAll (locked : DisplayId → Bool) (p : VisibilityParams)
  | resumeFocused (display : NodeId)
  | start (host : Host) (starter : Starter)

/-- Whether clients hear of what becomes visible. -/
def Act.notifies : Act → Bool
  | .updateContainer _ p _ | .updateDisplay _ p _ | .updateAll _ p => p.notifyClients
  | .resumeFocused _ | .start .. => true

namespace World

def act (w : World) : Act → World
  | .updateContainer locked p k => (Visibility.updateContainer locked p w k).1
  | .updateDisplay locked p display => (Visibility.updateDisplay locked p w display).1
  | .updateAll locked p => (Visibility.updateAll locked p w).1
  | .resumeFocused display => (Visibility.resumeFocused w display).1
  | .start host starter => (Start.execute host starter w).2.1

def afterActs (w : World) (acts : List Act) : World := acts.foldl act w

end World

theorem steps_act (w : World) {act : Act} (heard : act.notifies = false → silent = true) :
    Steps silent w (w.act act) := by
  cases act with
  | updateContainer locked p k => exact Visibility.steps_updateContainer heard w k
  | updateDisplay locked p display => exact Visibility.steps_updateDisplay heard w display
  | updateAll locked p => exact Visibility.steps_updateAll heard w
  | resumeFocused display => exact Visibility.steps_resumeFocused w display
  | start host starter => exact Start.steps_execute host starter w

theorem steps_afterActs (acts : List Act)
    (heard : ∀ act ∈ acts, act.notifies = false → silent = true) (w : World) :
    Steps silent w (w.afterActs acts) := by
  induction acts generalizing w with
  | nil => exact .refl
  | cons act acts ih =>
    exact (steps_act w (heard act List.mem_cons_self)).trans
      (ih (fun later member => heard later (List.mem_cons_of_mem act member)) _)

end WindowHost
