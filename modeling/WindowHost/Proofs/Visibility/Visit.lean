import WindowHost.Proofs.Visibility.View

/-! What one visit does, read off the record of the activity alone: the record afterwards, and the
calls. -/
namespace WindowHost

theorem Hierarchy.ext_node? {h h' : Hierarchy} (next : h.nodes.next = h'.nodes.next)
    (displays : h.displays = h'.displays) (taskId : h.nextTaskId = h'.nextTaskId)
    (nodes : ∀ k, h.node? k = h'.node? k) : h = h' := by
  have same : h.nodes = h'.nodes := Arena.ext_get? next fun i => nodes ⟨i⟩
  cases h
  cases h'
  simp_all

/-- Writes the record of an activity and makes calls. -/
def World.put (w : World) (k : NodeId) (r : ActivityRecord) (calls : List Call) : World where
  hierarchy := w.hierarchy.modifyActivity k fun _ => r
  calls := w.calls ++ calls

theorem Hierarchy.activity?_eq_some_iff {h : Hierarchy} {k : NodeId} {r : ActivityRecord} :
    h.activity? k = some r ↔ ∃ n, h.node? k = some n ∧ n.data = .activity r := by
  cases held : h.node? k with
  | none => simp [activity?, data?, held]
  | some n => cases kind : n.data <;> simp [activity?, data?, held, kind, NodeData.activity?]

namespace World
variable {w : World} {k : NodeId} {r : ActivityRecord} {calls : List Call}

theorem node?_put (w : World) (k : NodeId) (r : ActivityRecord) (calls : List Call) (j : NodeId) :
    (w.put k r calls).hierarchy.node? j = if j = k then (w.hierarchy.node? j).map fun n =>
      { n with data := n.data.mapActivity fun _ => r } else w.hierarchy.node? j :=
  Hierarchy.node?_modify ..

/-- Worlds with the same counters and calls are known by their nodes. -/
theorem eq_of_node? {w w' : World} (next : w.hierarchy.nodes.next = w'.hierarchy.nodes.next)
    (displays : w.hierarchy.displays = w'.hierarchy.displays)
    (taskId : w.hierarchy.nextTaskId = w'.hierarchy.nextTaskId) (calls : w.calls = w'.calls)
    (nodes : ∀ k, w.hierarchy.node? k = w'.hierarchy.node? k) : w = w' := by
  have same := Hierarchy.ext_node? next displays taskId nodes
  cases w
  cases w'
  simp_all

theorem activity?_put (held : w.hierarchy.activity? k = some r) (r' : ActivityRecord)
    (calls : List Call) : (w.put k r' calls).hierarchy.activity? k = some r' := by
  obtain ⟨n, found, kind⟩ := Hierarchy.activity?_eq_some_iff.mp held
  refine Hierarchy.activity?_eq_some_iff.mpr ⟨{ n with data := .activity r' }, ?_, rfl⟩
  rw [node?_put, if_pos rfl, found, Option.map_some, kind]
  rfl

theorem node?_put_of_ne {j : NodeId} (other : j ≠ k) (w : World) (r : ActivityRecord)
    (calls : List Call) : (w.put k r calls).hierarchy.node? j = w.hierarchy.node? j := by
  rw [node?_put, if_neg other]

theorem activity?_put_of_ne {j : NodeId} (other : j ≠ k) (w : World) (r : ActivityRecord)
    (calls : List Call) : (w.put k r calls).hierarchy.activity? j = w.hierarchy.activity? j := by
  rw [Hierarchy.activity?, Hierarchy.activity?, Hierarchy.data?, Hierarchy.data?,
    node?_put_of_ne other]

theorem activity?_put_cases {j : NodeId} {r' a : ActivityRecord} {calls : List Call}
    (held : w.hierarchy.activity? k = some r)
    (found : (w.put k r' calls).hierarchy.activity? j = some a) :
    j = k ∧ a = r' ∨ j ≠ k ∧ w.hierarchy.activity? j = some a := by
  by_cases here : j = k
  · rw [here, activity?_put held, Option.some.injEq] at found
    exact .inl ⟨here, found.symm⟩
  · rw [activity?_put_of_ne here] at found
    exact .inr ⟨here, found⟩

theorem put_put (w : World) (k : NodeId) (r r' : ActivityRecord) (calls calls' : List Call) :
    (w.put k r calls).put k r' calls' = w.put k r' (calls ++ calls') := by
  have next : ∀ w r calls, (World.put w k r calls).hierarchy.nodes.next = w.hierarchy.nodes.next :=
    fun _ _ _ => Arena.next_modify ..
  refine eq_of_node? ?_ rfl rfl (List.append_assoc ..) fun j => ?_
  · rw [next, next, next]
  · rw [node?_put, node?_put, node?_put]
    split
    · rw [Option.map_map]
      congr 1
      funext n
      cases kind : n.data <;> simp [kind, NodeData.mapActivity]
    · rfl

theorem modifyActivity_eq_put (held : w.hierarchy.activity? k = some r)
    (f : ActivityRecord → ActivityRecord) : w.modifyActivity k f = w.put k (f r) [] := by
  obtain ⟨n, found, kind⟩ := Hierarchy.activity?_eq_some_iff.mp held
  refine eq_of_node? ?_ rfl rfl (List.append_nil _).symm fun j => ?_
  · exact (Arena.next_modify ..).trans (Arena.next_modify ..).symm
  · rw [node?_put]
    refine (Hierarchy.node?_modify ..).trans ?_
    split
    · rename_i same
      subst same
      rw [found, Option.map_some, Option.map_some, kind]
      rfl
    · rfl

theorem put_self (held : w.hierarchy.activity? k = some r) (calls : List Call) :
    w.put k r calls = { w with calls := w.calls ++ calls } := by
  obtain ⟨n, found, kind⟩ := Hierarchy.activity?_eq_some_iff.mp held
  refine eq_of_node? (Arena.next_modify ..) rfl rfl rfl ?_
  intro j
  rw [node?_put]
  split
  · rename_i same
    subst same
    cases n
    cases kind
    rw [found]
    rfl
  · rfl

theorem emit_eq_put (held : w.hierarchy.activity? k = some r) (call : Call) :
    w.emit call = w.put k r [call] :=
  (put_self held [call]).symm

theorem emit_put (w : World) (k : NodeId) (r : ActivityRecord) (calls : List Call) (call : Call) :
    (w.put k r calls).emit call = w.put k r (calls ++ [call]) := by
  simp [put, emit]

theorem send_put (w : World) (k : NodeId) (r : ActivityRecord) (calls : List Call) (j : NodeId)
    (t : Transaction) : (w.put k r calls).send j t = w.put k r (calls ++ [.transaction j t]) :=
  emit_put ..

end World

theorem Hierarchy.activityHas_of_activity? {h : Hierarchy} {k : NodeId} {r : ActivityRecord}
    (held : h.activity? k = some r) (p : ActivityRecord → Bool) : h.activityHas p k = p r := by
  simp [activityHas, held]

namespace Visibility

/-- What becomes of an activity in one step: its record afterwards, and the calls. -/
structure Turn where
  record : ActivityRecord
  calls : List Call := []

namespace Turn

def makeActive (k : NodeId) (r : ActivityRecord) : Turn :=
  if r.visibleRequested && r.state == .stopped then
    { record := { r with state := .paused }, calls := [.transaction k .makeActive] }
  else { record := r }

def reveal (p : VisibilityParams) (k : NodeId) (r : ActivityRecord) : Turn :=
  if p.starting = some k || r.state == .resumed then { record := r }
  else if p.notifyClients then
    let t := makeActive k { r with visibleRequested := true, clientVisibilityDeferred := false }
    { t with calls := .transaction k (.visibility true) :: t.calls }
  else { record := { r with visibleRequested := true, clientVisibilityDeferred := true } }

def refresh (p : VisibilityParams) (k : NodeId) (r : ActivityRecord) : Turn :=
  if p.notifyClients then
    let t := makeActive k r
    { t with record := { t.record with clientVisibilityDeferred := false } }
  else { record := r }

def hide (k : NodeId) (r : ActivityRecord) : Turn :=
  if r.visibleRequested then
    let hidden := { r with visibleRequested := false, clientVisibilityDeferred := false }
    if r.state = .resumed ∨ r.state = .paused then
      { record := { hidden with state := .stopped }
        calls := [.transaction k (.visibility false), .transaction k .stop] }
    else { record := hidden, calls := [.transaction k (.visibility false)] }
  else { record := r }

def restart (p : VisibilityParams) (changes : ConfigChanges) (isTop andResume : Bool) (k : NodeId)
    (r : ActivityRecord) : Turn :=
  if !isTop && r.visibleRequested && r.state != .initializing then { record := r }
  else if p.starting = some k then { record := { r with visibleRequested := true } }
  else
    { record := { r.startFreezingScreen changes with visibleRequested := true, restarting := true }
      calls := [.startProcess k andResume true] }

end Turn

section
variable {p : VisibilityParams} {w : World} {k : NodeId} {r : ActivityRecord}

theorem makeActive_eq_put (held : w.hierarchy.activity? k = some r) :
    makeActive w k = w.put k (Turn.makeActive k r).record (Turn.makeActive k r).calls := by
  unfold makeActive Turn.makeActive
  rw [Hierarchy.activityHas_of_activity? held]
  split
  · rw [World.modifyActivity_eq_put held, World.send_put]
    rfl
  · exact (World.put_self held []).symm ▸ (by simp)

theorem makeActive_put (held : w.hierarchy.activity? k = some r) (r' : ActivityRecord)
    (calls : List Call) : makeActive (w.put k r' calls) k =
      w.put k (Turn.makeActive k r').record (calls ++ (Turn.makeActive k r').calls) := by
  rw [makeActive_eq_put (World.activity?_put held r' calls), World.put_put]

theorem hide_eq_put (held : w.hierarchy.activity? k = some r) :
    hide w k = w.put k (Turn.hide k r).record (Turn.hide k r).calls := by
  unfold hide Turn.hide
  rw [held]
  dsimp only
  split
  · rw [World.modifyActivity_eq_put held, World.send_put]
    split
    · rw [World.modifyActivity_eq_put (World.activity?_put held ..), World.put_put, World.send_put]
      rfl
    · rfl
  · simp [World.put_self held]

theorem restart_eq_put (held : w.hierarchy.activity? k = some r) (changes : ConfigChanges)
    (isTop andResume : Bool) : restart p changes isTop andResume w k =
      w.put k (Turn.restart p changes isTop andResume k r).record
        (Turn.restart p changes isTop andResume k r).calls := by
  unfold restart Turn.restart
  rw [held]
  dsimp only
  split
  · simp [World.put_self held]
  · split
    · exact World.modifyActivity_eq_put held _
    · rw [World.modifyActivity_eq_put held, World.emit_put]
      rfl

theorem refresh_eq_put (held : w.hierarchy.activity? k = some r) :
    refresh p w k = w.put k (Turn.refresh p k r).record (Turn.refresh p k r).calls := by
  unfold refresh Turn.refresh
  split
  · rw [makeActive_eq_put held, World.modifyActivity_eq_put (World.activity?_put held ..),
      World.put_put, List.append_nil]
  · simp [World.put_self held]

theorem reveal_eq_put (held : w.hierarchy.activity? k = some r) :
    reveal p w k = w.put k (Turn.reveal p k r).record (Turn.reveal p k r).calls := by
  unfold reveal Turn.reveal
  rw [Hierarchy.activityHas_of_activity? held]
  dsimp only
  split
  · simp [World.put_self held]
  · split
    · rw [World.modifyActivity_eq_put held, World.send_put, makeActive_put held]
      rfl
    · exact World.modifyActivity_eq_put held _

end

/-- What a walk finds about an activity that it comes to. -/
structure Verdict where
  activity : NodeId
  /-- Nothing hides it, the keyguard aside. -/
  uncovered : Bool
  /-- Its container is to be seen, and the keyguard lets it through. -/
  admitted : Bool
  isTop : Bool
  resumes : Bool
  /-- The configuration changes so far. -/
  changes : ConfigChanges

namespace Verdict

def visible (v : Verdict) : Bool := v.uncovered && v.admitted

/-- What is noted in the record, whatever follows. -/
def note (v : Verdict) (r : ActivityRecord) : ActivityRecord :=
  let r := { r with visibleIgnoringKeyguard := v.uncovered }
  if v.uncovered then r else r.cancelInitializing

def present (p : VisibilityParams) (v : Verdict) (r : ActivityRecord) : Turn :=
  if !r.attached then Turn.restart p v.changes v.isTop v.resumes v.activity r
  else if r.visibleRequested then Turn.refresh p v.activity r
  else Turn.reveal p v.activity r

/-- The news of the configuration. -/
def told (p : VisibilityParams) (v : Verdict) : List Call :=
  if p.notifyClients && p.starting != some v.activity then
    [.transaction v.activity (.configuration p.preserveWindows)]
  else []

def turn (p : VisibilityParams) (v : Verdict) (r : ActivityRecord) : Turn :=
  if v.visible then
    if r.finishing then { record := v.note r }
    else
      let t := v.present p (v.note r)
      { t with calls := v.told p ++ t.calls }
  else Turn.hide v.activity (v.note r)

/-- Carries out a verdict; nothing becomes of a stale key. -/
def apply (p : VisibilityParams) (w : World) (v : Verdict) : World :=
  match w.hierarchy.activity? v.activity with
  | some r => w.put v.activity (v.turn p r).record (v.turn p r).calls
  | none => w

end Verdict

end Visibility
end WindowHost
