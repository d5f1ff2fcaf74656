import WindowHost.Proofs.Hierarchy.Records
import WindowHost.Proofs.Visibility.Passes

/-! How the focus passes on a display. Every other activity of the display gives it up, and the top
running activity of the focused root task takes it. -/
namespace WindowHost

/-- The record without what a change of the focus may write. -/
def ActivityRecord.unfocused (r : ActivityRecord) : ActivityRecord :=
  { r with state := .stopped, restarting := false }

namespace Visibility
open Hierarchy
variable {w : World} {k top display : NodeId} {r : ActivityRecord}

namespace Turn

def yieldFocus (k : NodeId) (r : ActivityRecord) : Turn :=
  if r.state = .resumed then
    if r.visibleRequested then
      { record := { r with state := .paused }, calls := [.transaction k .pause] }
    else { record := { r with state := .stopped }, calls := [.transaction k .stop] }
  else { record := r }

def takeFocus (k : NodeId) (r : ActivityRecord) : Turn :=
  if r.attached then
    if r.state = .resumed then { record := r }
    else { record := { r with state := .resumed }, calls := [.transaction k .resume] }
  else if r.restarting then { record := r }
  else { record := { r with restarting := true }, calls := [.startProcess k true true] }

theorem still_yieldFocus : (yieldFocus k r).record.still = r.still := by
  unfold yieldFocus
  split
  · split <;> simp_all [ActivityRecord.still]
  · rfl

theorem unfocused_yieldFocus : (yieldFocus k r).record.unfocused = r.unfocused := by
  unfold yieldFocus
  split
  · split <;> rfl
  · rfl

theorem unfocused_takeFocus : (takeFocus k r).record.unfocused = r.unfocused := by
  unfold takeFocus
  split
  · split <;> rfl
  split <;> rfl

theorem still_takeFocus (runs : r.isRunning = true) : (takeFocus k r).record.still = r.still := by
  have lives : r.state ≠ .destroyed := by
    rintro gone
    simp [ActivityRecord.isRunning, gone] at runs
  unfold takeFocus
  split
  · split
    · rfl
    · simp [ActivityRecord.still, lives]
  split <;> rfl

end Turn

theorem yieldFocus_eq_put (held : w.hierarchy.activity? k = some r) :
    yieldFocus w k = w.put k (Turn.yieldFocus k r).record (Turn.yieldFocus k r).calls := by
  unfold yieldFocus Turn.yieldFocus
  rw [held]
  dsimp only
  split
  · split <;> rw [World.modifyActivity_eq_put held, World.send_put] <;> rfl
  · simp [World.put_self held]

theorem takeFocus_eq_put (held : w.hierarchy.activity? k = some r) :
    takeFocus w k = w.put k (Turn.takeFocus k r).record (Turn.takeFocus k r).calls := by
  unfold takeFocus Turn.takeFocus
  rw [held]
  dsimp only
  split
  · split
    · simp [World.put_self held]
    · rw [World.modifyActivity_eq_put held, World.send_put]
      rfl
  split
  · simp [World.put_self held]
  · rw [World.modifyActivity_eq_put held, World.emit_put]
    rfl

theorem yieldFocus_of_absent (absent : w.hierarchy.activity? k = none) : yieldFocus w k = w := by
  simp [yieldFocus, absent]

theorem node?_yieldFocus_of_ne {j : NodeId} (other : k ≠ j) (w : World) :
    (yieldFocus w j).hierarchy.node? k = w.hierarchy.node? k := by
  cases held : w.hierarchy.activity? j with
  | none => rw [yieldFocus_of_absent held]
  | some r => rw [yieldFocus_eq_put held, World.node?_put_of_ne other]

theorem node?_foldl_yieldFocus {ks : List NodeId} (aside : k ∉ ks) (w : World) :
    (ks.foldl yieldFocus w).hierarchy.node? k = w.hierarchy.node? k := by
  induction ks generalizing w with
  | nil => rfl
  | cons j ks ih =>
    obtain ⟨other, aside⟩ := List.ne_and_not_mem_of_not_mem_cons aside
    exact (ih aside _).trans (node?_yieldFocus_of_ne other w)

theorem activity?_foldl_yieldFocus {ks : List NodeId} (aside : k ∉ ks) (w : World) :
    (ks.foldl yieldFocus w).hierarchy.activity? k = w.hierarchy.activity? k := by
  rw [activity?, activity?, data?, data?, node?_foldl_yieldFocus aside]

theorem calls_foldl_yieldFocus (ks : List NodeId) (w : World) :
    w.calls <+: (ks.foldl yieldFocus w).calls := by
  have single : ∀ (w : World) k, w.calls <+: (yieldFocus w k).calls := by
    intro w k
    cases held : w.hierarchy.activity? k with
    | none => exact ⟨[], by rw [List.append_nil, yieldFocus_of_absent held]⟩
    | some r =>
      rw [yieldFocus_eq_put held]
      exact List.prefix_append ..
  induction ks generalizing w with
  | nil => exact List.prefix_refl _
  | cons k ks ih => exact (single w k).trans (ih _)

/-- The activity that is to have the focus on a display. -/
def focusOf? (h : Hierarchy) (display : NodeId) : Option NodeId :=
  (h.focusedRootTask? display).bind h.topRunningActivity?

/-- The other activities of a display. -/
def rivals (h : Hierarchy) (display top : NodeId) : List NodeId :=
  ((h.rootTasks display).flatMap h.activities).filter (· != top)

theorem focusedRootTask?_congr {h h' : Hierarchy} (same : SameView h h') (display : NodeId) :
    h'.focusedRootTask? display = h.focusedRootTask? display := by
  have runs : h'.hasRunningActivity = h.hasRunningActivity := funext same.hasRunningActivity
  simp only [focusedRootTask?, same.rootTasks, same.mode, runs]

theorem focusOf?_congr {h h' : Hierarchy} (same : SameView h h') (display : NodeId) :
    focusOf? h' display = focusOf? h display := by
  have tops : h'.topRunningActivity? = h.topRunningActivity? := funext same.topRunningActivity?
  rw [focusOf?, focusOf?, focusedRootTask?_congr same, tops]

theorem not_mem_rivals (h : Hierarchy) (display top : NodeId) : top ∉ rivals h display top := by
  simp [rivals]

theorem isRunning_of_focusOf? (focus : focusOf? w.hierarchy display = some top) :
    ∃ r, w.hierarchy.activity? top = some r ∧ r.isRunning = true := by
  obtain ⟨root, _, found⟩ := Option.bind_eq_some_iff.mp focus
  exact exists_of_topRunningActivity? found

theorem resumeFocused_of_none (empty : focusOf? w.hierarchy display = none) :
    (resumeFocused w display).1 = w := by
  unfold resumeFocused
  dsimp only
  rw [show (w.hierarchy.focusedRootTask? display).bind w.hierarchy.topRunningActivity? = none
    from empty]

/-- Once the rivals have given way, the activity takes the focus if it is wanted on screen. -/
theorem resumeFocused_of_some (focus : focusOf? w.hierarchy display = some top)
    (held : w.hierarchy.activity? top = some r) :
    let yielded := (rivals w.hierarchy display top).foldl yieldFocus w
    (resumeFocused w display).1 = if r.visibleRequested then
      yielded.put top (Turn.takeFocus top r).record (Turn.takeFocus top r).calls else yielded := by
  intro yielded
  have kept : yielded.hierarchy.activity? top = some r :=
    (activity?_foldl_yieldFocus (not_mem_rivals w.hierarchy display top) w).trans held
  unfold resumeFocused
  dsimp only
  rw [show (w.hierarchy.focusedRootTask? display).bind w.hierarchy.topRunningActivity? = some top
    from focus]
  change (if yielded.hierarchy.activityHas (·.visibleRequested) top then
    (takeFocus yielded top, some top) else (yielded, none)).1 = _
  rw [activityHas_of_activity? kept, takeFocus_eq_put kept]
  split <;> rfl

theorem sameView_foldl_yieldFocus (ks : List NodeId) (w : World) :
    SameView w.hierarchy (ks.foldl yieldFocus w).hierarchy := by
  have single : ∀ (w : World) k, SameView w.hierarchy (yieldFocus w k).hierarchy := by
    intro w k
    cases held : w.hierarchy.activity? k with
    | none =>
      rw [yieldFocus_of_absent held]
      exact .refl _
    | some r =>
      rw [yieldFocus_eq_put held]
      exact sameView_put held Turn.still_yieldFocus
  induction ks generalizing w with
  | nil => exact .refl _
  | cons k ks ih => exact (single w k).trans (ih _)

/-- Passing the focus on changes nothing that a pass sees. -/
theorem sameView_resumeFocused (w : World) (display : NodeId) :
    SameView w.hierarchy (resumeFocused w display).1.hierarchy := by
  cases focus : focusOf? w.hierarchy display with
  | none =>
    rw [resumeFocused_of_none focus]
    exact .refl _
  | some top =>
    obtain ⟨r, held, runs⟩ := isRunning_of_focusOf? focus
    have yielded := sameView_foldl_yieldFocus (rivals w.hierarchy display top) w
    have kept := (activity?_foldl_yieldFocus (not_mem_rivals w.hierarchy display top) w).trans held
    rw [resumeFocused_of_some focus held]
    split
    · exact yielded.trans (sameView_put kept (Turn.still_takeFocus runs))
    · exact yielded

theorem unfocused_put {t : ActivityRecord} {calls : List Call}
    (held : w.hierarchy.activity? k = some r) (same : t.unfocused = r.unfocused) (j : NodeId) :
    ((w.put k t calls).hierarchy.activity? j).map ActivityRecord.unfocused =
      (w.hierarchy.activity? j).map ActivityRecord.unfocused := by
  by_cases here : j = k
  · rw [here, World.activity?_put held, held, Option.map_some, Option.map_some, same]
  · rw [World.activity?_put_of_ne here]

theorem unfocused_foldl_yieldFocus (ks : List NodeId) (j : NodeId) : ∀ w : World,
    ((ks.foldl yieldFocus w).hierarchy.activity? j).map ActivityRecord.unfocused =
      (w.hierarchy.activity? j).map ActivityRecord.unfocused := by
  induction ks with
  | nil => exact fun _ => rfl
  | cons k ks ih =>
    intro w
    refine (ih _).trans ?_
    cases held : w.hierarchy.activity? k with
    | none => rw [yieldFocus_of_absent held]
    | some r =>
      rw [yieldFocus_eq_put held]
      exact unfocused_put held Turn.unfocused_yieldFocus j

/-- Passing the focus on writes the states of activities and the requests for their processes. -/
theorem unfocused_resumeFocused (w : World) (display j : NodeId) :
    ((resumeFocused w display).1.hierarchy.activity? j).map ActivityRecord.unfocused =
      (w.hierarchy.activity? j).map ActivityRecord.unfocused := by
  cases focus : focusOf? w.hierarchy display with
  | none => rw [resumeFocused_of_none focus]
  | some top =>
    obtain ⟨r, held, _⟩ := isRunning_of_focusOf? focus
    have yielded := unfocused_foldl_yieldFocus (rivals w.hierarchy display top) j w
    have kept := (activity?_foldl_yieldFocus (not_mem_rivals w.hierarchy display top) w).trans held
    rw [resumeFocused_of_some focus held]
    split
    · exact (unfocused_put kept Turn.unfocused_takeFocus j).trans yielded
    · exact yielded

theorem sameView_updateDisplay (locked : DisplayId → Bool) (p : VisibilityParams) (w : World)
    (display : NodeId) : SameView w.hierarchy (updateDisplay locked p w display).1.hierarchy := by
  rw [updateDisplay_world (.refl _) display]
  exact sameView_carryOut _ w

theorem sameFrame_of_sameView (same : SameView h h') : SameFrame h h' where
  parent k := by rw [same.parent?]
  children k := by rw [same.children]
  tag k := by
    have seen : ∀ d : NodeData, (d.sight true).tag = d.tag := NodeData.tag_mapActivity _
    have mapped := congrArg (Option.map NodeData.tag) (same.data k)
    simp only [Option.map_map, Function.comp_def, seen] at mapped
    exact mapped
  displays := same.displays
  nextTaskId := same.nextTaskId

end Visibility
end WindowHost
