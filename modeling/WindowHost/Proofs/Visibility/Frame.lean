import Mathlib.Logic.Relation
import WindowHost.Proofs.Hierarchy.Fetched
import WindowHost.Proofs.Visibility.Focus

/-! What a pass leaves alone. It writes to records of activities in its container, and to six fields
of them that no question of a pass reads. So it makes no difference to a pass over one root task
whether another was updated before. -/
namespace WindowHost

/-- The steps that a visit may take an activity through. -/
inductive ActivityState.Step : ActivityState → ActivityState → Prop
  | cancel : Step .initializing .stopped
  | wake : Step .stopped .paused
  | stopResumed : Step .resumed .stopped
  | stopPaused : Step .paused .stopped

/-- What a visit may make of a record: it writes six fields, and takes the state one step further at
most. -/
structure Retouched (r r' : ActivityRecord) : Prop where
  rest : r' =
    { r with
      state := r'.state
      visibleRequested := r'.visibleRequested
      visibleIgnoringKeyguard := r'.visibleIgnoringKeyguard
      clientVisibilityDeferred := r'.clientVisibilityDeferred
      restarting := r'.restarting
      frozenConfigChanges := r'.frozenConfigChanges }
  state : Relation.ReflGen ActivityState.Step r.state r'.state

theorem Retouched.refl (r : ActivityRecord) : Retouched r r := ⟨rfl, .refl⟩

theorem ActivityRecord.eq_of_still_eq {r r' : ActivityRecord} (same : r'.still = r.still) : r' =
    { r with
      state := r'.state
      visibleRequested := r'.visibleRequested
      visibleIgnoringKeyguard := r'.visibleIgnoringKeyguard
      clientVisibilityDeferred := r'.clientVisibilityDeferred
      restarting := r'.restarting
      frozenConfigChanges := r'.frozenConfigChanges } := by
  cases r
  cases r'
  simp_all [still]

namespace Visibility
open Hierarchy Relation
variable {locked : DisplayId → Bool} {p q : VisibilityParams} {h h' : Hierarchy} {w w' : World}
  {j k root root' : NodeId} {r : ActivityRecord} {v : Verdict} {vs : List Verdict}

theorem Turn.step_makeActive :
    ReflGen ActivityState.Step r.state (Turn.makeActive k r).record.state := by
  unfold Turn.makeActive
  split
  · rename_i sleeps
    simp only [Bool.and_eq_true, beq_iff_eq] at sleeps
    rw [sleeps.2]
    exact .single .wake
  · exact .refl

theorem Turn.step_reveal : ReflGen ActivityState.Step r.state (Turn.reveal p k r).record.state := by
  unfold Turn.reveal
  split
  · exact .refl
  split
  · let shown := { r with visibleRequested := true, clientVisibilityDeferred := false }
    exact Turn.step_makeActive (r := shown)
  · exact .refl

theorem Turn.step_refresh :
    ReflGen ActivityState.Step r.state (Turn.refresh p k r).record.state := by
  unfold Turn.refresh
  split
  · exact Turn.step_makeActive
  · exact .refl

theorem Turn.step_hide : ReflGen ActivityState.Step r.state (Turn.hide k r).record.state := by
  unfold Turn.hide
  split
  · dsimp only
    split
    · rename_i shown
      rcases shown with resumed | paused
      · exact resumed ▸ .single .stopResumed
      · exact paused ▸ .single .stopPaused
    · exact .refl
  · exact .refl

theorem Turn.state_restart {changes : ConfigChanges} {isTop andResume : Bool} :
    (Turn.restart p changes isTop andResume k r).record.state = r.state := by
  unfold Turn.restart
  split
  · rfl
  split <;> rfl

theorem Verdict.step_present :
    ReflGen ActivityState.Step r.state (v.present p r).record.state := by
  unfold Verdict.present
  split
  · rw [Turn.state_restart]
  split
  · exact Turn.step_refresh
  · exact Turn.step_reveal

/-- A start that is called off leaves nothing to hide, so these are not two steps. -/
theorem Verdict.step_hide_note :
    ReflGen ActivityState.Step r.state (Turn.hide k (v.note r)).record.state := by
  by_cases begins : v.uncovered = false ∧ r.state = .initializing
  · have noted : (v.note r).state = .stopped := by
      simp [Verdict.note, ActivityRecord.cancelInitializing, begins]
    have hidden : (Turn.hide k (v.note r)).record.state = .stopped := by
      unfold Turn.hide
      split
      · simp [noted]
      · exact noted
    rw [hidden, begins.2]
    exact .single .cancel
  · have noted : (v.note r).state = r.state := by
      unfold Verdict.note ActivityRecord.cancelInitializing
      cases uncovered : v.uncovered <;> simp_all
    exact noted ▸ Turn.step_hide

theorem Verdict.step_turn : ReflGen ActivityState.Step r.state (v.turn p r).record.state := by
  unfold Verdict.turn
  split
  · rename_i visible
    have uncovered : v.uncovered = true := (Bool.and_eq_true_iff.mp visible).1
    have noted : (v.note r).state = r.state := by simp [Verdict.note, uncovered]
    split
    · rw [noted]
    · exact noted ▸ Verdict.step_present
  · exact Verdict.step_hide_note

theorem Verdict.retouched_turn : Retouched r (v.turn p r).record :=
  ⟨ActivityRecord.eq_of_still_eq Verdict.still_turn, Verdict.step_turn⟩

/-- Nothing has changed but the records of activities in `k`, and those as a visit may change
them. -/
structure Framed (h h' : Hierarchy) (k : NodeId) : Prop where
  next : h'.nodes.next = h.nodes.next
  displays : h'.displays = h.displays
  nextTaskId : h'.nextTaskId = h.nextTaskId
  contains : h'.contains = h.contains
  parent? : h'.parent? = h.parent?
  children : h'.children = h.children
  adjacent? : h'.adjacent? = h.adjacent?
  data? : ∀ j, h.isActivity j = false → h'.data? j = h.data? j
  outside : ∀ j, ¬ Inside h j k → h'.node? j = h.node? j
  records : ∀ j r, h.activity? j = some r → ∃ r', h'.activity? j = some r' ∧ Retouched r r'

/-- Questions that have the same answers in both, for every node and every activity that is about
to start. -/
structure SameAnswers (h h' : Hierarchy) : Prop where
  isRunning : ∀ k, h'.activityHas ActivityRecord.isRunning k =
    h.activityHas ActivityRecord.isRunning k
  shouldBeVisible : ∀ k starting, h'.shouldBeVisible k starting = h.shouldBeVisible k starting
  isTranslucent : ∀ k starting, h'.isTranslucent k starting = h.isTranslucent k starting
  topRunningActivity? : ∀ k, h'.topRunningActivity? k = h.topRunningActivity? k
  focusedRootTask? : ∀ display, h'.focusedRootTask? display = h.focusedRootTask? display
  findTask? : ∀ c affinity user, h'.findTask? c affinity user = h.findTask? c affinity user

theorem SameView.answers (same : SameView h h') : SameAnswers h h' where
  isRunning k := congrFun (same.activityHas ActivityRecord.isRunning_sight) k
  shouldBeVisible := same.shouldBeVisible
  isTranslucent := same.isTranslucent
  topRunningActivity? := same.topRunningActivity?
  focusedRootTask? := focusedRootTask?_congr same
  findTask? := same.findTask?

theorem SameView.data?_of_not_isActivity (same : SameView h h')
    (other : h.isActivity k = false) : h'.data? k = h.data? k := by
  have seen := same.data k
  have other' : h'.isActivity k = false := by rw [same.isActivity, other]
  have plain : ∀ {h : Hierarchy}, h.isActivity k = false →
      (h.data? k).map (NodeData.sight true) = h.data? k := by
    intro h other
    rw [isActivity, Hierarchy.activity?] at other
    cases held : h.data? k with
    | none => rfl
    | some d => cases d <;> simp_all [NodeData.activity?, NodeData.sight, NodeData.mapActivity]
  rw [plain other, plain other'] at seen
  exact seen

theorem nodup_verdicts (forest : Forest h) (k : NodeId) :
    ((verdicts locked p h k).map Verdict.activity).Nodup :=
  (sublist_verdicts h k).nodup (forest.nodup_ids_contents k)

theorem framed_carryOut (forest : Forest w.hierarchy) :
    Framed w.hierarchy (carryOut p w (verdicts locked p w.hierarchy k)).hierarchy k where
  next := (sameView_carryOut _ w).next
  displays := (sameView_carryOut _ w).displays
  nextTaskId := (sameView_carryOut _ w).nextTaskId
  contains := (sameView_carryOut _ w).contains
  parent? := (sameView_carryOut _ w).parent?
  children := (sameView_carryOut _ w).children
  adjacent? := (sameView_carryOut _ w).adjacent?
  data? _ := SameView.data?_of_not_isActivity (sameView_carryOut _ w)
  outside j apart := by
    refine node?_carryOut_of_not_mem (fun met => ?_) w
    obtain ⟨v, member, rfl⟩ := List.mem_map.mp met
    exact apart (inside_of_mem_verdicts forest member)
  records j r held := by
    by_cases met : j ∈ (verdicts locked p w.hierarchy k).map Verdict.activity
    · obtain ⟨v, member, rfl⟩ := List.mem_map.mp met
      exact ⟨_, activity?_carryOut (nodup_verdicts forest k) member held, Verdict.retouched_turn⟩
    · exact ⟨r, (activity?_carryOut_of_not_mem met w).trans held, .refl r⟩

/-- What becomes of a node is known from the node. -/
theorem node?_apply_congr (v : Verdict) (same : w'.hierarchy.node? k = w.hierarchy.node? k) :
    (v.apply p w').hierarchy.node? k = (v.apply p w).hierarchy.node? k := by
  by_cases here : k = v.activity
  · subst here
    have held : w'.hierarchy.activity? v.activity = w.hierarchy.activity? v.activity := by
      rw [activity?, activity?, Hierarchy.data?, Hierarchy.data?, same]
    unfold Verdict.apply
    rw [held]
    split
    · rw [World.node?_put, World.node?_put, same]
    · exact same
  · rw [node?_apply_of_ne here, node?_apply_of_ne here, same]

theorem node?_carryOut_congr (vs : List Verdict)
    (same : w'.hierarchy.node? k = w.hierarchy.node? k) :
    (carryOut p w' vs).hierarchy.node? k = (carryOut p w vs).hierarchy.node? k := by
  induction vs generalizing w w' with
  | nil => exact same
  | cons v rest ih => exact ih (node?_apply_congr v same)

/-- Verdicts on different activities may be carried out in either order. -/
theorem hierarchy_carryOut_comm {us : List Verdict}
    (apart : (us.map Verdict.activity).Disjoint (vs.map Verdict.activity)) (w : World) :
    (carryOut q (carryOut p w us) vs).hierarchy = (carryOut p (carryOut q w vs) us).hierarchy := by
  have left := (sameView_carryOut (p := p) us w).trans (sameView_carryOut (p := q) vs _)
  have right := (sameView_carryOut (p := q) vs w).trans (sameView_carryOut (p := p) us _)
  refine ext_node? (left.next.trans right.next.symm) (left.displays.trans right.displays.symm)
    (left.nextTaskId.trans right.nextTaskId.symm) fun k => ?_
  -- one of the two lists does not reach this node, so it may as well come last
  by_cases met : k ∈ us.map Verdict.activity
  · rw [node?_carryOut_of_not_mem (apart met)]
    exact (node?_carryOut_congr us (node?_carryOut_of_not_mem (apart met) w)).symm
  · rw [node?_carryOut_of_not_mem met]
    exact node?_carryOut_congr vs (node?_carryOut_of_not_mem met w)

theorem disjoint_verdicts (forest : Forest h) (task : h.isRootTask root = true)
    (task' : h.isRootTask root' = true) (apart : root ≠ root') :
    ((verdicts locked p h root).map Verdict.activity).Disjoint
      ((verdicts locked q h root').map Verdict.activity) := by
  intro x left right
  obtain ⟨v, found, rfl⟩ := List.mem_map.mp left
  obtain ⟨v', found', same⟩ := List.mem_map.mp right
  have inside := inside_of_mem_verdicts forest found
  have inside' := same ▸ inside_of_mem_verdicts forest found'
  exact apart (forest.isRootTask_unique task task' (.inr inside) (.inr inside'))

theorem hierarchy_updateContainer_comm (forest : Forest w.hierarchy)
    (task : w.hierarchy.isRootTask root = true) (task' : w.hierarchy.isRootTask root' = true)
    (apart : root ≠ root') :
    (updateContainer locked q (updateContainer locked p w root).1 root').1.hierarchy =
      (updateContainer locked p (updateContainer locked q w root').1 root).1.hierarchy := by
  have first : (updateContainer locked p w root).1 = _ :=
    updateContainer_world (.refl w.hierarchy) root
  have first' : (updateContainer locked q w root').1 = _ :=
    updateContainer_world (.refl w.hierarchy) root'
  rw [first, first', updateContainer_world (sameView_carryOut _ w),
    updateContainer_world (sameView_carryOut _ w)]
  exact hierarchy_carryOut_comm (disjoint_verdicts forest task task' apart) w

/-- A pass over a task or fragment changes nothing but the records of activities in it, of those
nothing but six fields, and the state by one step at most. None of the questions asked to decide
what is shown, focused, running or reused has another answer afterwards, and passes over two root
tasks leave the same hierarchy in either order. -/
theorem framed_updateContainer (forest : Forest w.hierarchy) (locked : DisplayId → Bool)
    (p : VisibilityParams) :
    (∀ k, Framed w.hierarchy (updateContainer locked p w k).1.hierarchy k ∧
      SameAnswers w.hierarchy (updateContainer locked p w k).1.hierarchy) ∧
    ∀ q root root', w.hierarchy.isRootTask root = true → w.hierarchy.isRootTask root' = true →
      root ≠ root' →
      (updateContainer locked q (updateContainer locked p w root).1 root').1.hierarchy =
        (updateContainer locked p (updateContainer locked q w root').1 root).1.hierarchy := by
  constructor
  · intro k
    rw [updateContainer_world (.refl w.hierarchy) k]
    exact ⟨framed_carryOut forest, SameView.answers (sameView_carryOut _ w)⟩
  · exact fun q root root' => hierarchy_updateContainer_comm forest

/-- A resumed list is hidden below an inbox that is shown, each by the pass over its own root task
and whichever of them comes first. -/
theorem framed_updateContainer_of_inbox :
    let record (name : String) (state : ActivityState) (shown : Bool) : ActivityRecord :=
      { ActivityRecord.create { component := ⟨"mail", name⟩, uid := ⟨10010⟩ } {} with
        attached := true, state := state, visibleRequested := shown }
    let before := afterCalls
      [.addDisplay ⟨0⟩ ⟨0, 0, 1920, 1080⟩, .createRootTask ⟨2⟩ .fullscreen .standard .top,
        .addActivity ⟨3⟩ (record "List" .resumed true) .top,
        .createRootTask ⟨2⟩ .fullscreen .standard .top,
        .addActivity ⟨5⟩ (record "Inbox" .stopped false) .top]
    let pass (w : World) (k : NodeId) : World := (updateContainer (fun _ => false) {} w k).1
    let upper := pass { hierarchy := before } ⟨5⟩
    let lower := pass { hierarchy := before } ⟨3⟩
    Framed before upper.hierarchy ⟨5⟩ ∧ Framed before lower.hierarchy ⟨3⟩ ∧
      upper.hierarchy.activityHas (·.state == .paused) ⟨6⟩ = true ∧
      lower.hierarchy.activityHas (·.state == .stopped) ⟨4⟩ = true ∧
      lower.hierarchy.focusedRootTask? ⟨1⟩ = before.focusedRootTask? ⟨1⟩ ∧
      (pass upper ⟨3⟩).hierarchy = (pass lower ⟨5⟩).hierarchy := by
  intro record before pass upper lower
  have forest : Forest before := (wellFormed_afterCalls _).forest
  have shown : upper.hierarchy.activityHas (·.state == .paused) ⟨6⟩ = true := by decide +kernel
  have hidden : lower.hierarchy.activityHas (·.state == .stopped) ⟨4⟩ = true := by decide +kernel
  have root : before.isRootTask ⟨5⟩ = true := by decide +kernel
  have root' : before.isRootTask ⟨3⟩ = true := by decide +kernel
  clear_value before
  obtain ⟨framed, swapped⟩ :=
    framed_updateContainer (w := { hierarchy := before }) forest (fun _ => false) {}
  exact ⟨(framed ⟨5⟩).1, (framed ⟨3⟩).1, shown, hidden, (framed ⟨3⟩).2.focusedRootTask? ⟨1⟩,
    swapped {} ⟨5⟩ ⟨3⟩ root root' (by decide)⟩

end Visibility
end WindowHost
