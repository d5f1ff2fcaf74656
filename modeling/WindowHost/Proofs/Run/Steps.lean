import WindowHost.Proofs.Hierarchy.Records
import WindowHost.Proofs.Run.Touch
import WindowHost.Proofs.Start.Quiet
import WindowHost.Proofs.Visibility.Focus

/-! Whole runs in steps. A step touches one activity, or asks something, or moves and removes nodes,
or adds one activity. What every step keeps, every run keeps. -/
namespace WindowHost
open Hierarchy
variable {silent : Bool} {w w' w'' : World} {h h' h'' : Hierarchy} {k p : NodeId}
  {r s : ActivityRecord} {calls : List Call} {position : Position}

/-- Every area of the second hierarchy is one of the first, and lies where it lay. -/
def KeepsAreas (h h' : Hierarchy) : Prop :=
  ∀ a, h'.tag? a = some .area → h.tag? a = some .area ∧ h'.parent? a = h.parent? a

/-- The second hierarchy comes from the first one by changes and edits that make no activity, leave
the records of those that stay, and leave the areas in place. -/
structure Kept (h h' : Hierarchy) : Prop where
  next : h.nodes.next ≤ h'.nodes.next
  activity : ∀ k r, h'.activity? k = some r → h.activity? k = some r
  areas : KeepsAreas h h'
  reached : Reachable h → Reachable h'

/-- The record of an activity that nothing has happened to. -/
structure ActivityRecord.Fresh (r : ActivityRecord) : Prop where
  state : r.state = .initializing
  lasts : r.finishing = false
  unwanted : r.visibleRequested = false
  bare : r.attached = false
  idle : r.restarting = false
  unheard : r.newIntents = []

inductive Step (silent : Bool) : World → World → Prop where
  | touch {w : World} {k : NodeId} {r s : ActivityRecord} {calls : List Call}
      (held : w.hierarchy.activity? k = some r) (touch : Touch silent k r s calls) :
      Step silent w (w.put k s calls)
  | ask {w w' : World} (asked : Asked w w') : Step silent w w'
  | reshape {w : World} {h : Hierarchy} (kept : Kept w.hierarchy h) :
      Step silent w { w with hierarchy := h }
  | create {w : World} {h : Hierarchy} {parent k : NodeId} {record : ActivityRecord}
      (added : w.hierarchy.addActivity parent record .top = .ok (h, k)) (fresh : record.Fresh) :
      Step silent w { w with hierarchy := h }

abbrev Steps (silent : Bool) : World → World → Prop := Relation.ReflTransGen (Step silent)

theorem KeepsAreas.trans (first : KeepsAreas h h') (second : KeepsAreas h' h'') :
    KeepsAreas h h'' := by
  intro a area
  obtain ⟨before, place⟩ := second a area
  exact (first a before).imp_right place.trans

theorem Hierarchy.SameFrame.keepsAreas (frame : SameFrame h h') : KeepsAreas h h' :=
  fun a area => ⟨frame.tag a ▸ area, frame.parent a⟩

/-- A new node that is no area leaves the areas in place. -/
theorem keepsAreas_insertUnder {data : NodeData} (added : h.insertUnder p data position = .ok h')
    (plain : data.tag ≠ .area) : KeepsAreas h h' := by
  intro a area
  rw [tag?, data?_insertUnder added] at area
  by_cases new : a = h.nextId
  · simp [new, plain] at area
  · rw [if_neg new] at area
    exact ⟨area, parent?_insertUnder added new⟩

namespace Kept

/-- A key that is still to be issued has never been, even if nodes have gone. -/
theorem not_contains_nextId (kept : Kept h h') : h.contains h'.nextId = false := by
  rw [Bool.eq_false_iff]
  intro live
  exact Nat.lt_irrefl _ (Nat.lt_of_lt_of_le (index_lt_next live) kept.next)

theorem refl (h : Hierarchy) : Kept h h :=
  ⟨Nat.le_refl _, fun _ _ held => held, fun _ area => ⟨area, rfl⟩, id⟩

theorem trans (first : Kept h h') (second : Kept h' h'') : Kept h h'' where
  next := Nat.le_trans first.next second.next
  activity k r held := first.activity k r (second.activity k r held)
  areas := first.areas.trans second.areas
  reached := second.reached ∘ first.reached

theorem moveTaskToFront (h : Hierarchy) (k : NodeId) : Kept h (h.moveTaskToFront k).1 where
  next := Nat.le_of_eq (next_moveTaskToFront h k).symm
  activity j _ held := (activity?_of_data? (data?_moveTaskToFront h k j)).symm.trans held
  areas a area := ⟨(tag?_moveTaskToFront h k a).symm.trans area, parent?_moveTaskToFront h k a⟩
  reached reached := reached.changes (changes_moveTaskToFront h k)

theorem reparent (moved : h.reparent k p position = .ok h') (task : h.isTask k = true) :
    Kept h h' where
  next := Nat.le_of_eq (next_reparent moved).symm
  activity j _ held := (activity?_of_data? (data?_reparent moved j)).symm.trans held
  areas a area := by
    rw [tag?_reparent moved] at area
    refine ⟨area, parent?_reparent moved ?_⟩
    rintro rfl
    obtain ⟨_, held⟩ := isTask_eq_true_iff.mp task
    simp [held] at area
  reached reached := by
    obtain ⟨_, placed⟩ := reparent_eq_ok_iff.mp moved
    exact reached.changes (.tail (.single (.unlink k)) (.attach placed))

theorem createTask {spec : TaskSpec} (made : h.createTask p spec position = .ok (h', k)) :
    Kept h h' where
  next := by
    obtain ⟨_, added, rfl, _⟩ := createTask_eq_ok_iff.mp made
    have grown := next_insertUnder added
    dsimp only
    omega
  activity j r held := by
    rw [activity?, data?_createTask made] at held
    split at held
    · simp [NodeData.activity?] at held
    · exact held
  areas := by
    obtain ⟨_, added, rfl, _⟩ := createTask_eq_ok_iff.mp made
    have kept : KeepsAreas h _ := keepsAreas_insertUnder added (by simp [NodeData.tag])
    exact kept
  reached reached := reached.changes (.single (.createTask made))

theorem getOrCreateRootTask {area : NodeId} {mode : WindowingMode} {type : ActivityType}
    {isNew : Bool} (made : h.getOrCreateRootTask area mode type = .ok (h', k, isNew)) :
    Kept h h' := by
  rcases getOrCreateRootTask_eq_ok made with ⟨_, rfl⟩ | ⟨_, created⟩
  · exact .refl h'
  · exact .createTask created

theorem remove (h : Hierarchy) (k : NodeId) : Kept h (h.remove k) where
  next := Nat.le_of_eq (next_remove h k).symm
  activity j r held := by
    rw [activity?_remove] at held
    split at held
    · contradiction
    · exact held
  areas a area := by
    rw [tag?_remove] at area
    split at area
    · contradiction
    · rename_i stays
      refine ⟨area, ?_⟩
      rw [parent?_remove, if_neg stays, parent?_unlink]
      split
      · rename_i itself
        have stale : h.contains k = false := by
          rw [itself, subtree] at stays
          by_contra live
          simp [Bool.not_eq_false _ ▸ live, Layers.ids] at stays
        rw [itself, parent?_of_not_contains stale]
      · rfl
  reached reached := reached.changes (.single (.remove k))

theorem foldl_remove (ks : List NodeId) (h : Hierarchy) :
    Kept h (ks.foldl Hierarchy.remove h) := by
  induction ks generalizing h with
  | nil => exact .refl h
  | cons k ks ih => exact (remove h k).trans (ih _)

/-- The bounds of a task are a matter of the task alone. -/
theorem boundTask (h : Hierarchy) (k : NodeId) (bounds : Rect) :
    Kept h (h.modifyTask k fun t => { t with bounds := some bounds }) where
  next := Nat.le_of_eq (Arena.next_modify ..).symm
  activity j r held := by
    rw [modifyTask, activity?, data?_modifyData] at held
    split at held
    · rw [activity?]
      cases found : h.data? j with
      | none => simp [found] at held
      | some d => cases d <;> simp_all [NodeData.mapTask, NodeData.activity?]
    · exact held
  areas := by
    have frame : SameFrame h (h.modifyTask k fun t => { t with bounds := some bounds }) :=
      sameFrame_modifyTask k fun _ => rfl
    exact frame.keepsAreas
  reached reached := reached.editTask k fun _ => ⟨rfl, rfl⟩

end Kept

theorem Step.reached (step : Step silent w w') (reached : Reachable w.hierarchy) :
    Reachable w'.hierarchy := by
  cases step with
  | touch => exact reached.editActivity _ _
  | ask asked => exact asked.hierarchy ▸ reached
  | reshape kept => exact kept.reached reached
  | create added => exact reached.changes (.single (.addActivity added))

theorem Steps.reached (steps : Steps silent w w') (reached : Reachable w.hierarchy) :
    Reachable w'.hierarchy := by
  induction steps with
  | refl => exact reached
  | tail _ step ih => exact step.reached ih

theorem Step.keepsAreas (step : Step silent w w') : KeepsAreas w.hierarchy w'.hierarchy := by
  cases step with
  | touch => exact (sameFrame_modifyActivity ..).keepsAreas
  | ask asked => exact fun a area => ⟨asked.hierarchy ▸ area, by rw [asked.hierarchy]⟩
  | reshape kept => exact kept.areas
  | create added =>
    obtain ⟨grown, _⟩ := addActivity_eq_ok_iff.mp added
    exact keepsAreas_insertUnder grown (by simp [NodeData.tag])

theorem Steps.keepsAreas (steps : Steps silent w w') : KeepsAreas w.hierarchy w'.hierarchy := by
  induction steps with
  | refl => exact fun _ area => ⟨area, rfl⟩
  | tail _ step ih => exact ih.trans step.keepsAreas

theorem Steps.calls_grow (steps : Steps silent w w') : w.calls <+: w'.calls := by
  induction steps with
  | refl => exact List.prefix_refl _
  | tail _ step ih =>
    refine ih.trans ?_
    cases step with
    | touch => exact List.prefix_append ..
    | reshape | create => exact List.prefix_refl _
    | ask asked => exact asked.calls_grow

theorem Steps.next_le (steps : Steps silent w w') :
    w.hierarchy.nodes.next ≤ w'.hierarchy.nodes.next := by
  induction steps with
  | refl => exact Nat.le_refl _
  | tail _ step ih =>
    refine Nat.le_trans ih ?_
    cases step with
    | touch => exact Nat.le_of_eq (Arena.next_modify ..).symm
    | ask asked => exact Nat.le_of_eq (by rw [asked.hierarchy])
    | reshape kept => exact kept.next
    | create added =>
      obtain ⟨grown, _⟩ := addActivity_eq_ok_iff.mp added
      have next := next_insertUnder grown
      dsimp only
      omega

theorem Touches.steps (touches : Touches silent k r s calls)
    (held : w.hierarchy.activity? k = some r) : Steps silent w (w.put k s calls) := by
  induction touches with
  | refl =>
    rw [World.put_self held, List.append_nil]
  | tail _ last ih =>
    rw [← World.put_put]
    exact ih.tail (.touch (World.activity?_put held ..) last)

namespace Visibility
variable {locked : DisplayId → Bool} {p : VisibilityParams}

theorem steps_apply (heard : p.notifyClients = false → silent = true) (w : World) (v : Verdict) :
    Steps silent w (v.apply p w) := by
  unfold Verdict.apply
  split
  · exact (touches_turn heard).steps ‹_›
  · exact .refl

theorem steps_carryOut (heard : p.notifyClients = false → silent = true) (vs : List Verdict)
    (w : World) : Steps silent w (carryOut p w vs) := by
  induction vs generalizing w with
  | nil => exact .refl
  | cons v vs ih => exact (steps_apply heard w v).trans (ih _)

theorem steps_updateContainer (heard : p.notifyClients = false → silent = true) (w : World)
    (k : NodeId) : Steps silent w (updateContainer locked p w k).1 := by
  rw [updateContainer_world (.refl _) k]
  exact steps_carryOut heard _ w

theorem steps_updateEach {update : World → NodeId → World × ConfigChanges}
    (each : ∀ w k, Steps silent w (update w k).1) (w : World) (ks : List NodeId) :
    Steps silent w (updateEach update p w ks).1 := by
  unfold updateEach
  generalize p.configChanges = changes
  induction ks generalizing w changes with
  | nil => exact .refl
  | cons k ks ih => exact (each w k).trans (ih _ _)

theorem steps_updateDisplay (heard : p.notifyClients = false → silent = true) (w : World)
    (display : NodeId) : Steps silent w (updateDisplay locked p w display).1 :=
  steps_updateEach (steps_updateContainer heard) w _

theorem steps_updateAll (heard : p.notifyClients = false → silent = true) (w : World) :
    Steps silent w (updateAll locked p w).1 :=
  steps_updateEach (steps_updateDisplay heard) w _

theorem touches_yieldFocus :
    Touches silent k r (Turn.yieldFocus k r).record (Turn.yieldFocus k r).calls := by
  unfold Turn.yieldFocus
  split
  · split
    · exact (Touch.pause ‹_› ‹_›).touches
    · exact (Touch.stop ‹_› (Bool.eq_false_iff.mpr ‹_›)).touches
  · exact .refl

theorem touches_takeFocus (runs : r.isRunning = true) (wanted : r.visibleRequested = true) :
    Touches silent k r (Turn.takeFocus k r).record (Turn.takeFocus k r).calls := by
  unfold Turn.takeFocus
  split
  · split
    · exact .refl
    · exact (Touch.resume runs wanted ‹_›).touches
  split
  · exact .refl
  · exact (Touch.start runs wanted (Bool.eq_false_iff.mpr ‹_›) (Bool.eq_false_iff.mpr ‹_›)).touches

theorem steps_foldl_yieldFocus (ks : List NodeId) (w : World) :
    Steps silent w (ks.foldl yieldFocus w) := by
  have single : ∀ w k, Steps silent w (yieldFocus w k) := by
    intro w k
    cases held : w.hierarchy.activity? k with
    | none => rw [yieldFocus_of_absent held]
    | some r =>
      rw [yieldFocus_eq_put held]
      exact touches_yieldFocus.steps held
  induction ks generalizing w with
  | nil => exact .refl
  | cons k ks ih => exact (single w k).trans (ih _)

theorem steps_resumeFocused (w : World) (display : NodeId) :
    Steps silent w (resumeFocused w display).1 := by
  cases focus : focusOf? w.hierarchy display with
  | none => rw [resumeFocused_of_none focus]
  | some top =>
    obtain ⟨r, held, runs⟩ := isRunning_of_focusOf? focus
    rw [resumeFocused_of_some focus held]
    have yielded : Steps silent w _ := steps_foldl_yieldFocus (rivals w.hierarchy display top) w
    have kept := (activity?_foldl_yieldFocus (not_mem_rivals w.hierarchy display top) w).trans held
    split
    · exact yielded.trans ((touches_takeFocus runs ‹_›).steps kept)
    · exact yielded

end Visibility
end WindowHost
