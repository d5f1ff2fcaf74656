import WindowHost.Proofs.Run.Starts

/-! Calls that make no difference. What a launch does with its place goes by the hierarchy and by
what the world answers. After other calls with the same answers it does the same, and tells the
world the same, and in none of it is a layout modifier asked. -/
namespace WindowHost
variable {env : Environment} {c d : List Call} {w : World} {σ τ υ β : Type}

/-- The question to a layout modifier that a call is. -/
def Call.modifier? : Call → Option ModifierCall
  | .modifier call => some call
  | _ => none

/-- No modifier is asked in these calls. -/
def Unasked (calls : List Call) : Prop := ∀ call ∈ calls, call.modifier? = none

/-- From now on the world answers after the one calls as it does after the others. -/
def SameAnswers (env : Environment) (c d : List Call) : Prop :=
  ∀ later, env (d ++ later) = env (c ++ later)

theorem Unasked.nil : Unasked [] := fun _ member => absurd member List.not_mem_nil

theorem Unasked.append (first : Unasked c) (second : Unasked d) : Unasked (c ++ d) := by
  intro call member
  exact (List.mem_append.mp member).elim (first call) (second call)

theorem SameAnswers.refl (env : Environment) (c : List Call) : SameAnswers env c c :=
  fun _ => rfl

theorem SameAnswers.now (same : SameAnswers env c d) : env d = env c := by
  simpa using same []

theorem SameAnswers.append (same : SameAnswers env c d) (later : List Call) :
    SameAnswers env (c ++ later) (d ++ later) := by
  intro further
  rw [List.append_assoc, List.append_assoc]
  exact same (later ++ further)

/-- Something that calls have led to, and that other calls may have led to as well. -/
class Told (σ : Type) where
  calls : σ → List Call
  told : σ → List Call → σ
  told_calls : ∀ s, told s (calls s) = s
  calls_told : ∀ s c, calls (told s c) = c

open Told (told)

instance : Told World where
  calls := World.calls
  told w c := { w with calls := c }
  told_calls _ := rfl
  calls_told _ _ := rfl

instance : Told Flight where
  calls s := s.world.calls
  told s c := { s with world := told s.world c }
  told_calls _ := rfl
  calls_told _ _ := rfl

instance [Told σ] : Told (σ × τ) where
  calls s := Told.calls s.1
  told s c := (told s.1 c, s.2)
  told_calls s := by rw [Told.told_calls]
  calls_told _ _ := Told.calls_told ..

instance [Told σ] : Told (τ × σ) where
  calls s := Told.calls s.2
  told s c := (s.1, told s.2 c)
  told_calls s := by rw [Told.told_calls]
  calls_told _ _ := Told.calls_told ..

/-- What does the same after any calls makes none. -/
theorem Told.calls_of_told [Told σ] [Told τ] {f : σ → τ} {s : σ}
    (same : ∀ c, f (told s c) = told (f s) c) : Told.calls (f s) = Told.calls s := by
  have here := same (Told.calls s)
  rw [Told.told_calls] at here
  rw [here, Told.calls_told]

/-- After other calls with the same answers the function does the same, and asks no modifier. -/
def Oblivious [Told σ] [Told τ] (env : Environment) (f : σ → τ) (s : σ) : Prop :=
  ∃ later, Unasked later ∧
    ∀ c, SameAnswers env (Told.calls s) c → f (told s c) = told (f s) (c ++ later)

namespace Oblivious
variable [Told σ] [Told τ] [Told υ] {f g : σ → τ} {s : σ}

theorem calls_eq (oblivious : Oblivious env f s) :
    ∃ later, Unasked later ∧ Told.calls (f s) = Told.calls s ++ later ∧
      ∀ c, SameAnswers env (Told.calls s) c → f (told s c) = told (f s) (c ++ later) := by
  obtain ⟨later, unasked, same⟩ := oblivious
  refine ⟨later, unasked, ?_, same⟩
  have itself := same (Told.calls s) (.refl env _)
  rw [Told.told_calls] at itself
  rw [itself, Told.calls_told]

theorem of_silent (same : ∀ c, SameAnswers env (Told.calls s) c → f (told s c) = told (f s) c) :
    Oblivious env f s :=
  ⟨[], .nil, fun c agree => by rw [same c agree, List.append_nil]⟩

/-- What goes on where an oblivious function ends, and is oblivious there. -/
theorem comp {f : σ → τ} {g : τ → υ} (first : Oblivious env f s) (second : Oblivious env g (f s)) :
    Oblivious env (fun s => g (f s)) s := by
  obtain ⟨early, unasked, made, same⟩ := first.calls_eq
  obtain ⟨late, unasked', same'⟩ := second
  refine ⟨early ++ late, unasked.append unasked', fun c agree => ?_⟩
  dsimp only
  rw [same c agree, ← List.append_assoc]
  exact same' _ (made ▸ agree.append early)

/-- What does the same after any such calls is as oblivious. -/
theorem of_eq (oblivious : Oblivious env f s)
    (same : ∀ c, SameAnswers env (Told.calls s) c → g (told s c) = f (told s c)) :
    Oblivious env g s := by
  obtain ⟨later, unasked, told⟩ := oblivious
  refine ⟨later, unasked, fun c agree => ?_⟩
  have here := same (Told.calls s) (.refl env _)
  rw [Told.told_calls] at here
  rw [same c agree, here, told c agree]

/-- What goes on from somewhere else without a word is as oblivious as what it does there. -/
theorem after {f : σ → υ} {g : τ → υ} {t : τ} (oblivious : Oblivious env g t)
    (calls : Told.calls t = Told.calls s)
    (same : ∀ c, SameAnswers env (Told.calls s) c → f (told s c) = g (told t c)) :
    Oblivious env f s := by
  obtain ⟨later, unasked, goesOn⟩ := oblivious
  refine ⟨later, unasked, fun c agree => ?_⟩
  have here := same (Told.calls s) (.refl env _)
  rw [Told.told_calls, ← calls, Told.told_calls] at here
  rw [same c agree, here, goesOn c (calls ▸ agree)]

theorem beside (oblivious : Oblivious env f s) (x : β) :
    Oblivious env (fun s => (x, f s)) s := by
  obtain ⟨later, unasked, same⟩ := oblivious
  exact ⟨later, unasked, fun c agree => congrArg (Prod.mk x) (same c agree)⟩

/-- What a launch does in its world alone. -/
theorem inFlight {s : Flight} {g : World → World} (oblivious : Oblivious env g s.world)
    (result : StartResult) :
    Oblivious env (fun s : Flight => (({ s with world := g s.world } : Flight), result)) s := by
  obtain ⟨later, unasked, same⟩ := oblivious
  refine ⟨later, unasked, fun c agree => ?_⟩
  have moved : g (told s c).world = told (g s.world) (c ++ later) := same c agree
  dsimp only
  rw [moved]
  rfl

theorem id : Oblivious env (fun s : σ => s) s := .of_silent fun _ _ => rfl

end Oblivious

section
variable {k display : NodeId} {r : ActivityRecord} {silent : Bool} {calls : List Call}

theorem oblivious_emit {call : Call} (other : call.modifier? = none) :
    Oblivious env (World.emit · call) w :=
  ⟨[call], by simpa [Unasked] using other, fun _ _ => rfl⟩

theorem Flight.hierarchy_told (s : Flight) (c : List Call) : (told s c).hierarchy = s.hierarchy :=
  rfl

theorem hierarchy_told (w : World) (c : List Call) : (told w c).hierarchy = w.hierarchy := rfl

/-- After such calls the world answers as it does now. -/
theorem SameAnswers.answers_told {c : List Call} (agree : SameAnswers env w.calls c) :
    env (told w c).calls = env w.calls :=
  agree.now

theorem oblivious_put (k : NodeId) (r : ActivityRecord) (unasked : Unasked calls) :
    Oblivious env (World.put · k r calls) w :=
  ⟨calls, unasked, fun _ _ => rfl⟩

/-- Whatever becomes of an activity, clients alone hear of it. -/
theorem Touches.unasked {t : ActivityRecord} (touches : Touches silent k r t calls) :
    Unasked calls := by
  intro call made
  have client := touches.activity?_of_mem made
  cases call <;> simp_all [Call.activity?, Call.modifier?]

namespace Visibility

theorem oblivious_apply (p : VisibilityParams) (v : Verdict) (w : World) :
    Oblivious env (v.apply p ·) w := by
  cases held : w.hierarchy.activity? v.activity with
  | none =>
    refine Oblivious.id.of_eq fun c _ => ?_
    rw [Verdict.apply, hierarchy_told, held]
  | some r =>
    have touches : Touches true v.activity r (v.turn p r).record (v.turn p r).calls :=
      touches_turn fun _ => rfl
    refine (oblivious_put v.activity (v.turn p r).record touches.unasked).of_eq fun c _ => ?_
    rw [Verdict.apply, hierarchy_told, held]

theorem oblivious_carryOut (p : VisibilityParams) (vs : List Verdict) (w : World) :
    Oblivious env (carryOut p · vs) w := by
  induction vs generalizing w with
  | nil => exact .id
  | cons v vs ih => exact (oblivious_apply p v w).comp (ih _)

theorem oblivious_updateDisplay (locked : DisplayId → Bool) (p : VisibilityParams) (w : World)
    (display : NodeId) : Oblivious env (fun w => (updateDisplay locked p w display).1) w :=
  (oblivious_carryOut p (displayVerdicts locked p w.hierarchy display) w).of_eq
    fun c _ => updateDisplay_world (w := told w c) (.refl _) display

theorem oblivious_foldl_yieldFocus (ks : List NodeId) (w : World) :
    Oblivious env (ks.foldl yieldFocus ·) w := by
  induction ks generalizing w with
  | nil => exact .id
  | cons k ks ih =>
    have first : Oblivious env (yieldFocus · k) w := by
      cases held : w.hierarchy.activity? k with
      | none => exact Oblivious.id.of_eq fun c _ => yieldFocus_of_absent (w := told w c) held
      | some r =>
        have touches : Touches false k r _ _ := touches_yieldFocus
        exact (oblivious_put _ _ touches.unasked).of_eq
          fun c _ => yieldFocus_eq_put (w := told w c) held
    exact first.comp (ih _)

theorem oblivious_resumeFocused (w : World) (display : NodeId) :
    Oblivious env (fun w => (resumeFocused w display).1) w := by
  cases focus : focusOf? w.hierarchy display with
  | none => exact Oblivious.id.of_eq fun c _ => resumeFocused_of_none (w := told w c) focus
  | some top =>
    obtain ⟨r, held, runs⟩ := isRunning_of_focusOf? focus
    have yielded : Oblivious env ((rivals w.hierarchy display top).foldl yieldFocus ·) w :=
      oblivious_foldl_yieldFocus _ w
    cases wanted : r.visibleRequested with
    | false =>
      refine yielded.of_eq fun c _ => ?_
      rw [resumeFocused_of_some (w := told w c) focus held, wanted]
      rfl
    | true =>
      have touches : Touches false top r _ _ := touches_takeFocus runs wanted
      refine (yielded.comp (oblivious_put top (Turn.takeFocus top r).record
        touches.unasked)).of_eq fun c _ => ?_
      rw [resumeFocused_of_some (w := told w c) focus held, wanted]
      rfl

end Visibility
end

namespace Start
open Visibility

theorem oblivious_propagate (w : World) (display : NodeId) (starting : Option NodeId) :
    Oblivious env (propagate env · display starting) w := by
  refine ((oblivious_updateDisplay (env w.calls).keyguardLocked { starting := starting } w
    display).comp (oblivious_resumeFocused _ display)).of_eq fun c agree => ?_
  rw [propagate_eq, agree.answers_told]

theorem oblivious_deliver (w : World) (k : NodeId) (intent : Intent)
    (cookie : Option LaunchCookie) : Oblivious env (deliver · k intent cookie) w := by
  cases held : w.hierarchy.activity? k with
  | none =>
    refine Oblivious.id.of_eq fun c _ => ?_
    rw [deliver, if_neg]
    simp [hierarchy_told, Hierarchy.isActivity, held]
  | some a =>
    refine (oblivious_put _ _ ?_).of_eq fun c _ => deliver_eq_put (w := told w c) held intent cookie
    simp [Unasked, Call.modifier?]

theorem oblivious_leaveCookie (w : World) (cookie : Option LaunchCookie) (top : Option NodeId) :
    Oblivious env (leaveCookie · cookie top) w := by
  cases top <;> exact .of_silent fun _ _ => rfl

variable {s : Flight} {l : Launch} {record : ActivityRecord} {task root : NodeId}

theorem oblivious_fail (s : Flight) : Oblivious env Flight.fail s := .of_silent fun _ _ => rfl

theorem oblivious_showNew (s : Flight) (l : Launch) (h : Hierarchy) (k parent : NodeId)
    (display : Hierarchy → NodeId) : Oblivious env (fun s =>
      let s := { s.withNew h k with outActivity := some k }
      let s := if l.movesToFront then s.raise parent else s
      (({ s with world := propagate env s.world (display s.hierarchy) (some k) } : Flight),
        StartResult.success)) s := by
  let grown : Flight := { s.withNew h k with outActivity := some k }
  let front : Flight := if l.movesToFront then grown.raise parent else grown
  have shown : Oblivious env (propagate env · (display front.hierarchy) (some k)) front.world :=
    oblivious_propagate ..
  refine (shown.inFlight .success).after (t := front) ?_ fun c _ => ?_
  · dsimp only [front]
    split <;> rfl
  · dsimp only [front]
    split <;> rfl

theorem oblivious_addTo (s : Flight) (l : Launch) (record : ActivityRecord) (parent : NodeId) :
    Oblivious env (addTo env · l record parent) s := by
  rcases made : s.hierarchy.addActivity parent record .top with e | ⟨h, k⟩
  · refine (oblivious_fail s).of_eq fun c _ => ?_
    rw [addTo, Flight.hierarchy_told, made]
  · refine (oblivious_showNew s l h k parent fun h => (h.displayOf? k).getD l.display).of_eq
      fun c _ => ?_
    rw [addTo, Flight.hierarchy_told, made]

theorem oblivious_deliverToTop (s : Flight) (l : Launch) (record : ActivityRecord)
    (top : NodeId) : Oblivious env (deliverToTop env · l record top) s := by
  let noted : Flight :=
    { s with
      taskWasVisible := (s.hierarchy.taskAround? top).map (hasVisibleActivity s.hierarchy)
      outActivity := some top }
  have handed : Oblivious env (deliver · top record.intent l.cookie) noted.world :=
    oblivious_deliver ..
  have shown := handed.comp (oblivious_propagate _ l.display none)
  exact (shown.inFlight .deliveredToTop).after (t := noted) rfl fun _ _ => rfl

/-- Adds the activity to the task that is made for it, once the layout of the task is refined,
unless lock task mode forbids the task. -/
def lodge (env : Environment) (l : Launch) (record : ActivityRecord) (task : NodeId)
    (refined : Flight × LaunchParams) : Flight × StartResult :=
  let s := refined.1.withHierarchy (applyBounds refined.1.hierarchy task refined.2)
  if (env s.world.calls).violatesLockTask record then (s.rollback, .lockTaskModeViolation)
  else addTo env s l record task

theorem startInNewTask_eq_lodge (env : Environment) (chain : List Modifier) (s : Flight)
    (l : Launch) (r : StartRequest) (record : ActivityRecord) (request : LayoutRequest)
    (layout : LaunchParams) :
    startInNewTask env chain s l r record request layout =
      match launchRoot s l layout.mode record.info.type with
      | none => s.fail
      | some (s, root) =>
        match s.hierarchy.createTask root (newTaskSpec r record)
            (if l.movesToFront then .top else .bottom) with
        | .error _ => s.fail
        | .ok (h, task) =>
          let s := s.withNew h task
          lodge env l record task (s.refineLayout chain
            { request with
              phase := .taskLayout
              task := (s.hierarchy.task? task).map Task.id } layout) :=
  rfl

theorem oblivious_lodge (l : Launch) (record : ActivityRecord) (task : NodeId)
    (refined : Flight × LaunchParams) : Oblivious env (lodge env l record task) refined := by
  obtain ⟨s, layout⟩ := refined
  let bounded := s.withHierarchy (applyBounds s.hierarchy task layout)
  by_cases locked : (env bounded.world.calls).violatesLockTask record
  · have forbidden : Oblivious env
        (fun s : Flight => (s.rollback, StartResult.lockTaskModeViolation)) bounded :=
      .of_silent fun _ _ => rfl
    refine forbidden.after (t := bounded) rfl fun c agree => if_pos ?_
    have now : env c = env bounded.world.calls := agree.now
    exact now ▸ locked
  · refine (oblivious_addTo bounded l record task).after (t := bounded) rfl fun c agree => if_neg ?_
    have now : env c = env bounded.world.calls := agree.now
    exact now ▸ locked

theorem launchRoot_told (s : Flight) (l : Launch) (mode : WindowingMode) (type : ActivityType)
    (c : List Call) :
    launchRoot (told s c) l mode type = (launchRoot s l mode type).map (told · c) := by
  unfold launchRoot
  dsimp only
  rw [Flight.hierarchy_told]
  split
  · rfl
  split
  · rfl
  split
  · rfl
  split
  · rfl
  · split <;> rfl

theorem destination_told (s : Flight) (l : Launch) (root : NodeId)
    (target taskDisplay : Option NodeId) (c : List Call) :
    destination (told s c) l root target taskDisplay =
      (destination s l root target taskDisplay).map (told · c) := by
  unfold destination
  dsimp only
  rw [Flight.hierarchy_told]
  split
  · rfl
  · rfl
  split
  · rfl
  split
  · rfl
  split
  · rfl
  · split <;> rfl

theorem moveInto_told (s : Flight) (task destination : NodeId) (taskDisplay : Option NodeId)
    (c : List Call) :
    moveInto (told s c) task destination taskDisplay =
      (moveInto s task destination taskDisplay).map (told · c) := by
  unfold moveInto
  dsimp only
  rw [Flight.hierarchy_told]
  split
  · rfl
  split <;> rfl

theorem bringForward_told (s : Flight) (l : Launch) (task root : NodeId) (c : List Call) :
    bringForward (told s c) l task root = told (bringForward s l task root) c := by
  unfold bringForward
  dsimp only
  rw [Flight.hierarchy_told, destination_told]
  split
  · rfl
  rcases destination s l root (l.preferredDisplay.or (s.hierarchy.displayOf? task))
    (s.hierarchy.displayOf? task) with _ | ⟨t, place⟩
  · rfl
  have same : (some (t, place)).map (told · c) = some (told t c, place) := rfl
  rw [same]
  dsimp only
  cases place.filter (· != root) with
  | none => rfl
  | some place =>
    dsimp only
    rw [moveInto_told]
    cases moveInto t task place (s.hierarchy.displayOf? task) <;> rfl

/-- Takes the intent into a reused task, once that is in its place and cleared. -/
def takeIn (env : Environment) (s : Flight) (l : Launch) (record : ActivityRecord) (task : NodeId)
    (moved : Bool) (arrival : Arrival) : Flight × StartResult :=
  let display := (s.hierarchy.displayOf? task).getD l.display
  let result := if moved then StartResult.taskToFront else .deliveredToTop
  match arrival with
  | .add =>
    match s.hierarchy.addActivity task record .top with
    | .error _ => s.fail
    | .ok (h, k) =>
      let s := { s.withNew h k with outActivity := some k }
      let s := if l.movesToFront then s.raise task else s
      ({ s with world := propagate env s.world display (some k) }, .success)
  | .deliver k =>
    let w := deliver s.world k record.intent l.cookie
    ({ s with outActivity := some k, world := propagate env w display none }, result)
  | .keep =>
    let top := s.hierarchy.topRunningActivity? task
    let w := leaveCookie s.world l.cookie top
    ({ s with outActivity := top, world := propagate env w display none }, result)

theorem recycle_eq_takeIn {t : Flight} {moved : Bool} {h : Hierarchy} {arrival : Arrival}
    (held : s.hierarchy.rootTaskOf? task = some root)
    (brought : bringForward
      { s with taskWasVisible := some (hasVisibleActivity s.hierarchy task) } l task root =
        (t, some moved))
    (arrived : arrive t.hierarchy l record task = (h, arrival)) :
    recycle env s l record task =
      takeIn env { t.withHierarchy h with
        clearedTask := l.flags.has .newTask && l.flags.has .clearTask } l record task moved
          arrival := by
  rw [recycle, held]
  dsimp only
  rw [brought]
  dsimp only
  rw [arrived]
  rfl

theorem oblivious_takeIn (s : Flight) (l : Launch) (record : ActivityRecord) (task : NodeId)
    (moved : Bool) (arrival : Arrival) :
    Oblivious env (takeIn env · l record task moved arrival) s := by
  let display := (s.hierarchy.displayOf? task).getD l.display
  let result := if moved then StartResult.taskToFront else .deliveredToTop
  cases arrival with
  | add =>
    rcases made : s.hierarchy.addActivity task record .top with e | ⟨h, k⟩
    · refine (oblivious_fail s).of_eq fun c _ => ?_
      rw [takeIn, Flight.hierarchy_told, made]
    · refine (oblivious_showNew s l h k task fun _ => display).of_eq fun c _ => ?_
      rw [takeIn, Flight.hierarchy_told, made]
  | deliver k =>
    let out : Flight := { s with outActivity := some k }
    have handed : Oblivious env (deliver · k record.intent l.cookie) out.world :=
      oblivious_deliver ..
    have shown := handed.comp (oblivious_propagate _ display none)
    exact (shown.inFlight result).after (t := out) rfl fun _ _ => rfl
  | keep =>
    let top := s.hierarchy.topRunningActivity? task
    let out : Flight := { s with outActivity := top }
    have marked : Oblivious env (leaveCookie · l.cookie top) out.world := oblivious_leaveCookie ..
    have shown := marked.comp (oblivious_propagate _ display none)
    exact (shown.inFlight result).after (t := out) rfl fun _ _ => rfl

theorem oblivious_recycle (s : Flight) (l : Launch) (record : ActivityRecord)
    (task : NodeId) : Oblivious env (recycle env · l record task) s := by
  cases held : s.hierarchy.rootTaskOf? task with
  | none =>
    refine (oblivious_fail s).of_eq fun c _ => ?_
    rw [recycle, Flight.hierarchy_told, held]
  | some root =>
    let seen : Flight := { s with taskWasVisible := some (hasVisibleActivity s.hierarchy task) }
    have same := bringForward_told seen l task root
    have calls := Told.calls_of_told (f := (bringForward · l task root)) same
    rcases brought : bringForward seen l task root with ⟨t, _ | moved⟩ <;>
      rw [brought] at same calls
    · refine (oblivious_fail t).after calls fun c _ => ?_
      have refused : bringForward { told s c with
        taskWasVisible := some (hasVisibleActivity s.hierarchy task) } l task root = _ := same c
      rw [recycle, Flight.hierarchy_told, held]
      dsimp only
      rw [refused]
      rfl
    · rcases arrived : arrive t.hierarchy l record task with ⟨h, arrival⟩
      refine (oblivious_takeIn _ l record task moved arrival).after
        (t := { t.withHierarchy h with
          clearedTask := l.flags.has .newTask && l.flags.has .clearTask }) calls fun c _ => ?_
      have brought : bringForward { told s c with
        taskWasVisible := some (hasVisibleActivity s.hierarchy task) } l task root =
          (told t c, some moved) := same c
      exact recycle_eq_takeIn (s := told s c) held brought arrived

end Start
end WindowHost
