import WindowHost.Proofs.Hierarchy.Homes
import WindowHost.Proofs.Visibility.FocusShown

/-! How the focus is handed over on a display, to the last record and call. The activities that give
way are all the others of the display, each once, so that no second one stays resumed there, and
that nothing is left to do when the focus is passed on again. -/
namespace WindowHost.Visibility
open Hierarchy
variable {h : Hierarchy} {w w' : World} {display root top k x : NodeId} {r s : ActivityRecord}
  {ks : List NodeId}

/-- The calls about an activity. -/
def callsAbout (x : NodeId) (calls : List Call) : List Call :=
  calls.filter fun call => call.activity? == some x

theorem callsAbout_append (x : NodeId) (calls more : List Call) :
    callsAbout x (calls ++ more) = callsAbout x calls ++ callsAbout x more :=
  List.filter_append ..

theorem callsAbout_of_forall {calls : List Call}
    (about : ∀ call ∈ calls, call.activity? = some k) (x : NodeId) :
    callsAbout x calls = if k = x then calls else [] := by
  split
  · rename_i same
    rw [callsAbout, List.filter_eq_self]
    intro call made
    rw [about call made, same, beq_self_eq_true]
  · rename_i other
    rw [callsAbout, List.filter_eq_nil_iff]
    intro call made
    simpa [about call made] using other

theorem mem_rivals (forest : Forest h) (shown : (h.display? display).isSome = true) :
    x ∈ rivals h display top ↔
      x ≠ top ∧ h.displayOf? x = some display ∧ h.isActivity x = true := by
  rw [rivals, List.mem_filter, List.mem_flatMap, bne_iff_ne, and_comm]
  refine and_congr_right fun _ => ⟨?_, ?_⟩
  · rintro ⟨root, member, inside⟩
    obtain ⟨leaf, within⟩ := (forest.mem_activities_iff (mem_rootTasks.mp member).1).mp inside
    exact ⟨forest.displayOf?_of_inside shown (within.trans (forest.inside_of_mem_rootTasks member)),
      leaf⟩
  · rintro ⟨placed, leaf⟩
    obtain ⟨s, held⟩ := Option.isSome_iff_exists.mp leaf
    obtain ⟨root, member, within⟩ := forest.exists_rootTask_of_activity placed held
    exact ⟨root, member,
      (forest.mem_activities_iff (mem_rootTasks.mp member).1).mpr ⟨leaf, within⟩⟩

theorem rivals_congr {h h' : Hierarchy} (same : SameView h h') (display top : NodeId) :
    rivals h' display top = rivals h display top := by
  rw [rivals, rivals, same.rootTasks, funext same.activities]

theorem nodup_rivals (forest : Forest h) (display top : NodeId) :
    (rivals h display top).Nodup := by
  refine List.Nodup.filter _ (List.nodup_flatMap.mpr ⟨fun root member => ?_, ?_⟩)
  · have single : root ∉ (h.contents root).ids :=
      fun listed => forest.not_inside_self root (forest.mem_ids_contents.mp listed)
    have once : (h.subtree root).ids.Nodup := by
      rw [subtree]
      split
      · rw [Layers.ids, Layers.ids, List.append_nil]
        exact List.nodup_cons.mpr ⟨single, forest.nodup_ids_contents root⟩
      · exact List.nodup_nil
    exact once.filter _
  · apply (forest.nodup_rootTasks display).imp_of_mem
    intro a b left right apart x inLeft inRight
    have within := (forest.mem_activities_iff (mem_rootTasks.mp left).1).mp inLeft
    have within' := (forest.mem_activities_iff (mem_rootTasks.mp right).1).mp inRight
    exact apart (forest.rootTask_unique left right within.2 within'.2)

theorem activity?_yieldFocus_of_ne (other : k ≠ x) (w : World) :
    (yieldFocus w x).hierarchy.activity? k = w.hierarchy.activity? k := by
  rw [activity?, activity?, data?, data?, node?_yieldFocus_of_ne other]

/-- What an activity is told when it gives way. -/
def yieldCalls (h : Hierarchy) (k : NodeId) : List Call :=
  match h.activity? k with
  | some r => (Turn.yieldFocus k r).calls
  | none => []

theorem yieldCalls_of_activity? (held : h.activity? k = some r) :
    yieldCalls h k = (Turn.yieldFocus k r).calls := by
  simp only [yieldCalls, held]

theorem calls_yieldFocus (w : World) (k : NodeId) :
    (yieldFocus w k).calls = w.calls ++ yieldCalls w.hierarchy k := by
  rw [yieldCalls]
  cases held : w.hierarchy.activity? k with
  | none => simp [yieldFocus_of_absent held]
  | some r =>
    rw [yieldFocus_eq_put held]
    rfl

/-- Each gives way as it was found at first. -/
theorem foldl_yieldFocus_each (nodup : ks.Nodup) (w : World) :
    (∀ k ∈ ks, ∀ r, w.hierarchy.activity? k = some r →
      (ks.foldl yieldFocus w).hierarchy.activity? k = some (Turn.yieldFocus k r).record) ∧
    (ks.foldl yieldFocus w).calls = w.calls ++ ks.flatMap (yieldCalls w.hierarchy) := by
  induction ks generalizing w with
  | nil => simp
  | cons j ks ih =>
    obtain ⟨single, nodup⟩ := List.nodup_cons.mp nodup
    obtain ⟨records, calls⟩ := ih nodup (yieldFocus w j)
    -- the ones after `j` are in `yieldFocus w j` as they were in `w`
    have other : ∀ k ∈ ks, k ≠ j := fun k member same => single (same ▸ member)
    constructor
    · intro k member r held
      rcases List.mem_cons.mp member with rfl | later
      · rw [List.foldl_cons, activity?_foldl_yieldFocus single, yieldFocus_eq_put held,
          World.activity?_put held]
      · refine records k later r ?_
        rw [activity?_yieldFocus_of_ne (other k later), held]
    · have unchanged : ks.flatMap (yieldCalls (yieldFocus w j).hierarchy) =
          ks.flatMap (yieldCalls w.hierarchy) := by
        refine List.flatMap_congr fun k member => ?_
        rw [yieldCalls, yieldCalls, activity?_yieldFocus_of_ne (other k member)]
      rw [List.foldl_cons, calls, calls_yieldFocus, unchanged, List.flatMap_cons,
        List.append_assoc]

theorem activity?_of_mem_yieldCalls {call : Call} (made : call ∈ yieldCalls h k) :
    call.activity? = some k := by
  unfold yieldCalls Turn.yieldFocus at made
  split at made
  · split at made
    · split at made <;> simp_all [Call.activity?]
    · contradiction
  · contradiction

theorem callsAbout_yieldCalls (h : Hierarchy) (k x : NodeId) :
    callsAbout x (yieldCalls h k) = if k = x then yieldCalls h k else [] :=
  callsAbout_of_forall (fun _ => activity?_of_mem_yieldCalls) x

/-- Of all that give way, an activity hears its own call only. -/
theorem callsAbout_flatMap (nodup : ks.Nodup) (h : Hierarchy) (x : NodeId) :
    callsAbout x (ks.flatMap (yieldCalls h)) = if x ∈ ks then yieldCalls h x else [] := by
  induction ks with
  | nil => rfl
  | cons k ks ih =>
    obtain ⟨single, nodup⟩ := List.nodup_cons.mp nodup
    rw [List.flatMap_cons, callsAbout_append, ih nodup, callsAbout_yieldCalls]
    by_cases same : k = x
    · subst same
      simp [single]
    · simp [same, Ne.symm same]

/-- One that is not resumed has nothing to give. -/
theorem yieldFocus_of_calm (calm : w.hierarchy.activityHas (·.state == .resumed) k = false) :
    yieldFocus w k = w := by
  cases held : w.hierarchy.activity? k with
  | none => exact yieldFocus_of_absent held
  | some r =>
    have awake : r.state ≠ .resumed := by simpa [activityHas_of_activity? held] using calm
    rw [yieldFocus_eq_put held, Turn.yieldFocus, if_neg awake, World.put_self held,
      List.append_nil]

theorem foldl_yieldFocus_eq_self
    (calm : ∀ k ∈ ks, w.hierarchy.activityHas (·.state == .resumed) k = false) :
    ks.foldl yieldFocus w = w := by
  induction ks with
  | nil => rfl
  | cons k ks ih =>
    obtain ⟨here, calm⟩ := List.forall_mem_cons.mp calm
    rw [List.foldl_cons, yieldFocus_of_calm here, ih calm]

theorem node?_foldl_yieldFocus_of_calm
    (calm : w.hierarchy.activityHas (·.state == .resumed) k = false) :
    (ks.foldl yieldFocus w).hierarchy.node? k = w.hierarchy.node? k := by
  induction ks generalizing w with
  | nil => rfl
  | cons j ks ih =>
    by_cases here : k = j
    · subst here
      rw [List.foldl_cons, yieldFocus_of_calm calm, ih calm]
    · have apart : (yieldFocus w j).hierarchy.node? k = w.hierarchy.node? k :=
        node?_yieldFocus_of_ne here w
      rw [List.foldl_cons, ih, apart]
      rw [activityHas, activity?, data?, apart]
      exact calm

theorem yieldCalls_of_calm (calm : h.activityHas (·.state == .resumed) k = false) :
    yieldCalls h k = [] := by
  unfold yieldCalls Turn.yieldFocus
  cases held : h.activity? k with
  | none => rfl
  | some r =>
    rw [activityHas_of_activity? held] at calm
    simp_all

namespace Turn

theorem yieldFocus_of_resumed (awake : r.state = .resumed) : yieldFocus k r =
    { record := { r with state := if r.visibleRequested then .paused else .stopped }
      calls := [.transaction k (if r.visibleRequested then .pause else .stop)] } := by
  rw [yieldFocus, if_pos awake]
  split <;> rfl

theorem calm_yieldFocus : (yieldFocus k r).record.state ≠ .resumed := by
  unfold yieldFocus
  split
  · split <;> simp
  · assumption

/-- What becomes of the activity that is to have the focus. -/
def front (k : NodeId) (r : ActivityRecord) : Turn :=
  if r.visibleRequested then takeFocus k r else { record := r }

theorem record_front : (front k r).record =
    { r with
      state := if r.attached && r.visibleRequested then .resumed else r.state
      restarting := r.restarting || r.visibleRequested && !r.attached } := by
  cases r
  unfold front takeFocus
  split
  · split
    · split <;> simp_all
    split <;> simp_all
  · simp_all

theorem calls_front : (front k r).calls =
    if r.visibleRequested && !r.attached && !r.restarting then [.startProcess k true true]
    else if r.visibleRequested && r.attached && r.state != .resumed then [.transaction k .resume]
    else [] := by
  unfold front takeFocus
  cases r.visibleRequested <;> cases r.attached <;> cases r.restarting <;>
    by_cases resumed : r.state = .resumed <;> simp [resumed]

theorem activity?_of_mem_calls_front {call : Call} (made : call ∈ (front k r).calls) :
    call.activity? = some k := by
  rw [calls_front] at made
  split at made
  · simp_all [Call.activity?]
  split at made <;> simp_all [Call.activity?]

theorem front_eq_self (resumed : r.visibleRequested = true → r.attached = true → r.state = .resumed)
    (asked : r.visibleRequested = true → r.attached = false → r.restarting = true) :
    front k r = { record := r } := by
  unfold front takeFocus
  cases wanted : r.visibleRequested with
  | false => simp
  | true => cases hosted : r.attached <;> simp_all

theorem front_twice : front k (front k r).record = { record := (front k r).record } := by
  have kept := record_front (k := k) (r := r)
  apply front_eq_self <;> simp +contextual [kept]

end Turn

section
variable (focus : focusOf? w.hierarchy display = some top)
  (held : w.hierarchy.activity? top = some r)
include focus held

/-- The focus passes on in two stages: the rivals give way, and then the activity itself is
written. -/
theorem resumeFocused_eq_put :
    (resumeFocused w display).1 = ((rivals w.hierarchy display top).foldl yieldFocus w).put top
      (Turn.front top r).record (Turn.front top r).calls := by
  have kept := (activity?_foldl_yieldFocus (not_mem_rivals w.hierarchy display top) w).trans held
  rw [resumeFocused_of_some focus held, Turn.front]
  split
  · rfl
  · rw [World.put_self kept, List.append_nil]

theorem activity?_resumeFocused_top :
    (resumeFocused w display).1.hierarchy.activity? top = some (Turn.front top r).record := by
  have kept := (activity?_foldl_yieldFocus (not_mem_rivals w.hierarchy display top) w).trans held
  rw [resumeFocused_eq_put focus held, World.activity?_put kept]

theorem activity?_resumeFocused_of_rival (forest : Forest w.hierarchy)
    (rival : x ∈ rivals w.hierarchy display top) (found : w.hierarchy.activity? x = some s) :
    (resumeFocused w display).1.hierarchy.activity? x = some (Turn.yieldFocus x s).record := by
  have other : x ≠ top := fun same => not_mem_rivals w.hierarchy display top (same ▸ rival)
  rw [resumeFocused_eq_put focus held, World.activity?_put_of_ne other]
  exact (foldl_yieldFocus_each (nodup_rivals forest display top) w).1 x rival s found

/-- What gives nothing away stays as it is: no rival, or one that is not resumed. -/
theorem node?_resumeFocused (other : x ≠ top)
    (calm : x ∈ rivals w.hierarchy display top →
      w.hierarchy.activityHas (·.state == .resumed) x = false) :
    (resumeFocused w display).1.hierarchy.node? x = w.hierarchy.node? x := by
  rw [resumeFocused_eq_put focus held, World.node?_put_of_ne other]
  by_cases rival : x ∈ rivals w.hierarchy display top
  · exact node?_foldl_yieldFocus_of_calm (calm rival)
  · exact node?_foldl_yieldFocus rival w

end

/-- The calls that are made as the focus passes to an activity with this record. -/
def handoverCalls (h : Hierarchy) (display top : NodeId) (r : ActivityRecord) : List Call :=
  (rivals h display top).flatMap (yieldCalls h) ++ (Turn.front top r).calls

theorem calls_resumeFocused (forest : Forest w.hierarchy)
    (focus : focusOf? w.hierarchy display = some top)
    (held : w.hierarchy.activity? top = some r) :
    (resumeFocused w display).1.calls =
      w.calls ++ handoverCalls w.hierarchy display top r := by
  have yielded := (foldl_yieldFocus_each (nodup_rivals forest display top) w).2
  rw [resumeFocused_eq_put focus held, handoverCalls, ← List.append_assoc, ← yielded]
  rfl

theorem callsAbout_handoverCalls (forest : Forest h) (display top : NodeId) (r : ActivityRecord)
    (x : NodeId) : callsAbout x (handoverCalls h display top r) =
      if x = top then (Turn.front top r).calls
      else if x ∈ rivals h display top then yieldCalls h x else [] := by
  have own : callsAbout x (Turn.front top r).calls =
      if top = x then (Turn.front top r).calls else [] :=
    callsAbout_of_forall (fun _ => Turn.activity?_of_mem_calls_front) x
  rw [handoverCalls, callsAbout_append, callsAbout_flatMap (nodup_rivals forest display top), own]
  by_cases same : x = top
  · subst same
    rw [if_neg (not_mem_rivals h display x), if_pos rfl, List.nil_append]
  · rw [if_neg (Ne.symm same), if_neg same, List.append_nil]

theorem isSome_of_mem_handoverCalls {call : Call} (made : call ∈ handoverCalls h display top r) :
    call.activity?.isSome = true := by
  rcases List.mem_append.mp made with yielded | own
  · obtain ⟨k, _, told⟩ := List.mem_flatMap.mp yielded
    rw [activity?_of_mem_yieldCalls told]
    rfl
  · rw [Turn.activity?_of_mem_calls_front own]
    rfl

/-- The activity `top` has the focus on a display, and all others there have given way. `r` was its
record, and `calls` are the calls made. -/
structure Handover (w w' : World) (display top : NodeId) (r : ActivityRecord)
    (calls : List Call) : Prop where
  made : w'.calls = w.calls ++ calls
  exclusive : ∀ x, w'.hierarchy.displayOf? x = some display →
    w'.hierarchy.activityHas (·.state == .resumed) x = true → x = top
  yielded : ∀ x s, x ≠ top → w.hierarchy.displayOf? x = some display →
    w.hierarchy.activity? x = some s → s.state = .resumed →
      w'.hierarchy.activity? x =
        some { s with state := if s.visibleRequested then .paused else .stopped } ∧
      callsAbout x calls = [.transaction x (if s.visibleRequested then .pause else .stop)]
  front : w'.hierarchy.activity? top = some
    { r with
      state := if r.attached && r.visibleRequested then .resumed else r.state
      restarting := r.restarting || r.visibleRequested && !r.attached }
  resumed : w'.hierarchy.activityHas (·.state == .resumed) top = true ↔
    r.state = .resumed ∨ r.attached = true ∧ r.visibleRequested = true
  told : callsAbout top calls =
    if r.visibleRequested && !r.attached && !r.restarting then [.startProcess top true true]
    else if r.visibleRequested && r.attached && r.state != .resumed then [.transaction top .resume]
    else []
  kept : ∀ x, x ≠ top → (w.hierarchy.displayOf? x = some display →
      w.hierarchy.activityHas (·.state == .resumed) x = false) →
    w'.hierarchy.node? x = w.hierarchy.node? x ∧ callsAbout x calls = []
  named : ∀ call ∈ calls, call.activity?.isSome = true
  next : w'.hierarchy.nodes.next = w.hierarchy.nodes.next
  displays : w'.hierarchy.displays = w.hierarchy.displays
  nextTaskId : w'.hierarchy.nextTaskId = w.hierarchy.nextTaskId
  parent? : w'.hierarchy.parent? = w.hierarchy.parent?
  children : w'.hierarchy.children = w.hierarchy.children

theorem handover_of_focus (forest : Forest w.hierarchy)
    (shown : (w.hierarchy.display? display).isSome = true)
    (focus : focusOf? w.hierarchy display = some top)
    (held : w.hierarchy.activity? top = some r) :
    Handover w (resumeFocused w display).1 display top r
      (handoverCalls w.hierarchy display top r) := by
  have same := sameView_resumeFocused w display
  have front := activity?_resumeFocused_top focus held
  have about := callsAbout_handoverCalls forest display top r
  have rival : ∀ {x s}, x ≠ top → w.hierarchy.displayOf? x = some display →
      w.hierarchy.activity? x = some s → x ∈ rivals w.hierarchy display top :=
    fun other placed found =>
      (mem_rivals forest shown).mpr ⟨other, placed, by simp [isActivity, found]⟩
  refine ⟨calls_resumeFocused forest focus held, ?exclusive, ?yielded, ?front, ?resumed, ?told,
    ?kept, fun _ => isSome_of_mem_handoverCalls, same.next, same.displays, same.nextTaskId,
    same.parent?, same.children⟩
  case exclusive =>
    intro x placed resumed
    by_contra other
    obtain ⟨s', found', awake⟩ := exists_of_activityHas resumed
    obtain ⟨s, found, _⟩ := SameView.exists_activity? (SameView.symm same) found'
    rw [same.displayOf?] at placed
    have yielded :=
      activity?_resumeFocused_of_rival focus held forest (rival other placed found) found
    rw [found', Option.some.injEq] at yielded
    subst yielded
    exact Turn.calm_yieldFocus (by simpa using awake)
  case yielded =>
    intro x s other placed found awake
    have member := rival other placed found
    rw [activity?_resumeFocused_of_rival focus held forest member found, about, if_neg other,
      if_pos member, yieldCalls_of_activity? found, Turn.yieldFocus_of_resumed awake]
    exact ⟨rfl, rfl⟩
  case front => rw [front, Turn.record_front]
  case resumed =>
    rw [activityHas_of_activity? front, Turn.record_front]
    cases hosted : r.attached <;> cases wanted : r.visibleRequested <;> simp
  case told => rw [about, if_pos rfl, Turn.calls_front]
  case kept =>
    intro x other calm
    have aside : x ∈ rivals w.hierarchy display top →
        w.hierarchy.activityHas (·.state == .resumed) x = false :=
      fun member => calm ((mem_rivals forest shown).mp member).2.1
    refine ⟨node?_resumeFocused focus held other aside, ?_⟩
    rw [about, if_neg other]
    split
    · exact yieldCalls_of_calm (aside ‹_›)
    · rfl

/-- When the focus has passed on, it passes on no further. -/
theorem resumeFocused_twice (forest : Forest w.hierarchy)
    (shown : (w.hierarchy.display? display).isSome = true)
    (focus : focusOf? w.hierarchy display = some top)
    (held : w.hierarchy.activity? top = some r) :
    resumeFocused (resumeFocused w display).1 display = resumeFocused w display := by
  have same := sameView_resumeFocused w display
  have front := activity?_resumeFocused_top focus held
  have handover := handover_of_focus forest shown focus held
  have answer := resumeFocused_answer focus held
  have focus' : focusOf? (resumeFocused w display).1.hierarchy display = some top :=
    (focusOf?_congr same display).trans focus
  have wanted : (Turn.front top r).record.visibleRequested = r.visibleRequested := by
    rw [Turn.record_front]
  have answer' := resumeFocused_answer focus' front
  have calm : ∀ x ∈ rivals (resumeFocused w display).1.hierarchy display top,
      (resumeFocused w display).1.hierarchy.activityHas (·.state == .resumed) x = false := by
    intro x member
    rw [rivals_congr same, mem_rivals forest shown, ← same.displayOf?] at member
    obtain ⟨other, placed, _⟩ := member
    exact Bool.eq_false_iff.mpr fun resumed => other (handover.exclusive x placed resumed)
  have again : (resumeFocused (resumeFocused w display).1 display).1 =
      (resumeFocused w display).1 := by
    rw [resumeFocused_eq_put focus' front, foldl_yieldFocus_eq_self calm, Turn.front_twice,
      World.put_self front, List.append_nil]
  exact Prod.ext again (by rw [answer', answer, wanted])

/-- Resuming on a display hands the focus over to the top running activity of the focused root
task. No other activity of the display stays resumed, and nothing else changes, on the display or
off it. The activity is answered just when it is wanted on screen, and a second call is for
nothing. -/
theorem handover_resumeFocused (forest : Forest w.hierarchy)
    (shown : (w.hierarchy.display? display).isSome = true)
    (focused : w.hierarchy.focusedRootTask? display = some root)
    (running : w.hierarchy.topRunningActivity? root = some top) :
    ∃ r calls, w.hierarchy.activity? top = some r ∧
      Handover w (resumeFocused w display).1 display top r calls ∧
      (resumeFocused w display).2 = (if r.visibleRequested then some top else none) ∧
      resumeFocused (resumeFocused w display).1 display = resumeFocused w display := by
  have focus : focusOf? w.hierarchy display = some top := by
    rw [focusOf?, focused, Option.bind_some, running]
  obtain ⟨r, held, _⟩ := isRunning_of_focusOf? focus
  exact ⟨r, _, held, handover_of_focus forest shown focus held, resumeFocused_answer focus held,
    resumeFocused_twice forest shown focus held⟩

/-- An inbox without a process comes to have the focus. A pinned player above it and a list in a
task below it give way, the one paused and the other stopped, and a map on another display stays
resumed. -/
theorem handover_resumeFocused_of_inbox :
    let record (name : String) (state : ActivityState) (wanted hosted : Bool) : ActivityRecord :=
      { ActivityRecord.create { component := ⟨"mail", name⟩, uid := ⟨10010⟩ } {} with
        attached := hosted, state := state, visibleRequested := wanted }
    let before := afterCalls
      [.addDisplay ⟨0⟩ ⟨0, 0, 1920, 1080⟩, .createRootTask ⟨2⟩ .fullscreen .standard .top,
        .createTask ⟨3⟩ {} .top, .addActivity ⟨4⟩ (record "List" .resumed false true) .top,
        .createRootTask ⟨2⟩ .fullscreen .standard .top,
        .addActivity ⟨6⟩ (record "Inbox" .stopped true false) .top,
        .createRootTask ⟨2⟩ .pinned .standard .top,
        .addActivity ⟨8⟩ (record "Player" .resumed true true) .top,
        .addDisplay ⟨1⟩ ⟨0, 0, 800, 600⟩, .createRootTask ⟨11⟩ .fullscreen .standard .top,
        .addActivity ⟨12⟩ (record "Map" .resumed true true) .top]
    let after := resumeFocused { hierarchy := before } ⟨1⟩
    after.2 = some ⟨7⟩ ∧ resumeFocused after.1 ⟨1⟩ = after ∧
      after.1.hierarchy.activity? ⟨5⟩ = some (record "List" .stopped false true) ∧
      after.1.hierarchy.activity? ⟨9⟩ = some (record "Player" .paused true true) ∧
      after.1.hierarchy.activity? ⟨7⟩ =
        some { record "Inbox" .stopped true false with restarting := true } ∧
      after.1.hierarchy.node? ⟨13⟩ = before.node? ⟨13⟩ ∧
      callsAbout ⟨7⟩ after.1.calls = [.startProcess ⟨7⟩ true true] := by
  intro record before after
  have forest : Forest before := (wellFormed_afterCalls _).forest
  have shown : (before.display? ⟨1⟩).isSome = true := by decide +kernel
  have focused : before.focusedRootTask? ⟨1⟩ = some ⟨6⟩ := by decide +kernel
  have running : before.topRunningActivity? ⟨6⟩ = some ⟨7⟩ := by decide +kernel
  have inbox : before.activity? ⟨7⟩ = some (record "Inbox" .stopped true false) := by
    decide +kernel
  have list : before.activity? ⟨5⟩ = some (record "List" .resumed false true) := by decide +kernel
  have player : before.activity? ⟨9⟩ = some (record "Player" .resumed true true) := by
    decide +kernel
  have below : before.displayOf? ⟨5⟩ = some ⟨1⟩ := by decide +kernel
  have above : before.displayOf? ⟨9⟩ = some ⟨1⟩ := by decide +kernel
  have elsewhere : before.displayOf? ⟨13⟩ ≠ some ⟨1⟩ := by decide +kernel
  clear_value before
  obtain ⟨r, calls, held, handover, answer, again⟩ :=
    handover_resumeFocused (w := { hierarchy := before }) forest shown focused running
  obtain rfl : record "Inbox" .stopped true false = r := Option.some.inj (inbox.symm.trans held)
  refine ⟨answer, again, (handover.yielded ⟨5⟩ _ (by decide) below list rfl).1,
    (handover.yielded ⟨9⟩ _ (by decide) above player rfl).1, handover.front,
    (handover.kept ⟨13⟩ (by decide) fun placed => absurd placed elsewhere).1, ?_⟩
  rw [show after.1.calls = calls from handover.made]
  exact handover.told

end WindowHost.Visibility
