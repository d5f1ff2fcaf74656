import WindowHost.Proofs.Run.Starts
import WindowHost.Proofs.Visibility.UpToDate

/-! What a start leaves to later passes. The last pass of a launch brings one display up to date,
and everything else that the launch changes is on that display too, but for the one that a reused
task has been moved away from. -/
namespace WindowHost
open Hierarchy
variable {w w' : World} {h h' h'' : Hierarchy} {k p : NodeId} {position : Position}

/-- The same nodes are displays. -/
def SameDisplays (h h' : Hierarchy) : Prop :=
  ∀ d, (h'.display? d).isSome = (h.display? d).isSome

theorem SameDisplays.trans (first : SameDisplays h h') (second : SameDisplays h' h'') :
    SameDisplays h h'' :=
  fun d => (second d).trans (first d)

theorem sameDisplays_of_data? (same : ∀ j, h'.data? j = h.data? j) : SameDisplays h h' :=
  fun d => by rw [display?, display?, same]

theorem Hierarchy.SameFrame.sameDisplays (frame : SameFrame h h') : SameDisplays h h' := by
  intro d
  rw [Bool.eq_iff_iff, Option.isSome_iff_exists, Option.isSome_iff_exists, exists_display?_iff,
    exists_display?_iff, frame.tag]

theorem sameDisplays_insertUnder {data : NodeData}
    (added : h.insertUnder p data position = .ok h') (plain : data.display? = none) :
    SameDisplays h h' := by
  intro d
  rw [display?, display?, data?_insertUnder added]
  split
  · rename_i new
    rw [new, data?_of_not_contains (contains_nextId h), Option.bind_some, plain]
    rfl
  · rfl

theorem sameDisplays_createTask {spec : TaskSpec}
    (made : h.createTask p spec position = .ok (h', k)) : SameDisplays h h' := by
  obtain ⟨_, added, rfl, _⟩ := createTask_eq_ok_iff.mp made
  have grown := sameDisplays_insertUnder added rfl
  exact grown

theorem Hierarchy.Cleared.sameDisplays {ks : List NodeId} (cleared : Cleared ks h h')
    (leaves : ∀ k ∈ ks, h.isActivity k = true) : SameDisplays h h' := by
  intro d
  rw [display?, display?, cleared.data?]
  split
  · rename_i gone
    have leaf := leaves d gone
    cases found : h.data? d with
    | none => rfl
    | some data =>
      cases data <;>
        simp_all [isActivity, Hierarchy.activity?, NodeData.activity?, NodeData.display?]
  · rfl

namespace Start

theorem sameDisplays_approach (formed : w.hierarchy.WellFormed) (approach : Approach w w') :
    SameDisplays w.hierarchy w'.hierarchy := by
  cases approach with
  | ask asked => exact sameDisplays_of_data? fun j => by rw [asked.hierarchy]
  | root found =>
    rcases getOrCreateRootTask_eq_ok found with ⟨_, rfl⟩ | ⟨_, created⟩
    · exact fun _ => rfl
    · exact sameDisplays_createTask created
  | task made => exact sameDisplays_createTask made
  | bounds task layout => exact (sameFrame_applyBounds _ task layout).sameDisplays
  | raise => exact sameDisplays_of_data? (data?_moveTaskToFront _ _)
  | move _ moved => exact sameDisplays_of_data? (data?_reparent moved)
  | clear leaves => exact (formed.forest.cleared_of_isActivity leaves).sameDisplays leaves

theorem sameDisplays_approaches (reached : Reachable w.hierarchy) (approaches : Approaches w w') :
    SameDisplays w.hierarchy w'.hierarchy := by
  induction approaches with
  | refl => exact fun _ => rfl
  | tail further approach ih =>
    exact ih.trans (sameDisplays_approach ((kept_approaches further).reached reached).wellFormed
      approach)

end Start

namespace Start
open Visibility
variable {env : Environment} {r : StartRequest} {h₀ : Hierarchy} {record a b : ActivityRecord}
  {u : World} {x task display other last : NodeId} {starting out : Option NodeId}
  {result : StartResult} {locked : DisplayId → Bool}

/-- Resumed activities are wanted on screen. -/
def Steady (h : Hierarchy) : Prop :=
  ∀ k a, h.activity? k = some a → a.state = .resumed → a.finishing = false →
    a.visibleRequested = true

theorem Steady.put (steady : Steady u.hierarchy) (held : u.hierarchy.activity? x = some a)
    (kept : b.state = .resumed → b.finishing = false → b.visibleRequested = true)
    (calls : List Call) : Steady (u.put x b calls).hierarchy := by
  intro j c found up lasts
  rcases World.activity?_put_cases held found with ⟨rfl, rfl⟩ | ⟨_, before⟩
  · exact kept up lasts
  · exact steady j c before up lasts

/-- A launch that has come to its place is ready for its last pass, which is for the display of the
place. What has changed since is on that display. -/
structure Prepared (w u : World) (x display : NodeId) (starting : Option NodeId) : Prop where
  reached : Reachable u.hierarchy
  live : u.hierarchy.contains x = true
  same : u.hierarchy.displayOf? x = w.hierarchy.displayOf? x
  here : ∀ d, w.hierarchy.displayOf? x = some d → display = d
  displays : SameDisplays w.hierarchy u.hierarchy
  shown : (w.hierarchy.display? display).isSome = true
  spares : ∀ d, w.hierarchy.displayOf? x ≠ some d → Spares w.hierarchy u.hierarchy d
  steady : Steady u.hierarchy
  begins : ∀ k, starting = some k →
    ∃ a, u.hierarchy.activity? k = some a ∧ a.isRunning = true ∧ a.attached = false

theorem isSome_display?_getD {shown : Option NodeId} (lasts : (h.display? last).isSome = true)
    (here : ∀ d, shown = some d → (h.display? d).isSome = true) :
    (h.display? (shown.getD last)).isSome = true := by
  cases found : shown with
  | none => exact lasts
  | some d => exact here d found

theorem prepared_added (reached : Reachable w.hierarchy) (fresh : record.Fresh)
    (steady : Steady w.hierarchy) (shown : (w.hierarchy.display? last).isSome = true)
    (made : w.hierarchy.addActivity x record .top = .ok (h, k)) :
    Prepared w { w with hierarchy := h } x ((w.hierarchy.displayOf? x).getD last) (some k) := by
  have reached' : Reachable h := reached.changes (.single (.addActivity made))
  obtain ⟨added, rfl⟩ := addActivity_eq_ok_iff.mp made
  obtain ⟨outer, found, _⟩ := insertUnder_eq_ok_iff.mp added
  have old := ne_nextId_of_contains (contains_of_data? found)
  constructor
  · exact reached'
  · refine contains_of_data? (d := outer) ?_
    rw [data?_insertUnder added, if_neg old, found]
  · exact displayOf?_parent_insertUnder reached.wellFormed.forest reached'.wellFormed.forest added
  · intro d placed
    rw [placed, Option.getD_some]
  · exact sameDisplays_insertUnder added rfl
  · exact isSome_display?_getD shown fun _ => isSome_display?_of_displayOf?
  · exact fun d => spares_addActivity made
  · intro j a held up lasts
    rw [activity?_addActivity made] at held
    split at held
    · cases held
      rw [fresh.state] at up
      contradiction
    · exact steady j a held up lasts
  · rintro _ ⟨⟩
    refine ⟨record, ?_, ?_, fresh.bare⟩
    · rw [activity?_addActivity made, if_pos rfl]
    · simp [ActivityRecord.isRunning, fresh.lasts, fresh.state]

/-- A reused task is cleared where it is. -/
theorem prepared_cleared {l : Launch} (reached : Reachable w.hierarchy)
    (steady : Steady w.hierarchy) (shown : (w.hierarchy.display? last).isSome = true)
    (live : w.hierarchy.isTask x = true) (cleared : (arrive w.hierarchy l record x).1 = h) :
    Prepared w { w with hierarchy := h } x ((h.displayOf? x).getD last) none := by
  have formed := reached.wellFormed
  have kept : Kept w.hierarchy h := kept_arrive cleared
  have same := displayOf?_arrive formed live l record
  have confined := confined_arrive formed l record x
  obtain ⟨ks, leaves, gone⟩ := cleared_arrive formed.forest l record x
  rw [cleared] at same confined gone
  constructor
  · exact kept.reached reached
  · rw [gone.contains]
    simp [contains_of_isTask live, not_mem_of_isTask leaves live]
  · exact same
  · intro d placed
    rw [same, placed, Option.getD_some]
  · exact gone.sameDisplays leaves
  · rw [same]
    exact isSome_display?_getD shown fun _ => isSome_display?_of_displayOf?
  · intro d apart
    exact confined d apart (same ▸ apart)
  · exact fun k a held => steady k a (kept.activity k a held)
  · simp

/-- The activity with the focus is on its display. -/
theorem prepared_topped (reached : Reachable w.hierarchy) (steady : Steady w.hierarchy)
    (shown : (w.hierarchy.display? display).isSome = true)
    (found : deliverableTop? w.hierarchy display record = some x) :
    Prepared w w x display none := by
  have forest := reached.wellFormed.forest
  obtain ⟨a, held, _⟩ := exists_running_of_deliverableTop? found
  have placed : w.hierarchy.displayOf? x = some display := by
    unfold deliverableTop? at found
    split at found
    · obtain ⟨root, focused, top⟩ :=
        Option.bind_eq_some_iff.mp (Option.filter_eq_some_iff.mp found).1
      have listed := mem_rootTasks_of_focusedRootTask? focused
      exact forest.displayOf?_of_mem_activities
        (forest.displayOf?_of_inside shown (forest.inside_of_mem_rootTasks listed))
        (List.mem_of_find?_eq_some top)
    · contradiction
  refine ⟨reached, contains_of_activity? held, rfl, fun d here => ?_, fun _ => rfl, shown,
    fun d _ => .refl w.hierarchy d, steady, by simp⟩
  rw [placed, Option.some.injEq] at here
  exact here

section
variable (prepared : Prepared w u x display starting) (forest : Forest w.hierarchy)
include prepared forest

theorem Prepared.raise :
    Prepared w { u with hierarchy := (u.hierarchy.moveTaskToFront x).1 } x display starting := by
  have formed := prepared.reached.wellFormed
  have data := data?_moveTaskToFront u.hierarchy x
  constructor
  · exact prepared.reached.changes (changes_moveTaskToFront u.hierarchy x)
  · exact (contains_congr (data x)).trans prepared.live
  · exact (displayOf?_moveTaskToFront ..).trans prepared.same
  · exact prepared.here
  · exact prepared.displays.trans (sameDisplays_of_data? data)
  · exact prepared.shown
  · intro d apart
    exact (prepared.spares d apart).trans forest formed.forest
      (formed.spares_moveTaskToFront (prepared.same ▸ apart))
  · exact fun k a held => prepared.steady k a ((activity?_of_data? (data k)).symm.trans held)
  · intro k starts
    obtain ⟨a, held, begun⟩ := prepared.begins k starts
    exact ⟨a, (activity?_of_data? (data k)).trans held, begun⟩

/-- An edit of an activity next to the place that leaves alone what a pass looks at. -/
theorem Prepared.put (held : u.hierarchy.activity? k = some a)
    (around : u.hierarchy.displayOf? k = u.hierarchy.displayOf? x)
    (state : b.state = a.state) (lasts : b.finishing = a.finishing)
    (wanted : b.visibleRequested = a.visibleRequested) (calls : List Call) :
    Prepared w (u.put k b calls) x display none := by
  have formed := prepared.reached.wellFormed
  have frame : SameFrame u.hierarchy (u.put k b calls).hierarchy := sameFrame_modifyActivity k _
  have same : ∀ j, (u.put k b calls).hierarchy.displayOf? j = u.hierarchy.displayOf? j :=
    displayOf?_modifyActivity u.hierarchy k _
  constructor
  · exact prepared.reached.editActivity k _
  · rw [contains_eq_isSome_tag?, frame.tag, ← contains_eq_isSome_tag?]
    exact prepared.live
  · exact (same x).trans prepared.same
  · exact prepared.here
  · exact prepared.displays.trans frame.sameDisplays
  · exact prepared.shown
  · intro d apart
    refine (prepared.spares d apart).trans forest formed.forest (spares_modifyData ?_ _)
    rw [around, prepared.same]
    exact apart
  · refine prepared.steady.put held (fun up lasts' => ?_) calls
    rw [wanted]
    exact prepared.steady k a held (state ▸ up) (lasts ▸ lasts')
  · simp

end

theorem exists_prepared_of_landing (reached₀ : Reachable h₀) (same : SameDisplays h₀ w.hierarchy)
    (reached : Reachable w.hierarchy) (fresh : record.Fresh) (steady : Steady w.hierarchy)
    (landing : Landing env r h₀ record x w w' out result)
    (succeeds : result.isSuccessful = true) :
    ∃ u display starting, w' = propagate env u display starting ∧
      Prepared w u x display starting := by
  have forest := reached.wellFormed.forest
  have screen : ∀ {l : Launch}, l.Of r h₀ → (w.hierarchy.display? l.display).isSome = true :=
    fun chosen => (same _).trans (isSome_display?_of_chosen chosen reached₀.wellFormed)
  cases landing with
  | failed ks fails =>
    rw [fails] at succeeds
    contradiction
  | @added l h h' k display chosen made front shown =>
    have added := prepared_added reached fresh steady (screen chosen) made
    have under : h.displayOf? k = h.displayOf? x :=
      added.reached.wellFormed.forest.displayOf?_of_parent (parent?_addActivity made)
    have placed : h'.displayOf? k = w.hierarchy.displayOf? x := by
      rw [front]
      split
      · rw [displayOf?_moveTaskToFront, under]
        exact added.same
      · exact under.trans added.same
    have display : display = (w.hierarchy.displayOf? x).getD l.display := by
      rwa [placed, or_self] at shown
    rw [display, front]
    refine ⟨_, _, some k, rfl, ?_⟩
    split
    · exact added.raise forest
    · exact added
  | @delivered l h k moved chosen live _ arrived =>
    have cleared := prepared_cleared reached steady (screen chosen) live (congrArg Prod.fst arrived)
    have forest' := cleared.reached.wellFormed.forest
    have top := topRunningActivity?_arrive forest live arrived
    obtain ⟨a, held, _⟩ := exists_of_topRunningActivity? top
    have around : h.displayOf? k = h.displayOf? x :=
      forest'.displayOf?_eq_of_mem_activities (List.mem_of_find?_eq_some top)
    rw [deliver_eq_put (w := { w with hierarchy := h }) held]
    refine ⟨_, _, none, rfl, cleared.put forest held around ?_ ?_ ?_ _⟩ <;> rfl
  | @kept l h moved chosen live _ arrived =>
    have cleared := prepared_cleared reached steady (screen chosen) live (congrArg Prod.fst arrived)
    have forest' := cleared.reached.wellFormed.forest
    refine ⟨_, _, none, rfl, ?_⟩
    cases top : h.topRunningActivity? x with
    | none => exact cleared
    | some k =>
      obtain ⟨a, held, _⟩ := exists_of_topRunningActivity? top
      have around : h.displayOf? k = h.displayOf? x :=
        forest'.displayOf?_eq_of_mem_activities (List.mem_of_find?_eq_some top)
      rw [leaveCookie_eq_put (w := { w with hierarchy := h }) held]
      refine cleared.put forest held around ?_ ?_ ?_ _ <;> rfl
  | @topped l chosen found =>
    have topped := prepared_topped reached steady (screen chosen) found
    obtain ⟨a, held, _⟩ := exists_running_of_deliverableTop? found
    rw [deliver_eq_put held]
    refine ⟨_, _, none, rfl, topped.put forest held rfl ?_ ?_ ?_ _⟩ <;> rfl

/-- The last pass brings its display up to date. -/
theorem Prepared.upToDate (prepared : Prepared w u x display starting)
    (locks : (env u.calls).keyguardLocked = locked) :
    UpToDate locked (propagate env u display starting).hierarchy display := by
  obtain ⟨reached, _, _, _, displays, shown, _, steady, begins⟩ := prepared
  rw [← displays] at shown
  rw [propagate_eq, locks]
  exact upToDate_of_pass reached.wellFormed.forest reached.paired shown steady begins

/-- The launch leaves every display alone that the place is on neither before nor now. -/
theorem Prepared.spares_propagate (prepared : Prepared w' u x display starting)
    (forest : Forest w.hierarchy) (forest' : Forest w'.hierarchy)
    (confined : Confined x w.hierarchy w'.hierarchy)
    (apart : w.hierarchy.displayOf? x ≠ some other) (here : other ≠ display) :
    Spares w.hierarchy (propagate env u display starting).hierarchy other := by
  have apart' : w'.hierarchy.displayOf? x ≠ some other :=
    fun placed => here (prepared.here other placed).symm
  have formed := prepared.reached.wellFormed
  have placed : Spares w.hierarchy u.hierarchy other :=
    (confined other apart apart').trans forest forest' (prepared.spares other apart')
  have passed : Spares u.hierarchy (propagate env u display starting).hierarchy other := by
    rw [propagate_eq]
    exact spares_of_pass formed.forest ((prepared.displays display).trans prepared.shown) here
  exact placed.trans forest formed.forest passed

/-- A display that was up to date is so after a successful start, if whatever was on it and is still
there has stayed on it. -/
theorem upToDate_execute {host : Host} {s : Starter} (reached : Reachable w.hierarchy)
    (steady : Steady w.hierarchy)
    (locks : ∀ calls, (host.environment calls).keyguardLocked = locked)
    (ran : execute host { request := r } w = (s, w', .ok result))
    (succeeds : result.isSuccessful = true) (listed : display ∈ w'.hierarchy.displays)
    (upToDate : UpToDate locked w.hierarchy display)
    (stay : ∀ k, w.hierarchy.displayOf? k = some display → w'.hierarchy.contains k = true →
      w'.hierarchy.displayOf? k = some display) :
    UpToDate locked w'.hierarchy display := by
  rcases course_execute ran with ⟨_, _, _, failed⟩ | ⟨_, done, course⟩
  · cases failed
  cases done
  cases course with
  | refused _ _ fails =>
    rw [fails] at succeeds
    contradiction
  | @placed _ w₁ _ r' caller info _ before after =>
    have lands := lands_place host r' caller info w₁
    obtain ⟨w₂, x, approaches, landing, confined⟩ := lands.exists_landing
    rw [← before.hierarchy] at reached steady upToDate stay
    have kept := kept_approaches approaches
    have reached₂ := kept.reached reached
    have steady₂ : Steady w₂.hierarchy := fun k a held => steady k a (kept.activity k a held)
    have displays := sameDisplays_approaches reached approaches
    obtain ⟨u, d, starting, made, prepared⟩ := exists_prepared_of_landing reached displays reached₂
      (fresh_newRecord ..) steady₂ landing succeeds
    have same := sameView_propagate host.environment u d starting
    rw [after.hierarchy, made] at stay listed ⊢
    by_cases here : display = d
    · rw [here]
      exact prepared.upToDate (locks u.calls)
    -- the place is on another display now, and so it was, or it would have been moved away
    have apart : w₁.hierarchy.displayOf? x ≠ some display := by
      intro placed
      have stays := stay x placed (by rw [same.contains, prepared.live])
      rw [same.displayOf?, prepared.same] at stays
      exact here (prepared.here display stays).symm
    have shown : (w₁.hierarchy.display? display).isSome = true := by
      rw [same.displays, prepared.reached.wellFormed.listed, ← Option.isSome_iff_exists] at listed
      rw [← displays, ← prepared.displays]
      exact listed
    have forest := reached.wellFormed.forest
    have frame := sameFrame_of_sameView same
    have forest' :=
      prepared.reached.wellFormed.forest.congr frame.parent frame.children frame.tag
    exact upToDate.of_spares forest forest' reached.paired shown
      (prepared.spares_propagate forest reached₂.wellFormed.forest
        (confined succeeds reached.wellFormed) apart here)

/-- Two displays, and two tasks on the first one: a calendar below a mailbox that is on screen. -/
def calendarBelowMail (day inbox : ActivityInfo) : Hierarchy :=
  let screen : Rect := ⟨0, 0, 1920, 1080⟩
  let asleep : ActivityRecord :=
    { ActivityRecord.create day {} with state := .stopped, attached := true }
  let up : ActivityRecord :=
    { ActivityRecord.create inbox {} with
      state := .resumed
      attached := true
      visibleRequested := true
      visibleIgnoringKeyguard := true }
  ([.addDisplay ⟨0⟩ screen, .addDisplay ⟨1⟩ screen,
    .createTask ⟨2⟩ { affinity := some "calendar", mode := .fullscreen } .top,
    .addActivity ⟨5⟩ asleep .top,
    .createTask ⟨2⟩ { affinity := some "mail", mode := .fullscreen } .top,
    .addActivity ⟨7⟩ up .top] : List Mutation).foldl mutate empty

/-- The calendar comes to the front of its display and hides the mailbox. -/
theorem upToDate_execute_of_calendar :
    let unlocked : DisplayId → Bool := fun _ => false
    let info (package name : String) : ActivityInfo :=
      { component := ⟨package, name⟩, uid := ⟨10010⟩, launchMode := .singleTask }
    let day := info "calendar" "Day"
    let h := calendarBelowMail day (info "mail" "Inbox")
    let request : StartRequest := { intent := .ofComponent day.component, info := some day }
    let started := execute { environment := fun _ => {} } { request := request } { hierarchy := h }
    (∀ d ∈ h.displays, UpToDate unlocked h d) ∧ started.2.2.toOption = some .taskToFront ∧
      (h.activity? ⟨6⟩).map (·.visibleRequested) = some false ∧
      (started.2.1.hierarchy.activity? ⟨6⟩).map (·.visibleRequested) = some true ∧
      ∀ d ∈ started.2.1.hierarchy.displays, UpToDate unlocked started.2.1.hierarchy d := by
  intro unlocked info day h request started
  have reached : Reachable h := Reachable.empty.foldl_mutate _
  have ready : ∀ d ∈ h.displays, UpToDate unlocked h d := by decide +kernel
  have result : started.2.2.toOption = some .taskToFront := by decide +kernel
  have hidden : (h.activity? ⟨6⟩).map (·.visibleRequested) = some false := by decide +kernel
  have shown : (started.2.1.hierarchy.activity? ⟨6⟩).map (·.visibleRequested) = some true := by
    decide +kernel
  have ran : execute { environment := fun _ => {} } { request := request } { hierarchy := h } =
      (started.1, started.2.1, .ok .taskToFront) := by
    refine Prod.ext rfl (Prod.ext rfl ?_)
    change started.2.2 = _
    cases found : started.2.2 <;> simp_all [Except.toOption]
  have steady : Steady h := forall_activity_of_lt_next (by decide +kernel)
  have same : ∀ d ∈ started.2.1.hierarchy.displays, d ∈ h.displays := by decide +kernel
  have stay : ∀ d ∈ h.displays, ∀ k, h.displayOf? k = some d →
      started.2.1.hierarchy.contains k = true → started.2.1.hierarchy.displayOf? k = some d := by
    have tried : ∀ d ∈ h.displays, ∀ i < h.nodes.next, h.displayOf? ⟨i⟩ = some d →
        started.2.1.hierarchy.contains ⟨i⟩ = true →
          started.2.1.hierarchy.displayOf? ⟨i⟩ = some d := by decide +kernel
    have absent : ∀ d k, h.contains k = false → h.displayOf? k ≠ some d := by
      intro d k stale
      simp [displayOf?, lineage, stale]
    exact fun d listed => forall_of_lt_next (fun k stale placed => absurd placed (absent d k stale))
      (tried d listed)
  clear_value started h
  refine ⟨ready, result, hidden, shown, fun d listed => ?_⟩
  have before := same d listed
  exact upToDate_execute reached steady (fun _ => rfl) ran rfl listed (ready d before)
    (stay d before)

/-- The mailbox moves to the other display, and nothing tells the calendar, which it has covered,
that it is seen now. -/
theorem not_upToDate_of_mail :
    let unlocked : DisplayId → Bool := fun _ => false
    let info (package name : String) : ActivityInfo :=
      { component := ⟨package, name⟩, uid := ⟨10010⟩, launchMode := .singleTask }
    let inbox := info "mail" "Inbox"
    let h := calendarBelowMail (info "calendar" "Day") inbox
    let request : StartRequest :=
      { intent := .ofComponent inbox.component
        info := some inbox
        options := some { displayId := some ⟨1⟩ } }
    let started := execute { environment := fun _ => {} } { request := request } { hierarchy := h }
    Reachable h ∧ Steady h ∧ (∀ d ∈ h.displays, UpToDate unlocked h d) ∧
      started.2.2.toOption = some .taskToFront ∧ StartResult.taskToFront.isSuccessful = true ∧
      ⟨1⟩ ∈ started.2.1.hierarchy.displays ∧
      ¬ UpToDate unlocked started.2.1.hierarchy ⟨1⟩ := by
  intro unlocked info inbox h request started
  refine ⟨Reachable.empty.foldl_mutate _, forall_activity_of_lt_next ?_, ?_, ?_, rfl, ?_, ?_⟩ <;>
    decide +kernel

end Start
end WindowHost
