import WindowHost.Proofs.Hierarchy.Front
import WindowHost.Proofs.Run.Starts
import WindowHost.Proofs.Visibility.Resumption

/-! A start in the foreground. Whatever way the launch takes, the activity that it ends at is what
runs at the front of its display when the last pass begins, so it is seen and has the focus. -/
namespace WindowHost.Start
open Hierarchy Visibility
variable {w w' : World} {h h' h₀ : Hierarchy} {env : Environment} {r : StartRequest}
  {record a : ActivityRecord} {display task goal k x : NodeId} {starting : Option NodeId}
  {result : StartResult}

/-- The launch is allowed to take the focus, and has done so. -/
def Foreground (r : StartRequest) (result : StartResult) : Prop :=
  result = .taskToFront ∨ result = .success ∧
    r.options.any LaunchOptions.taskBehind = false ∧
    r.options.any LaunchOptions.avoidMoveToFront = false

/-- The activity runs at the front of its display, which is about to be brought up to date. -/
structure Fronted (w : World) (display : NodeId) (starting : Option NodeId) (x : NodeId) :
    Prop where
  exists_front : ∀ d, w.hierarchy.displayOf? x = some d → display = d ∧ ∃ root k,
    AtFront w.hierarchy d root k ∧ w.hierarchy.topRunningActivity? k = some x
  exists_record : ∃ a, w.hierarchy.activity? x = some a ∧
    (a.state = .resumed → a.visibleRequested = true) ∧
    (starting = some x → a.attached = false ∧ a.restarting = false)

theorem Foreground.movesToFront {l : Launch} (foreground : Foreground r .success)
    (chosen : l.Of r h₀) : l.movesToFront = true := by
  obtain ⟨layout, display, _, rfl⟩ := chosen
  obtain front | ⟨_, front, stays⟩ := foreground
  · contradiction
  · simp [Launch.movesToFront, launch, front, stays]

theorem fronted_added {parent last : NodeId} (formed : h.WellFormed) (fresh : record.Fresh)
    (made : h.addActivity parent record .top = .ok (h', x))
    (shown : display = ((h'.moveTaskToFront parent).1.displayOf? x).getD last ∨
      display = (h.displayOf? parent).getD last) (calls : List Call) :
    Fronted { hierarchy := (h'.moveTaskToFront parent).1, calls := calls } display (some x) x := by
  obtain ⟨added, _⟩ := addActivity_eq_ok_iff.mp made
  have formed' : h'.WellFormed := formed.addActivity made
  have forest := (formed'.moveTaskToFront parent).forest
  have data := data?_moveTaskToFront h' parent
  have parents := parent?_moveTaskToFront h' parent
  have under := (parents x).trans (parent?_addActivity made)
  have container :=
    (isFragmentLike_of_data? (data parent)).trans (isFragmentLike_of_addActivity made)
  have last := (congrArg List.getLast? (children_moveTaskToFront forest)).trans
    (getLast?_children_addActivity made)
  have held : (h'.moveTaskToFront parent).1.activity? x = some record := by
    rw [activity?_of_data? (data x), activity?_addActivity made, if_pos rfl]
  have runs : record.isRunning = true := by
    simp [ActivityRecord.isRunning, fresh.lasts, fresh.state]
  refine ⟨fun d placed => ?_, record, held, fun up => ?_, fun _ => ⟨fresh.bare, fresh.idle⟩⟩
  · have around : (h'.moveTaskToFront parent).1.displayOf? parent = some d :=
      (forest.displayOf?_of_parent under).symm.trans placed
    obtain ⟨root, front⟩ :=
      exists_atFront_moveTaskToFront (formed'.moveTaskToFront parent) container around
    refine ⟨?_, root, parent, front, forest.topRunningActivity?_of_last container last ?_⟩
    · rcases shown with rfl | rfl
      · rw [placed, Option.getD_some]
      · rw [displayOf?_congr (next_moveTaskToFront h' parent) parents data] at around
        rw [displayOf?_parent_insertUnder formed.forest formed'.forest added] at around
        rw [around, Option.getD_some]
    · rw [activityHas_of_activity? held, runs]
  · rw [fresh.state] at up
    contradiction

/-- Clearing a task at the front, and an edit of the activity that is its top then. -/
theorem fronted_cleared {ks : List NodeId} {b : ActivityRecord} {last : NodeId}
    (formed : (h.moveTaskToFront task).1.WellFormed)
    (live : (h.moveTaskToFront task).1.isTask task = true)
    (leaves : ∀ k ∈ ks, (h.moveTaskToFront task).1.isActivity k = true)
    (cleared : h' = ks.foldl Hierarchy.remove (h.moveTaskToFront task).1)
    (top : h'.topRunningActivity? task = some x) (held : h'.activity? x = some a)
    (steady : a.state = .resumed → a.visibleRequested = true)
    (runs : b.isRunning = a.isRunning) (state : b.state = a.state)
    (wanted : b.visibleRequested = a.visibleRequested) (calls more : List Call) :
    Fronted (World.put { hierarchy := h', calls := calls } x b more)
      ((h'.displayOf? task).getD last) none x := by
  have stays := not_mem_of_isTask leaves live
  have gone : Cleared ks (h.moveTaskToFront task).1 h' :=
    cleared ▸ formed.forest.cleared_of_isActivity leaves
  have forest' : Forest h' := cleared ▸ formed.forest.foldl_remove ks
  have displays : h'.displays = (h.moveTaskToFront task).1.displays := by
    rw [cleared]
    refine formed.displays_foldl_remove ks fun k member t found => ?_
    rw [isActivity_eq_true_iff.mp (leaves k member)] at found
    exact (Option.some.inj found).symm
  have container := isFragmentLike_of_isTask live
  have frame : SameFrame h' (h'.modifyActivity x fun _ => b) := sameFrame_modifyActivity x _
  have top' : (h'.modifyActivity x fun _ => b).topRunningActivity? task = some x := by
    rw [topRunningActivity?_modifyActivity (fun r found => ?_), top]
    rw [held, Option.some.injEq] at found
    rw [runs, found]
  refine ⟨fun d placed => ?_, b, ?_, ?_, by simp⟩
  · have forest := forest'.congr frame.parent frame.children frame.tag
    have container' := (isFragmentLike_modifyActivity h' x (fun _ => b) task).trans
      ((gone.isFragmentLike stays).trans container)
    have inside := forest.inside_of_topRunningActivity? container' top'
    have after : h'.displayOf? task = some d := by
      rw [← displayOf?_modifyActivity h' x fun _ => b, ← forest.displayOf?_eq_of_inside inside]
      exact placed
    have before := (gone.displayOf? formed.forest forest' stays).symm.trans after
    obtain ⟨root, front⟩ := exists_atFront_moveTaskToFront formed container before
    exact ⟨by rw [after, Option.getD_some], root, task,
      (front.cleared gone stays displays).modifyActivity x _, top'⟩
  · exact World.activity?_put (w := { hierarchy := h', calls := calls }) held b more
  · rw [state, wanted]
    exact steady

/-- Where a task counts as moved, it has been raised and then cleared, and `x` is its top. -/
theorem fronted_arrive {l : Launch} {b : ActivityRecord} {last : NodeId}
    (formed : w.hierarchy.WellFormed) (live : w.hierarchy.isTask task = true)
    (front : ∃ before : Hierarchy, w.hierarchy = (before.moveTaskToFront task).1)
    (cleared : (arrive w.hierarchy l record task).1 = h)
    (top : h.topRunningActivity? task = some x) (held : h.activity? x = some a)
    (steady : a.state = .resumed → a.visibleRequested = true)
    (runs : b.isRunning = a.isRunning) (state : b.state = a.state)
    (wanted : b.visibleRequested = a.visibleRequested) (more : List Call) :
    Fronted (World.put { w with hierarchy := h } x b more) ((h.displayOf? task).getD last) none
      x := by
  obtain ⟨before, raised⟩ := front
  obtain ⟨ks, within, gone⟩ := exists_cleared_arrive w.hierarchy l record task
  have leaves : ∀ k ∈ ks, w.hierarchy.isActivity k = true :=
    fun k member => (List.mem_filter.mp (within k member)).2
  rw [cleared] at gone
  rw [raised] at formed live leaves gone
  exact fronted_cleared formed live leaves gone top held steady runs state wanted w.calls more

theorem exists_fronted_of_landing {out : Option NodeId} (reached : Reachable w.hierarchy)
    (fresh : record.Fresh) (steady : ∀ k a, w.hierarchy.activity? k = some a →
      a.state = .resumed → a.isRunning = true → a.visibleRequested = true)
    (landing : Landing env r h₀ record goal w w' out result) (foreground : Foreground r result)
    (ended : out = some x) :
    ∃ u display starting, w' = propagate env u display starting ∧ Reachable u.hierarchy ∧
      w.calls <+: u.calls ∧ Fronted u display starting x := by
  have formed := reached.wellFormed
  cases landing with
  | failed => contradiction
  | @added l h h' j display chosen made front shown =>
    cases ended
    rw [if_pos (foreground.movesToFront chosen)] at front
    subst front
    have created : Reachable h := reached.changes (.single (.addActivity made))
    exact ⟨_, display, some x, rfl, created.changes (changes_moveTaskToFront h goal),
      List.prefix_refl _, fronted_added formed fresh made shown w.calls⟩
  | @delivered l h j moved chosen live front arrived =>
    cases ended
    have counts : moved = true := by
      cases moved <;> simp_all [Foreground]
    have top := topRunningActivity?_arrive formed.forest live arrived
    obtain ⟨a, held, runs⟩ := exists_of_topRunningActivity? top
    have kept : Kept w.hierarchy h := kept_arrive (congrArg Prod.fst arrived)
    rw [deliver_eq_put (w := { w with hierarchy := h }) held]
    refine ⟨_, _, none, rfl, (kept.reached reached).editActivity _ _, List.prefix_append .., ?_⟩
    refine fronted_arrive formed live (front counts) (congrArg Prod.fst arrived) top held
      (fun up => steady x a (kept.activity x a held) up runs) ?_ ?_ ?_ _ <;> rfl
  | @kept l h moved chosen live front arrived =>
    have counts : moved = true := by
      cases moved <;> simp_all [Foreground]
    obtain ⟨a, held, runs⟩ := exists_of_topRunningActivity? ended
    have kept : Kept w.hierarchy h := kept_arrive (congrArg Prod.fst arrived)
    rw [ended, leaveCookie_eq_put (w := { w with hierarchy := h }) held]
    refine ⟨_, _, none, rfl, (kept.reached reached).editActivity _ _, List.prefix_append .., ?_⟩
    refine fronted_arrive formed live (front counts) (congrArg Prod.fst arrived) ended held
      (fun up => steady x a (kept.activity x a held) up runs) ?_ ?_ ?_ _ <;> rfl
  | topped => simp [Foreground] at foreground

/-- Where areas stay in place, a display that had one area has that one. -/
theorem children_of_keepsAreas {area : NodeId} (formed : h.WellFormed) (forest : Forest h')
    (areas : KeepsAreas h h') (single : ∀ d ∈ h.displays, ∃ area, h.children d = [area])
    (shown : (h'.display? display).isSome = true) (member : area ∈ h'.children display) :
    h'.children display = [area] := by
  have before : ∀ {b}, b ∈ h'.children display → (h.area? b).isSome = true ∧
      h.parent? b = some display := by
    intro b member
    have placed := (forest.child member).2
    have held := (forest.isSome_area?_of_parent placed).trans shown
    obtain ⟨old, place⟩ := areas b (isSome_area?_iff.mp held)
    exact ⟨isSome_area?_iff.mpr old, place.symm.trans placed⟩
  obtain ⟨held, placed⟩ := before member
  have listed : display ∈ h.displays := formed.listed.mpr (Option.isSome_iff_exists.mp
    ((formed.forest.isSome_area?_of_parent placed).symm.trans held))
  obtain ⟨only, alone⟩ := single display listed
  have same : ∀ b ∈ h'.children display, b = area := by
    intro b other
    have left := formed.forest.mem_children_iff.mpr placed
    have right := formed.forest.mem_children_iff.mpr (before other).2
    rw [alone, List.mem_singleton] at left right
    exact right.trans left.symm
  have nodup := forest.nodup_children display
  cases shown : h'.children display with
  | nil => simp [shown] at member
  | cons b rest =>
    rw [shown] at same nodup
    obtain ⟨rfl, others⟩ := List.forall_mem_cons.mp same
    cases rest with
    | nil => rfl
    | cons c _ => simp [others c List.mem_cons_self] at nodup

/-- On a display with one area, what runs at the front is the top of the focused root task. -/
theorem Fronted.exists_focus (fronted : Fronted w display starting x) (formed : h.WellFormed)
    (forest : Forest w.hierarchy) (areas : KeepsAreas h w.hierarchy)
    (single : ∀ d ∈ h.displays, ∃ area, h.children d = [area])
    (placed : w.hierarchy.displayOf? x = some k)
    (floats : ∀ root, w.hierarchy.rootTaskOf? x = some root →
      w.hierarchy.mode root ≠ .pinned) :
    display = k ∧ w.hierarchy.topFocusedDisplay? = some k ∧
      ∃ root, w.hierarchy.rootTaskOf? x = some root ∧
        w.hierarchy.focusedRootTask? k = some root ∧
        w.hierarchy.topRunningActivity? root = some x := by
  obtain ⟨same, root, container, front, top⟩ := fronted.exists_front k placed
  have alone : ∃ area, w.hierarchy.children k = [area] := by
    obtain ⟨area, _, onDisplay, _⟩ := front.exists_area
    exact ⟨area, children_of_keepsAreas formed forest areas single
      (isSome_display?_of_displayOf? placed) (forest.mem_children_iff.mpr onDisplay)⟩
  exact ⟨same, front.top, root, front.focus forest alone top floats⟩

theorem exists_focused_propagate (env : Environment) (forest : Forest w.hierarchy)
    (shown : (w.hierarchy.display? display).isSome = true)
    (focus : focusOf? w.hierarchy display = some x) (held : w.hierarchy.activity? x = some a)
    (awake : a.state = .resumed → a.visibleRequested = true)
    (begins : starting = some x → a.attached = false ∧ a.restarting = false) :
    ∃ b later, (propagate env w display starting).hierarchy.activity? x = some b ∧
      (propagate env w display starting).calls = w.calls ++ later ∧
      b.still = a.still ∧ b.visibleIgnoringKeyguard = true ∧
      ((!(w.hierarchy.displayId? display).any (env w.calls).keyguardLocked ||
        a.info.showWhenLocked) = true → Focused x a b later) := by
  have settled := exists_focused (env w.calls).keyguardLocked { starting := starting } forest shown
    focus held awake begins
  dsimp only at settled
  rw [propagate_eq]
  exact settled

theorem exists_fronted_of_execute {host : Host} {s : Starter} (reached : Reachable w.hierarchy)
    (steady : ∀ k a, w.hierarchy.activity? k = some a →
      a.state = .resumed → a.finishing = false → a.visibleRequested = true)
    (ran : execute host { request := r } w = (s, w', .ok result))
    (foreground : Foreground r result) (ended : s.outActivity = some x) :
    ∃ u display starting, Reachable u.hierarchy ∧ w.calls <+: u.calls ∧
      Fronted u display starting x ∧
      Asked (propagate host.environment u display starting) w' := by
  rcases course_execute ran with ⟨_, _, _, failed⟩ | ⟨_, made, course⟩
  · cases failed
  cases made
  cases course with
  | refused _ blank =>
    rw [blank] at ended
    contradiction
  | @placed _ w₁ _ r' caller info admitted before after same =>
    rw [same] at ended
    obtain ⟨w₂, _, approaches, landing, _⟩ := (lands_place host r' caller info w₁).exists_landing
    have kept := kept_approaches approaches
    have steps : Steps false w₁ w₂ := steps_approaches approaches
    have foreground : Foreground r' (place host r' caller info w₁).2 := by
      unfold Foreground at foreground ⊢
      rwa [admitted.terms.options]
    have steady : ∀ k a, w₂.hierarchy.activity? k = some a →
        a.state = .resumed → a.isRunning = true → a.visibleRequested = true := by
      intro k a held up runs
      have old := kept.activity k a held
      rw [before.hierarchy] at old
      exact steady k a old up (by simp_all [ActivityRecord.isRunning])
    obtain ⟨u, display, starting, made, reached, grown, fronted⟩ :=
      exists_fronted_of_landing (kept.reached (before.hierarchy ▸ reached)) (fresh_newRecord ..)
        steady landing foreground ended
    exact ⟨u, display, starting, reached, (before.calls_grow.trans steps.calls_grow).trans grown,
      fronted, made ▸ after⟩

/-- A start that brings something to the foreground ends at the activity that has the focus: it is
the top of the focused root task of the top display, it is seen, and unless the keyguard holds it
back it is on screen and resumed, or its process is on its way. -/
theorem execute_foreground {host : Host} {s : Starter} (reached : Reachable w.hierarchy)
    (single : ∀ d ∈ w.hierarchy.displays, ∃ area, w.hierarchy.children d = [area])
    (steady : ∀ k a, w.hierarchy.activity? k = some a →
      a.state = .resumed → a.finishing = false → a.visibleRequested = true)
    (ran : execute host { request := r } w = (s, w', .ok result))
    (foreground : Foreground r result) (ended : s.outActivity = some x)
    (placed : w'.hierarchy.displayOf? x = some display)
    (floats : ∀ root, w'.hierarchy.rootTaskOf? x = some root →
      w'.hierarchy.mode root ≠ .pinned) :
    w'.hierarchy.topFocusedDisplay? = some display ∧
      ∃ root a, w'.hierarchy.rootTaskOf? x = some root ∧
        w'.hierarchy.focusedRootTask? display = some root ∧
        w'.hierarchy.topRunningActivity? root = some x ∧
        w'.hierarchy.activity? x = some a ∧ a.visibleIgnoringKeyguard = true ∧
        ((∀ calls id, w.calls <+: calls → calls <+: w'.calls →
            w'.hierarchy.displayId? display = some id →
              (host.environment calls).keyguardLocked id = false) ∨
            a.info.showWhenLocked = true →
          a.visibleRequested = true ∧
            if a.attached then a.state = .resumed
            else a.restarting = true ∧ ∃ later, w'.calls = w.calls ++ later ∧
              ∃ andResume check, .startProcess x andResume check ∈ later) := by
  have steps : Steps false w w' := by
    have all : Steps false w (execute host { request := r } w).2.1 := steps_execute host _ w
    rwa [ran] at all
  obtain ⟨u, d, starting, reached', grown, fronted, asked⟩ :=
    exists_fronted_of_execute reached steady ran foreground ended
  have forest := reached'.wellFormed.forest
  have same : SameView u.hierarchy w'.hierarchy := by
    rw [asked.hierarchy]
    exact sameView_propagate ..
  have areas : KeepsAreas w.hierarchy u.hierarchy :=
    steps.keepsAreas.trans (sameFrame_of_sameView same.symm).keepsAreas
  rw [same.displayOf?] at placed
  obtain ⟨rfl, front, root, around, focused, here⟩ := fronted.exists_focus reached.wellFormed
    forest areas single placed fun r found => by
      rw [← same.rootTaskOf?] at found
      exact same.mode r ▸ floats r found
  obtain ⟨a, held, awake, begins⟩ := fronted.exists_record
  have focus : focusOf? u.hierarchy d = some x := by
    rw [focusOf?, focused, Option.bind_some, here]
  obtain ⟨b, later, held', made, still, seen, focusing⟩ := exists_focused_propagate host.environment
    forest (isSome_display?_of_displayOf? placed) focus held awake begins
  obtain ⟨more, told, _⟩ := asked.quiet
  rw [made, List.append_assoc] at told
  refine ⟨?_, root, b, ?_, ?_, ?_, ?_, seen, fun admitted => ?_⟩
  · rw [topFocusedDisplay?, same.displays]
    exact front
  · rw [same.rootTaskOf?, around]
  · rw [focusedRootTask?_congr same, focused]
  · rw [same.topRunningActivity?, here]
  · rw [asked.hierarchy, held']
  have info : b.info = a.info := (congrArg ActivityRecord.info still :)
  have attached : b.attached = a.attached := (congrArg ActivityRecord.attached still :)
  obtain ⟨wanted, resumed, process⟩ := focusing <| by
    rcases admitted with unlocked | through
    · have lets : (u.hierarchy.displayId? d).any
          (host.environment u.calls).keyguardLocked = false := by
        cases found : u.hierarchy.displayId? d with
        | none => rfl
        | some id => exact unlocked u.calls id grown ⟨_, told.symm⟩ (same.displayId? ▸ found)
      rw [lets]
      rfl
    · rw [← info, through, Bool.or_true]
  refine ⟨wanted, ?_⟩
  rw [attached]
  split
  · exact resumed ‹_›
  · obtain ⟨restarts, andResume, asks⟩ := process (Bool.eq_false_iff.mpr ‹_›)
    obtain ⟨early, between⟩ := grown
    refine ⟨restarts, early ++ (later ++ more), ?_, andResume, true, ?_⟩
    · rw [told, ← between, List.append_assoc]
    · exact List.mem_append_right _ (List.mem_append_left _ asks)

/-- A task on the lower one of two displays, below another task there, comes to the front with the
activity that was asked for, which lay below another one in it. -/
theorem execute_foreground_of_inbox :
    let info (name : String) (mode : LaunchMode) : ActivityInfo :=
      { component := ⟨"mail", name⟩, uid := ⟨10010⟩, launchMode := mode }
    let asleep (info : ActivityInfo) : ActivityRecord :=
      { ActivityRecord.create info {} with state := .stopped, attached := true }
    let up (info : ActivityInfo) : ActivityRecord :=
      { asleep info with state := .resumed, visibleRequested := true }
    let inbox := info "Inbox" .singleTask
    let screen : Rect := ⟨0, 0, 1920, 1080⟩
    let h := ([.addDisplay ⟨0⟩ screen, .addDisplay ⟨1⟩ screen,
      .createTask ⟨2⟩ { affinity := some "mail" } .top, .addActivity ⟨5⟩ (asleep inbox) .top,
      .addActivity ⟨5⟩ (asleep (info "Draft" .multiple)) .top,
      .createTask ⟨2⟩ { affinity := some "map" } .top,
      .addActivity ⟨8⟩ (up (info "Map" .multiple)) .top,
      .createTask ⟨4⟩ { affinity := some "clock" } .top,
      .addActivity ⟨10⟩ (up (info "Clock" .multiple)) .top] : List Mutation).foldl mutate empty
    let request : StartRequest := { intent := .ofComponent inbox.component, info := some inbox }
    let started := execute { environment := fun _ => {} } { request := request } { hierarchy := h }
    started.2.2.toOption = some .taskToFront ∧ started.1.outActivity = some ⟨6⟩ ∧
      started.2.1.hierarchy.topFocusedDisplay? = some ⟨1⟩ ∧
      ∃ root a, started.2.1.hierarchy.focusedRootTask? ⟨1⟩ = some root ∧
        started.2.1.hierarchy.topRunningActivity? root = some ⟨6⟩ ∧
        started.2.1.hierarchy.activity? ⟨6⟩ = some a ∧ a.visibleRequested = true ∧
        a.attached = true ∧ a.state = .resumed := by
  intro info asleep up inbox screen h request started
  have reached : Reachable h := Reachable.empty.foldl_mutate _
  have result : started.2.2.toOption = some .taskToFront := by decide +kernel
  have out : started.1.outActivity = some ⟨6⟩ := by decide +kernel
  have placed : started.2.1.hierarchy.displayOf? ⟨6⟩ = some ⟨1⟩ := by decide +kernel
  have attached : (started.2.1.hierarchy.activity? ⟨6⟩).all ActivityRecord.attached = true := by
    decide +kernel
  have ran : execute { environment := fun _ => {} } { request := request } { hierarchy := h } =
      (started.1, started.2.1, .ok .taskToFront) := by
    refine Prod.ext rfl (Prod.ext rfl ?_)
    change started.2.2 = _
    cases found : started.2.2 <;> simp_all [Except.toOption]
  have lengths : ∀ d ∈ h.displays, (h.children d).length = 1 := by decide +kernel
  have single : ∀ d ∈ h.displays, ∃ area, h.children d = [area] :=
    fun d listed => List.length_eq_one_iff.mp (lengths d listed)
  have steady : ∀ k a, h.activity? k = some a → a.state = .resumed → a.finishing = false →
      a.visibleRequested = true :=
    forall_activity_of_lt_next (by decide +kernel)
  have floats : ∀ root ∈ started.2.1.hierarchy.rootTaskOf? ⟨6⟩,
      started.2.1.hierarchy.mode root ≠ .pinned := by decide +kernel
  clear_value started h
  obtain ⟨top, root, a, _, focused, runs, held, _, shown⟩ :=
    execute_foreground (w := { hierarchy := h }) reached single steady ran (.inl rfl) out placed
      floats
  obtain ⟨wanted, state⟩ := shown (.inl fun _ _ _ _ _ => rfl)
  rw [held, Option.all_some] at attached
  rw [if_pos attached] at state
  exact ⟨result, out, top, root, a, focused, runs, held, wanted, attached, state⟩

end WindowHost.Start
