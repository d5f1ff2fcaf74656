import WindowHost.Proofs.Run.Account
import WindowHost.Proofs.Run.Addition
import WindowHost.Proofs.Run.Tally
import WindowHost.Proofs.Start.Recall

/-! Starts that are to leave the focus alone. What they add goes below, or into a place that stays
where it is, so nothing that is there changes its order. Two things take the focus all the same: a
root task that lies above the focused one and has had nothing running in it, once something is
started there, and a task outside the focused one that is reused, and comes to the front unless the
options forbid that. -/
namespace WindowHost
open Hierarchy
variable {w w' : World} {host : Host} {given r : StartRequest} {record : ActivityRecord}
  {info : ActivityInfo} {h h' h₀ : Hierarchy} {l : Launch} {s t : Starter} {out : Option NodeId}
  {result : StartResult} {outcome : Except StartError StartResult} {env : Environment}
  {display goal k place root task : NodeId}

/-- The options ask for the focus to be left alone, in one way or the other. -/
def StartRequest.staysBehind (r : StartRequest) : Bool :=
  r.options.any fun o => o.taskBehind || o.avoidMoveToFront

theorem Launch.Of.movesToFront (chosen : l.Of r h) (behind : r.staysBehind = true) :
    l.movesToFront = false := by
  obtain ⟨_, _, _, rfl⟩ := chosen
  unfold StartRequest.staysBehind at behind
  cases known : r.options with
  | none => simp [known] at behind
  | some o => simpa [known, Start.launch, Launch.movesToFront, Bool.or_eq_true,
      Classical.or_iff_not_imp_left] using behind

/-- Where a task is reused, it is the place. -/
theorem Lodging.eq_of_reused (lodging : Lodging r h₀ record l place h)
    (reused : Start.reusableTask? r h₀ record = some task) : place = task := by
  cases lodging with
  | reused reuses => exact Option.some.inj (reuses.chosen.symm.trans reused)
  | existing idle => simp [idle] at reused
  | made idle => simp [idle] at reused

namespace Start

theorem undisturbed_arrive (formed : h.WellFormed) (arrived : (arrive h l record task).1 = h') :
    Undisturbed h h' := by
  obtain ⟨ks, within, cleared⟩ := exists_cleared_arrive h l record task
  have leaves : ∀ k ∈ ks, h.isActivity k = true :=
    fun k member => (List.mem_filter.mp (within k member)).2
  have tags : ∀ k ∈ ks, ∀ t, h.tag? k = some t → t = .activity := fun k member t found =>
    Option.some.inj (found.symm.trans (isActivity_eq_true_iff.mp (leaves k member)))
  rw [← arrived, cleared]
  exact (formed.forest.cleared_of_isActivity leaves).undisturbed leaves
    (formed.displays_foldl_remove ks tags)

theorem WithRoot.undisturbed (rooted : WithRoot h h' root) : Undisturbed h h' := by
  obtain rfl | ⟨_, _, _, made⟩ := rooted
  · exact .refl h'
  · exact undisturbed_createTask made

theorem undisturbed_applyBounds (h : Hierarchy) (task : NodeId) (layout : LaunchParams) :
    Undisturbed h (applyBounds h task layout) := by
  unfold applyBounds
  split
  · split
    · exact undisturbed_modifyTask h task fun _ => ⟨rfl, rfl⟩
    · exact .refl h
  · exact .refl h

theorem undisturbed_propagate (env : Environment) (w : World) (display : NodeId)
    (starting : Option NodeId) :
    Undisturbed w.hierarchy (propagate env w display starting).hierarchy :=
  (sameView_propagate env w display starting).undisturbed

theorem undisturbed_deliver (w : World) (k : NodeId) (intent : Intent)
    (cookie : Option LaunchCookie) :
    Undisturbed w.hierarchy (deliver w k intent cookie).hierarchy := by
  unfold deliver
  split
  · exact undisturbed_modifyActivity fun _ _ => rfl
  · exact .refl w.hierarchy

theorem undisturbed_leaveCookie (w : World) (cookie : Option LaunchCookie) (top : Option NodeId) :
    Undisturbed w.hierarchy (leaveCookie w cookie top).hierarchy := by
  cases top with
  | none => exact .refl w.hierarchy
  | some k => exact undisturbed_modifyActivity fun _ _ => rfl

section
variable (formed : h₀.WellFormed) (behind : r.staysBehind = true)
include formed

theorem undisturbed_of_reuses (chosen : l.Of r h₀) (reuses : Reuses r h₀ record l task h)
    (arrived : (arrive h l record task).1 = h') : MayRecall r record h₀ h ∧ Undisturbed h h' :=
  ⟨mayRecall_of_reuses formed chosen reuses,
    undisturbed_arrive (reuses.wellFormed formed) arrived⟩

theorem exists_undisturbed_of_lodging (chosen : l.Of r h₀)
    (lodging : Lodging r h₀ record l place h') :
    ∃ h, MayRecall r record h₀ h ∧ Undisturbed h h' := by
  cases lodging with
  | reused reuses arrived =>
    exact ⟨_, undisturbed_of_reuses formed chosen reuses (congrArg Prod.fst arrived)⟩
  | existing => exact ⟨h', .inl rfl, .refl h'⟩
  | made _ _ rooting made layout =>
    exact ⟨h₀, .inl rfl, (rooting.withRoot.undisturbed.trans (undisturbed_createTask made)).trans
      (undisturbed_applyBounds ..)⟩

include behind

theorem exists_undisturbed_of_landing (landing : Landing env r h₀ record goal w w' out result)
    (succeeds : result.isSuccessful = true) :
    ∃ h, MayRecall r record h₀ h ∧ Undisturbed h w'.hierarchy := by
  cases landing with
  | failed _ fails =>
    rw [fails] at succeeds
    contradiction
  | @added l h h' k display chosen made front _ lodging =>
    rw [chosen.movesToFront behind, if_neg Bool.false_ne_true] at front
    subst front
    obtain ⟨h₁, brought, undisturbed⟩ := exists_undisturbed_of_lodging formed chosen lodging
    exact ⟨h₁, brought, (undisturbed.trans (undisturbed_addActivity made)).trans
      (undisturbed_propagate env { w with hierarchy := h' } ..)⟩
  | @delivered l h k moved chosen _ _ arrived reuses =>
    obtain ⟨brought, cleared⟩ :=
      undisturbed_of_reuses formed chosen reuses (congrArg Prod.fst arrived)
    exact ⟨_, brought, (cleared.trans (undisturbed_deliver { w with hierarchy := h } ..)).trans
      (undisturbed_propagate ..)⟩
  | @kept l h moved chosen _ _ arrived reuses =>
    obtain ⟨brought, cleared⟩ :=
      undisturbed_of_reuses formed chosen reuses (congrArg Prod.fst arrived)
    exact ⟨_, brought, (cleared.trans (undisturbed_leaveCookie { w with hierarchy := h } ..)).trans
      (undisturbed_propagate ..)⟩
  | @topped l _ _ same =>
    exact ⟨_, .inl same, (undisturbed_deliver w ..).trans (undisturbed_propagate ..)⟩

end

/-- The start has brought a task that it reuses to the front. -/
structure Recalls (given : StartRequest) (s : Starter) (outcome : Except StartError StartResult)
    (h₀ h : Hierarchy) (task : NodeId) : Prop where
  exists_result : ∃ result, outcome = .ok result ∧ result.isSuccessful = true
  exists_info : ∃ info, s.request.info = some info ∧ taskToReuse? given h₀ info = some task
  moves : given.options.any LaunchOptions.avoidMoveToFront = false
  recalled : Recalled task h₀ h

theorem exists_undisturbed_execute (reached : Reachable w.hierarchy)
    (behind : given.staysBehind = true)
    (ran : execute host { request := given } w = (s, w', outcome)) :
    ∃ h, Undisturbed h w'.hierarchy ∧
      (h = w.hierarchy ∨ ∃ task, Recalls given s outcome w.hierarchy h task) := by
  have formed := reached.wellFormed
  cases ending_execute formed ran with
  | failed _ nodes =>
    have steps : Steps true w (execute host { request := given } w).2.1 := steps_execute ..
    rw [ran] at steps
    exact ⟨_, nodes.undisturbed steps.next_le, .inl rfl⟩
  | @landed _ _ r _ info _ _ admitted known _ landing ends succeeds =>
    have behind : r.staysBehind = true := by
      rwa [StartRequest.staysBehind, admitted.terms.options]
    rw [ends]
    obtain ⟨h, same | ⟨task, reused, moves, recalled⟩, undisturbed⟩ :=
      exists_undisturbed_of_landing formed behind landing succeeds
    · exact ⟨h, undisturbed, .inl same⟩
    · rw [admitted.taskToReuse?] at reused
      rw [admitted.terms.options] at moves
      exact ⟨h, undisturbed, .inr ⟨task, ⟨_, rfl, succeeds⟩, ⟨info, known, reused⟩, moves,
        recalled⟩⟩

/-- A launch that reuses a task ends in it. -/
theorem inside_of_landing (formed : h₀.WellFormed)
    (landing : Landing env r h₀ record goal w w' out result)
    (succeeds : result.isSuccessful = true) (reused : reusableTask? r h₀ record = some task) :
    ∃ k, out = some k ∧ Inside w'.hierarchy k task := by
  by_cases settles : Settles result
  · obtain ⟨k, top, h, rfl, formed', live, running, frame, chosen | ⟨idle, _⟩⟩ :=
      exists_top_of_landing formed landing settles
    · obtain rfl : top = task := Option.some.inj (chosen.symm.trans reused)
      obtain ⟨_, inside⟩ :=
        (formed'.forest.mem_activities_iff live).mp (List.mem_of_find?_eq_some running)
      exact ⟨k, rfl, frame.inside inside⟩
    · rw [idle] at reused
      contradiction
  obtain rfl : result = .success := by
    cases result <;>
      simp_all [Settles, StartResult.isSuccessful, StartResult.code]
  obtain ⟨_, k, ended, _, lodging, placed, _⟩ := exists_addition_of_landing landing
  obtain rfl := lodging.eq_of_reused reused
  exact ⟨k, ended, .child placed⟩

/-- A start that reuses a task ends at an activity that runs in it. -/
theorem exists_running_of_reused (reached : Reachable w.hierarchy)
    (ran : execute host { request := given } w = (s, w', .ok result))
    (succeeds : result.isSuccessful = true) (known : s.request.info = some info)
    (reused : taskToReuse? given w.hierarchy info = some task) :
    ∃ k, s.outActivity = some k ∧ w'.hierarchy.activityHas ActivityRecord.isRunning k = true ∧
      Inside w'.hierarchy k task := by
  have formed := reached.wellFormed
  cases ending_execute formed ran with
  | failed fails =>
    rw [fails result rfl] at succeeds
    contradiction
  | @landed _ _ _ uid launched _ _ admitted known' _ landing ends =>
    obtain rfl : info = launched := Option.some.inj (known.symm.trans known')
    rw [← admitted.taskToReuse? uid] at reused
    obtain ⟨k, ended, inside⟩ := inside_of_landing formed landing succeeds reused
    obtain ⟨a, held, runs⟩ := exists_running_of_execute reached ran ended
    rw [← ends] at inside
    exact ⟨k, ended, by rw [activityHas, held]; exact runs, inside⟩

/-- What is new after a start is the activity that it ends at. -/
theorem ends_of_created (reached : Reachable w.hierarchy)
    (ran : execute host s w = (t, w', outcome)) (created : Created w.hierarchy w'.hierarchy k) :
    t.outActivity = some k := by
  have formed := reached.wellFormed
  cases ending_execute formed ran with
  | failed _ nodes =>
    have was := (congrArg Option.isSome (activity?_of_data? (nodes.data? k))).symm.trans created.1
    exact absurd created (not_created_of_isActivity was)
  | landed admitted _ kept landing ends succeeds =>
    rw [ends] at created
    exact (census_of_landing admitted.flags formed kept landing succeeds).ends_of_created created

/-- The root task is one that takes the focus from another once something runs in it: it lies above
that one, is not pinned, and nothing ran in it before. -/
structure Overtakes (h h' : Hierarchy) (display root above : NodeId) : Prop where
  higher : above ∈ h'.rootsAbove display root
  free : h'.mode above ≠ .pinned
  idle : h.hasRunningActivity above = false

section
variable (reached : Reachable w.hierarchy)
  (ran : execute host { request := given } w = (s, w', outcome))
include reached ran

/-- Something runs on in a root task. What a start clears lies in the task that it reuses, and there
it ends. -/
theorem hasRunningActivity_of_undisturbed (undisturbed : Undisturbed w.hierarchy w'.hierarchy)
    (shown : (w.hierarchy.display? display).isSome = true)
    (member : root ∈ w.hierarchy.rootTasks display)
    (runs : w.hierarchy.hasRunningActivity root = true) :
    w'.hierarchy.hasRunningActivity root = true := by
  have forest := reached.wellFormed.forest
  have forest' := (wellFormed_execute reached ran).forest
  obtain ⟨x, inside, held⟩ := forest.exists_running_of_isTask (mem_rootTasks.mp member).1 runs
  have leaf := isActivity_of_activityHas held
  cases later : w'.hierarchy.isActivity x with
  | true =>
    have later := contains_of_activity? (Option.isSome_iff_exists.mp later).choose_spec
    have same := undisturbed.same x (contains_of_activityHas held) later
    exact forest'.hasRunningActivity_iff.mpr
      ⟨x, .inr (undisturbed.inside forest' inside later), same.runs.trans held⟩
  | false =>
    obtain ⟨⟨result, rfl, succeeds⟩, info, reused, known, chosen, cleared⟩ :=
      ((tally_execute reached ran).gone x leaf).mp later
    obtain ⟨k, _, runs, ends⟩ := exists_running_of_reused reached ran succeeds known chosen
    have live : w.hierarchy.isTask reused = true := isTask_of_reusableTask? chosen
    have lies := ((forest.mem_activities_iff live).mp (mem_activities_of_mem_evicted cleared)).2
    -- both tasks lie around the activity that goes, and no task lies around a root task
    rcases inside.comparable lies with rfl | around | within
    · exact forest'.hasRunningActivity_iff.mpr ⟨k, .inr ends, runs⟩
    · exact absurd around (forest.not_inside_of_isRootTask
        (forest.isRootTask_of_mem_rootTasks shown member) (isFragmentLike_of_isTask live))
    · have stays := undisturbed.inside forest' within
        (contains_of_isTask ((isTask_congr (undisturbed.samePost_of_isTask live).tag).trans live))
      exact forest'.hasRunningActivity_iff.mpr ⟨k, .inr (ends.trans stays), runs⟩

section
variable (formed : h.WellFormed) (undisturbed : Undisturbed h w'.hierarchy)
  (kept : ∀ k, w.hierarchy.contains k = true → h.contains k = true)
  (shown : (h.display? display).isSome = true)
include formed undisturbed kept shown

/-- What comes to run in a root task where nothing ran is the activity that the start ends at. -/
theorem ends_of_hasRunningActivity {above : NodeId}
    (member : above ∈ w'.hierarchy.rootTasks display) (idle : h.hasRunningActivity above = false)
    (runs : w'.hierarchy.hasRunningActivity above = true) :
    ∃ k, s.outActivity = some k ∧ w'.hierarchy.rootTaskOf? k = some above := by
  have formed' := wellFormed_execute reached ran
  obtain ⟨k, inside, held⟩ :=
    formed'.forest.exists_running_of_isTask (mem_rootTasks.mp member).1 runs
  have leaf := isActivity_of_activityHas held
  have fresh : w.hierarchy.contains k = false := by
    rw [Bool.eq_false_iff]
    intro live
    have live := kept k live
    have same := undisturbed.same k live (contains_of_activityHas held)
    have ran := formed.forest.hasRunningActivity_iff.mpr
      ⟨k, .inr (undisturbed.inside_of formed.forest inside live), same.runs.symm.trans held⟩
    rw [idle] at ran
    contradiction
  have shown' : (w'.hierarchy.display? display).isSome = true := by
    have listed := formed.listed.mpr (Option.isSome_iff_exists.mp shown)
    rw [← undisturbed.displays] at listed
    exact Option.isSome_iff_exists.mpr (formed'.listed.mp listed)
  exact ⟨k, ends_of_created reached ran ⟨leaf, fresh⟩, formed'.forest.rootTaskOf?_of_inside
    (formed'.forest.isRootTask_of_mem_rootTasks shown' member) inside⟩

/-- The focus stays where it was before the undisturbed part of the start, if the start does not end
above it where nothing ran. -/
theorem focus_of_undisturbed (top : h.topFocusedDisplay? = some display)
    (focus : h.focusedRootTask? display = some root) (runs : h.hasRunningActivity root = true)
    (still : w'.hierarchy.hasRunningActivity root = true)
    (low : ∀ k above, s.outActivity = some k → w'.hierarchy.rootTaskOf? k = some above →
      above ∈ w'.hierarchy.rootsAbove display root → w'.hierarchy.mode above ≠ .pinned →
        h.hasRunningActivity above = true) :
    w'.hierarchy.topFocusedDisplay? = some display ∧
      w'.hierarchy.focusedRootTask? display = some root := by
  refine ⟨?_, undisturbed.focusedRootTask? formed.forest (wellFormed_execute reached ran).forest
    shown focus runs still fun above higher free idle => ?_⟩
  · rwa [topFocusedDisplay?, undisturbed.displays]
  · rw [Bool.eq_false_iff]
    intro runs
    obtain ⟨k, ended, inside⟩ := ends_of_hasRunningActivity reached ran formed undisturbed kept
      shown (List.takeWhile_subset _ higher) idle runs
    rw [low k above ended inside higher free] at idle
    contradiction

end

/-- Where the start has brought the task that it reuses to the front, it ends there, so the focus is
where it was if that task lies in the focused root task by then. -/
theorem focus_of_recalls (shown : (w.hierarchy.display? display).isSome = true)
    (focus : w.hierarchy.focusedRootTask? display = some root)
    (runs : w.hierarchy.hasRunningActivity root = true)
    (undisturbed : Undisturbed h w'.hierarchy)
    (recalls : Recalls given s outcome w.hierarchy h task)
    (reuses : ∀ k info task, s.outActivity = some k → s.request.info = some info →
      taskToReuse? given w.hierarchy info = some task →
        given.options.any LaunchOptions.avoidMoveToFront = false →
          w'.hierarchy.rootTaskOf? k = some root) :
    w'.hierarchy.topFocusedDisplay? = some display ∧
      w'.hierarchy.focusedRootTask? display = some root := by
  have forest' := (wellFormed_execute reached ran).forest
  obtain ⟨⟨result, rfl, succeeds⟩, ⟨info, known, reused⟩, moves, recalled⟩ := recalls
  have forest := recalled.formed.forest
  have kept : ∀ k, w.hierarchy.contains k = true → h.contains k = true :=
    fun _ => recalled.fetched.carried.contains
  obtain ⟨k, ended, up, inside⟩ := exists_running_of_reused reached ran succeeds known reused
  have lies := reuses k info task ended known reused moves
  obtain ⟨isRoot', around⟩ := forest'.inside_of_rootTaskOf? lies
  have isTask' := (isTask_congr (undisturbed.samePost_of_isTask recalled.live).tag).trans
    recalled.live
  have here := (forest'.inside_of_isRootTask isRoot' isTask' inside around).imp_right
    fun inside => undisturbed.inside_of forest inside (contains_of_isTask recalled.live)
  have member := mem_rootTasks_of_focusedRootTask? focus
  have isRoot := undisturbed.isRootTask_of forest isRoot'
    (kept root (contains_of_isTask (mem_rootTasks.mp member).1))
  obtain ⟨top, focus, runs⟩ :=
    recalled.focus reached.wellFormed.forest shown focus runs isRoot here
  have still := forest'.hasRunningActivity_iff.mpr ⟨k, around, up⟩
  refine focus_of_undisturbed reached ran recalled.formed undisturbed kept
    (recalled.fetched.display? shown) top focus runs still fun j above ended' lies' higher _ => ?_
  obtain rfl : k = j := Option.some.inj (ended.symm.trans ended')
  obtain rfl : root = above := Option.some.inj (lies.symm.trans lies')
  simpa using List.mem_takeWhile_imp higher

end

/-- A start that is to leave the focus alone does so, unless it ends in a root task above the
focused one where nothing ran, or outside the focused one in a task that it reuses and that the
options do not keep from the front. -/
theorem focus_execute (reached : Reachable w.hierarchy)
    (top : w.hierarchy.topFocusedDisplay? = some display)
    (focus : w.hierarchy.focusedRootTask? display = some root)
    (runs : w.hierarchy.hasRunningActivity root = true) (behind : given.staysBehind = true)
    (ran : execute host { request := given } w = (s, w', outcome))
    (reuses : ∀ k info task, s.outActivity = some k → s.request.info = some info →
      taskToReuse? given w.hierarchy info = some task →
        given.options.any LaunchOptions.avoidMoveToFront = false →
          w'.hierarchy.rootTaskOf? k = some root)
    (low : ∀ k above, s.outActivity = some k → w'.hierarchy.rootTaskOf? k = some above →
      ¬ Overtakes w.hierarchy w'.hierarchy display root above) :
    w'.hierarchy.topFocusedDisplay? = some display ∧
      w'.hierarchy.focusedRootTask? display = some root := by
  have formed := reached.wellFormed
  have shown : (w.hierarchy.display? display).isSome = true :=
    Option.isSome_iff_exists.mpr (formed.listed.mp (List.mem_of_getLast? top))
  have member := mem_rootTasks_of_focusedRootTask? focus
  obtain ⟨h, undisturbed, rfl | ⟨task, recalls⟩⟩ := exists_undisturbed_execute reached behind ran
  · have still := hasRunningActivity_of_undisturbed reached ran undisturbed shown member runs
    refine focus_of_undisturbed reached ran formed undisturbed (fun _ => id) shown top focus runs
      still fun k above ended inside higher free => ?_
    by_contra idle
    exact low k above ended inside ⟨higher, free, Bool.not_eq_true _ ▸ idle⟩
  · exact focus_of_recalls reached ran shown focus runs undisturbed recalls reuses

/-- An inbox opens, and the home screen above it. -/
def homeOverInbox : World :=
  let home : ActivityInfo := { component := ⟨"home", "Home"⟩, uid := ⟨10020⟩, type := .home }
  blankWorld.afterActs
    [.start mailHost { request := mailRequest "Inbox" 0 [] none },
      .start mailHost { request := { intent := .ofComponent home.component, info := some home } }]

theorem reachable_homeOverInbox : Reachable homeOverInbox.hierarchy := by
  have steps : Steps true blankWorld homeOverInbox :=
    steps_afterActs _ (fun _ _ _ => rfl) blankWorld
  exact steps.reached reachable_blankWorld

/-- A draft is started behind the home screen, in a new task beside that of the inbox. -/
theorem focus_execute_of_home :
    let given := { mailRequest "Draft" 0 [.newTask, .multipleTask] none with
      options := some { taskBehind := true } }
    let ended := execute mailHost { request := given } homeOverInbox
    homeOverInbox.hierarchy.topFocusedDisplay? = some ⟨1⟩ ∧
      homeOverInbox.hierarchy.focusedRootTask? ⟨1⟩ = some ⟨6⟩ ∧
        ended.2.2 = .ok .success ∧ ended.1.outActivity = some ⟨10⟩ ∧
          ended.2.1.hierarchy.topFocusedDisplay? = some ⟨1⟩ ∧
            ended.2.1.hierarchy.focusedRootTask? ⟨1⟩ = some ⟨6⟩ := by
  intro given ended
  have top : homeOverInbox.hierarchy.topFocusedDisplay? = some ⟨1⟩ := by decide +kernel
  have focus : homeOverInbox.hierarchy.focusedRootTask? ⟨1⟩ = some ⟨6⟩ := by decide +kernel
  have out : ended.1.outActivity = some ⟨10⟩ := by decide +kernel
  have idle : ∀ info, given.info = some info →
      taskToReuse? given homeOverInbox.hierarchy info = none := by
    rintro _ ⟨⟩
    decide +kernel
  have ran : execute mailHost { request := given } homeOverInbox = (ended.1, ended.2) := rfl
  refine ⟨top, focus, by decide +kernel, out, focus_execute reachable_homeOverInbox top focus
    (by decide +kernel) rfl ran (fun _ info task _ known reused => ?_)
    fun k above ends lies takes => ?_⟩
  · have same : ended.1.request.info = given.info := by decide +kernel
    rw [idle info (same.symm.trans known)] at reused
    contradiction
  · obtain rfl : ⟨10⟩ = k := Option.some.inj (out.symm.trans ends)
    have root : ended.2.1.hierarchy.rootTaskOf? ⟨10⟩ = some ⟨3⟩ := by decide +kernel
    obtain rfl : ⟨3⟩ = above := Option.some.inj (root.symm.trans lies)
    have below : ⟨3⟩ ∉ ended.2.1.hierarchy.rootsAbove ⟨1⟩ ⟨6⟩ := by decide +kernel
    exact below takes.higher

/-- Started behind the home screen, the inbox brings its task to the front, and a draft in a window
of its own gets a root task that is made above the home screen. -/
theorem not_focus_of_home :
    let options : LaunchOptions := { taskBehind := true }
    let inbox := { mailRequest "Inbox" 0 [] none with options := some options }
    let draft := { mailRequest "Draft" 0 [.newTask, .multipleTask] none with
      options := some { options with mode := .freeform } }
    let reused := execute mailHost { request := inbox } homeOverInbox
    let made := execute mailHost { request := draft } homeOverInbox
    Reachable homeOverInbox.hierarchy ∧
      homeOverInbox.hierarchy.topFocusedDisplay? = some ⟨1⟩ ∧
        homeOverInbox.hierarchy.focusedRootTask? ⟨1⟩ = some ⟨6⟩ ∧
          homeOverInbox.hierarchy.hasRunningActivity ⟨6⟩ = true ∧
            options.rootTask = none ∧ (∀ r ∈ [inbox, draft], r.staysBehind = true ∧
              r.inTask = none ∧ r.inFragment = none) ∧
              reused.2.2 = .ok .taskToFront ∧
                reused.2.1.hierarchy.focusedRootTask? ⟨1⟩ = some ⟨3⟩ ∧
                  made.2.2 = .ok .success ∧
                    made.2.1.hierarchy.focusedRootTask? ⟨1⟩ = some ⟨9⟩ := by
  intro options inbox draft reused made
  exact ⟨reachable_homeOverInbox, by decide +kernel, by decide +kernel, by decide +kernel, rfl,
    by simp [inbox, draft, options, StartRequest.staysBehind, mailRequest], by decide +kernel,
    by decide +kernel, by decide +kernel, by decide +kernel⟩

end Start
end WindowHost
