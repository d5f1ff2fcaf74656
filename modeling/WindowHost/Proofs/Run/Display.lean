import WindowHost.Proofs.Run.Account
import WindowHost.Proofs.Run.Pairing
import WindowHost.Proofs.Start.Recall

/-! Starts on a display of their choice. The display is looked up once and used in three places: a
reused task moves there, the focused activity is asked for there, and a new task is made there. -/
namespace WindowHost
open Hierarchy
variable {w w' : World} {env : Environment} {host : Host} {given r : StartRequest}
  {record : ActivityRecord} {info : ActivityInfo} {h h' h₀ : Hierarchy} {l : Launch}
  {s t u : Flight} {area display goal k place root task : NodeId} {out : Option NodeId}
  {result : StartResult}

namespace Hierarchy

/-- The root task that is found or made in the first area of a display is on that display. -/
theorem WellFormed.displayOf?_getOrCreateRootTask {mode : WindowingMode} {type : ActivityType}
    {isNew : Bool} (formed : h.WellFormed) (first : h.defaultArea? display = some area)
    (made : h.getOrCreateRootTask area mode type = .ok (h', root, isNew)) :
    h'.displayOf? root = some display := by
  have rooted := Start.withRoot_getOrCreateRootTask made
  have formed' := rooted.wellFormed formed
  have inArea := (formed.forest.getOrCreateRootTask_spec made).1
  obtain ⟨d, shown, first⟩ := Option.bind_eq_some_iff.mp first
  have onDisplay := (formed.forest.child (List.mem_of_head? first)).2
  rw [formed'.forest.displayOf?_of_parent inArea,
    rooted.displayOf? formed (contains_of_parent? onDisplay)]
  exact formed.forest.displayOf?_of_inside (by simp [shown]) (.child onDisplay)

theorem Forest.displayOf?_of_topRunningActivity? (forest : Forest h) (live : h.isTask task = true)
    (placed : h.displayOf? task = some display) (top : h.topRunningActivity? task = some k) :
    h.displayOf? k = some display := by
  obtain ⟨_, inside⟩ := (forest.mem_activities_iff live).mp (List.mem_of_find?_eq_some top)
  rw [forest.displayOf?_eq_of_inside inside, placed]

end Hierarchy

namespace Start

/-- The display that the options of a request name. -/
def askedDisplay? (r : StartRequest) (h : Hierarchy) : Option NodeId :=
  (r.options.bind LaunchOptions.displayId).bind h.displayWithId?

theorem isSome_display?_of_asked (asked : askedDisplay? r h = some display) :
    (h.display? display).isSome = true := by
  obtain ⟨id, _, known⟩ := Option.bind_eq_some_iff.mp asked
  have fits := List.find?_some known
  obtain ⟨d, held, _⟩ := (Option.any_eq_true ..).mp fits
  rw [held, Option.isSome_some]

/-- The display of the options wins over the one that the layout asks for. -/
theorem display_of_asked (chosen : l.Of r h) (asked : askedDisplay? r h = some display) :
    l.preferredDisplay = some display ∧ l.display = display := by
  obtain ⟨layout, d, found, rfl⟩ := chosen
  obtain ⟨id, named, known⟩ := Option.bind_eq_some_iff.mp asked
  have preferred : preferredDisplay? r h layout = some display := by
    rw [preferredDisplay?, named, Option.some_or, Option.bind_some, known]
  rw [launchDisplay?, preferred] at found
  exact ⟨preferred, (Option.some.inj found).symm⟩

/-- A task that comes from another display is never taken for one that lies in the root task beside
the one it goes to, so it does move. -/
theorem displayOf?_moveInto {taskDisplay : Option NodeId} (formed : s.hierarchy.WellFormed)
    (here : s.hierarchy.displayOf? task = taskDisplay) (leaves : taskDisplay ≠ some display)
    (comes : s.hierarchy.displayOf? place = some display)
    (moved : moveInto s task place taskDisplay = some t) :
    t.hierarchy.displayOf? task = some display := by
  unfold moveInto at moved
  dsimp only at moved
  rw [if_neg (by simp [comes, leaves.symm])] at moved
  split at moved
  · contradiction
  · rename_i h' placed
    cases moved
    have formed' : h'.WellFormed := formed.reparent placed
    refine (displayOf?_moveTaskToFront ..).trans ?_
    exact (formed.forest.displayOf?_reparent formed'.forest placed (here ▸ leaves)).mpr comes

section
variable (formed : s.hierarchy.WellFormed) (unnamed : l.rootTask = none)
include formed unnamed

/-- A task that is on the display stays in its place. For one from elsewhere there is a root task
on the display. -/
theorem destination_of_asked {taskDisplay place : Option NodeId}
    (found : destination s l root (some display) taskDisplay = some (u, place)) :
    taskDisplay = some display ∧ u = s ∧ place = none ∨
      taskDisplay ≠ some display ∧ ∃ new, place = some new ∧
        WithRoot s.hierarchy u.hierarchy new ∧ u.hierarchy.displayOf? new = some display := by
  unfold destination at found
  rw [unnamed] at found
  dsimp only at found
  split at found
  · rename_i here
    cases found
    exact .inl ⟨here.symm, rfl, rfl⟩
  rename_i elsewhere
  split at found
  · contradiction
  rename_i area first
  split at found
  · contradiction
  · rename_i grown new isNew made
    cases found
    rw [hierarchy_takeRoot]
    exact .inr ⟨Ne.symm elsewhere, new, rfl, withRoot_getOrCreateRootTask made,
      formed.displayOf?_getOrCreateRootTask first made⟩

theorem displayOf?_bringForward {moved : Bool} (live : s.hierarchy.contains task = true)
    (around : s.hierarchy.rootTaskOf? task = some root)
    (moves : l.avoidMoveToFront = false) (asked : l.preferredDisplay = some display)
    (brought : bringForward s l task root = (t, some moved)) :
    t.hierarchy.displayOf? task = some display := by
  unfold bringForward at brought
  simp only [asked, Option.some_or, moves, Bool.or_false] at brought
  split at brought
  · rename_i front
    cases brought
    simp only [Bool.and_eq_true, beq_iff_eq] at front
    exact front.1.1.symm
  split at brought
  · cases brought
  rename_i u place found
  rcases destination_of_asked formed unnamed found with
    ⟨here, rfl, rfl⟩ | ⟨elsewhere, new, rfl, rooted, onDisplay⟩
  · cases brought
    exact (displayOf?_moveTaskToFront ..).trans here
  · -- the root task around it is on the display that the task comes from
    obtain ⟨isRoot, within⟩ := formed.forest.inside_of_rootTaskOf? around
    have beside : s.hierarchy.displayOf? root = s.hierarchy.displayOf? task := by
      rcases within with rfl | inside
      · rfl
      · exact (formed.forest.displayOf?_eq_of_inside inside).symm
    have known := contains_of_isTask (Bool.and_eq_true_iff.mp isRoot).1
    have apart : new ≠ root := by
      rintro rfl
      rw [rooted.displayOf? formed known, beside] at onDisplay
      exact elsewhere onDisplay
    rw [Option.filter_some, if_pos (bne_iff_ne.mpr apart)] at brought
    dsimp only at brought
    split at brought
    · cases brought
    · rename_i into
      cases brought
      exact displayOf?_moveInto (rooted.wellFormed formed) (rooted.displayOf? formed live)
        elsewhere onDisplay into

end

section
variable (chosen : l.Of r h₀) (asked : askedDisplay? r h₀ = some display) (free : r.Unplaced)
  (moves : r.options.any LaunchOptions.avoidMoveToFront = false) (formed : h₀.WellFormed)
include chosen asked free moves formed

/-- A reused task is on the display once it has come forward. -/
theorem displayOf?_of_reuses (reuses : Reuses r h₀ record l task h) :
    h.displayOf? task = some display := by
  have live := contains_of_isTask reuses.isTask
  obtain ⟨s, t, root, moved, rfl, around, brought, rfl⟩ := reuses.exists_brought
  exact displayOf?_bringForward formed (rootTask_of_unplaced chosen free) live around
    (chosen.avoidMoveToFront.trans moves) (display_of_asked chosen asked).1 brought

theorem displayOf?_of_lodging (new : r.intent.flags.has .newTask = true)
    (alone : r.intent.flags.has .launchAdjacent = false)
    (lodging : Lodging r h₀ record l place h) : h.displayOf? place = some display := by
  cases lodging with
  | @reused _ g _ reuses arrived =>
    have standing := reuses.standing formed
    have arrived : (arrive g l record place).1 = h := congrArg Prod.fst arrived
    rw [← arrived, displayOf?_arrive standing.formed standing.task]
    exact displayOf?_of_reuses chosen asked free moves formed reuses
  | existing idle found =>
    have nowhere : existingPlace? h r l = none := by
      simp [existingPlace?, StartRequest.inFragment?, StartRequest.inTask?, free.inFragment,
        free.inTask, adjacentFragment?, flags_of_chosen chosen, alone, new]
    rw [nowhere] at found
    contradiction
  | @made root _ g g' spec position idle homeless rooting made layout =>
    have formed' := rooting.withRoot.wellFormed formed
    have formed'' : g'.WellFormed := formed'.createTask made
    have onDisplay : g.displayOf? root = some display := by
      cases rooting with
      | named named =>
        rw [rootTask_of_unplaced chosen free] at named
        contradiction
      | beside _ partner => simp [adjacentRoot?, flags_of_chosen chosen, alone] at partner
      | ofKind _ _ first found =>
        rw [(display_of_asked chosen asked).2] at first
        exact formed.displayOf?_getOrCreateRootTask first found
    rw [(sameFrame_applyBounds g' place layout).displayOf? formed''.forest
      (wellFormed_applyBounds formed'' layout).forest, displayOf?_new_createTask formed' made,
      onDisplay]

end

/-- Whatever way the launch takes, it ends on the display. -/
theorem displayOf?_of_landing (asked : askedDisplay? r h₀ = some display) (free : r.Unplaced)
    (moves : r.options.any LaunchOptions.avoidMoveToFront = false) (formed : h₀.WellFormed)
    (new : r.intent.flags.has .newTask = true) (alone : r.intent.flags.has .launchAdjacent = false)
    (landing : Landing env r h₀ record goal w w' out result)
    (succeeds : result.isSuccessful = true) :
    ∃ k, out = some k ∧ w'.hierarchy.displayOf? k = some display := by
  -- what follows once the launch is at its place keeps the frame
  have later : ∀ {g : Hierarchy} {k : NodeId}, g.WellFormed → SameFrame g w'.hierarchy →
      g.displayOf? k = some display → w'.hierarchy.displayOf? k = some display := by
    intro g k formed frame placed
    rw [frame.displayOf? formed.forest (formed.of_sameFrame frame).forest, placed]
  cases landing with
  | failed _ fails =>
    rw [fails] at succeeds
    contradiction
  | @added l h h' k _ chosen made front _ lodging =>
    have formed' := lodging.wellFormed formed
    have formed'' : h.WellFormed := formed'.addActivity made
    have onDisplay := displayOf?_of_lodging chosen asked free moves formed new alone lodging
    obtain ⟨added, rfl⟩ := addActivity_eq_ok_iff.mp made
    have placed : h.displayOf? w.hierarchy.nextId = some display := by
      rw [displayOf?_nextId_insertUnder formed'.forest formed''.forest added, onDisplay]
    refine ⟨_, rfl, ?_⟩
    rw [(sameView_propagate env { w with hierarchy := h' } ..).displayOf?, front]
    split
    · exact (displayOf?_moveTaskToFront ..).trans placed
    · exact placed
  | @delivered l h k moved chosen live _ arrived reuses =>
    have arrived' : (arrive w.hierarchy l record goal).1 = h := congrArg Prod.fst arrived
    have standing := (reuses.cleared formed arrived').1
    have onDisplay : h.displayOf? goal = some display := by
      rw [← arrived', displayOf?_arrive (reuses.wellFormed formed) live]
      exact displayOf?_of_reuses chosen asked free moves formed reuses
    have top := topRunningActivity?_arrive (reuses.wellFormed formed).forest live arrived
    exact ⟨k, rfl, later standing.formed
      ((sameFrame_deliver { w with hierarchy := h } ..).trans (sameFrame_propagate ..))
      (standing.formed.forest.displayOf?_of_topRunningActivity? standing.task onDisplay top)⟩
  | @kept l h moved chosen live _ arrived reuses =>
    obtain rfl : h = w.hierarchy := arrive_keep arrived
    have formed' := reuses.wellFormed formed
    have onDisplay := displayOf?_of_reuses chosen asked free moves formed reuses
    obtain ⟨k, _, top, _⟩ := reuses.exists_topRunningActivity? formed
    exact ⟨k, top, later formed' ((sameFrame_leaveCookie w ..).trans (sameFrame_propagate ..))
      (formed'.forest.displayOf?_of_topRunningActivity? live onDisplay top)⟩
  | @topped l chosen found same idle =>
    obtain ⟨root, focused, top⟩ := exists_root_of_deliverableTop? found
    rw [(display_of_asked chosen asked).2] at focused
    have member := mem_rootTasks_of_focusedRootTask? focused
    rw [← same] at formed asked
    have onDisplay : w.hierarchy.displayOf? root = some display :=
      formed.forest.displayOf?_of_inside (isSome_display?_of_asked asked)
        (formed.forest.inside_of_mem_rootTasks member)
    exact ⟨goal, rfl, later formed ((sameFrame_deliver w ..).trans (sameFrame_propagate ..))
      (formed.forest.displayOf?_of_topRunningActivity? (mem_rootTasks.mp member).1 onDisplay top)⟩

/-- An explicitly chosen display is honoured: a start that is to go to a new task on a display that
is there, and is told nothing else of its place, ends on that display if it succeeds. -/
theorem displayOf?_execute {s t : Starter} (reached : Reachable w.hierarchy)
    (asked : askedDisplay? s.request w.hierarchy = some display) (free : s.request.Unplaced)
    (moves : s.request.options.any LaunchOptions.avoidMoveToFront = false)
    (alone : s.request.intent.flags.has .launchAdjacent = false)
    (new : ∀ info, t.request.info = some info →
      (s.request.effectiveFlags w.hierarchy info).has .newTask = true)
    (ran : execute host s w = (t, w', .ok result)) (succeeds : result.isSuccessful = true) :
    ∃ k, t.outActivity = some k ∧ w'.hierarchy.displayOf? k = some display := by
  have formed := reached.wellFormed
  cases ending_execute formed ran with
  | failed fails =>
    rw [fails result rfl] at succeeds
    contradiction
  | @landed _ _ r _ info _ _ admitted known _ landing ends =>
    have asked' : askedDisplay? r w.hierarchy = some display := by
      rw [askedDisplay?, admitted.terms.options]
      exact asked
    rw [ends]
    refine displayOf?_of_landing asked' (admitted.unplaced free) ?_ formed ?_ ?_ landing succeeds
    · rw [admitted.terms.options, moves]
    · rw [admitted.flags, new info known]
    · rw [admitted.has_launchAdjacent, alone]

/-- An inbox on the focused one of two displays. -/
def screens : World where
  hierarchy := afterCalls
    [.addDisplay ⟨0⟩ ⟨0, 0, 1920, 1080⟩, .createRootTask ⟨2⟩ .fullscreen .standard .top,
      .createTask ⟨3⟩ { affinity := some "mail" } .top,
      .addActivity ⟨4⟩
        (ActivityRecord.create { component := ⟨"mail", "Inbox"⟩, uid := ⟨10010⟩ } {}) .top,
      .addDisplay ⟨1⟩ ⟨0, 0, 1280, 720⟩, .moveDisplayToTop ⟨1⟩]

theorem reachable_screens : Reachable screens.hierarchy := Reachable.empty.foldl_mutate _

/-- A draft that is asked for on the other display. -/
def draftElsewhere : StartRequest :=
  { mailRequest "Draft" 0 [.newTask] none with options := some { displayId := some ⟨1⟩ } }

/-- A host that would rather have everything on the display of the inbox. -/
def settlingHost : Host :=
  { mailHost with
    modifiers := [fun _ params => .settle { params with display := some ⟨0⟩ }] }

/-- The draft opens in the task of the inbox, which has moved to the other display for it. -/
theorem displayOf?_execute_of_screens :
    let opened := execute settlingHost { request := draftElsewhere } screens
    screens.hierarchy.displayOf? ⟨4⟩ = some ⟨1⟩ ∧ opened.2.2 = .ok .success ∧
      opened.1.outActivity = some ⟨9⟩ ∧ opened.2.1.hierarchy.parent? ⟨9⟩ = some ⟨4⟩ ∧
      opened.2.1.hierarchy.displayOf? ⟨9⟩ = some ⟨6⟩ := by
  intro opened
  have before : screens.hierarchy.displayOf? ⟨4⟩ = some ⟨1⟩ := by decide +kernel
  have succeeds : opened.2.2 = .ok .success := by decide +kernel
  have out : opened.1.outActivity = some ⟨9⟩ := by decide +kernel
  have inTask : opened.2.1.hierarchy.parent? ⟨9⟩ = some ⟨4⟩ := by decide +kernel
  have asked : askedDisplay? draftElsewhere screens.hierarchy = some ⟨6⟩ := by decide +kernel
  have flagged : ∀ info, opened.1.request.info = some info →
      (draftElsewhere.effectiveFlags screens.hierarchy info).has .newTask = true := by
    intro info _
    unfold StartRequest.effectiveFlags
    dsimp only
    split
    · exact Flags.has_insert ..
    · decide
  have ran : execute settlingHost { request := draftElsewhere } screens =
      (opened.1, opened.2.1, .ok .success) := by
    rw [← succeeds]
  obtain ⟨k, ended, placed⟩ := displayOf?_execute (s := { request := draftElsewhere })
    reachable_screens asked ⟨rfl, rfl, rfl⟩ rfl (by decide) flagged ran rfl
  obtain rfl : ⟨9⟩ = k := Option.some.inj (out.symm.trans ended)
  exact ⟨before, succeeds, out, inTask, placed⟩

end Start
end WindowHost
