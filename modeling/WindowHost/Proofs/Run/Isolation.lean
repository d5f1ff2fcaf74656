import WindowHost.Proofs.Run.Upshot

/-! Activities that keep a task to themselves. A start leaves such a task alone where it knows of
it: it empties the task that it reuses for the activity, makes a new task for it otherwise, and adds
nothing next to an activity of that kind that asks for the start. The searches for a task to reuse
and for the fragment beside the asking activity do not look at what lives there. -/
namespace WindowHost.Start
open Hierarchy
variable {w : World} {h h' h₀ : Hierarchy} {r : StartRequest} {l : Launch}
  {record : ActivityRecord} {info : ActivityInfo} {k place task : NodeId} {mode : LaunchMode}
  {gone : List NodeId}

/-- A task with a running activity that keeps a task to itself is around no other running one. -/
def Isolated (h : Hierarchy) : Prop :=
  ∀ j k a b task, h.activity? j = some a → a.isRunning = true → a.launchMode = .singleInstance →
    h.activity? k = some b → b.isRunning = true → h.taskAround? j = some task →
      h.taskAround? k = some task → k = j

/-- An activity of the launch mode may come to the task once some are gone from it: nothing else
there runs that the one or the other does not go together with. -/
def Admits (h : Hierarchy) (mode : LaunchMode) (task : NodeId) (gone : List NodeId) : Prop :=
  ∀ k a, h.activity? k = some a → a.isRunning = true → h.taskAround? k = some task → k ∉ gone →
    mode ≠ .singleInstance ∧ a.launchMode ≠ .singleInstance

section
variable (stays : ∀ k, Stays h h' k)
include stays

theorem Isolated.of_stays (isolated : Isolated h) : Isolated h' := by
  intro j k a b task heldJ runsJ alone heldK runsK aroundJ aroundK
  obtain ⟨a', heldJ, sameJ⟩ := (stays j).exists_tenant a heldJ
  obtain ⟨b', heldK, sameK⟩ := (stays k).exists_tenant b heldK
  exact isolated j k a' b' task heldJ (sameJ.runs ▸ runsJ) (sameJ.launchMode ▸ alone)
    heldK (sameK.runs ▸ runsK) (sameJ.home ▸ aroundJ) (sameK.home ▸ aroundK)

/-- The activities that are to go have gone, and every other one has stayed. -/
theorem Admits.of_stays (admits : Admits h mode task gone)
    (gone : ∀ k ∈ gone, h'.activity? k = none) : Admits h' mode task [] := by
  intro k a held runs around _
  obtain ⟨a', held', same⟩ := (stays k).exists_tenant a held
  rw [same.launchMode]
  refine admits k a' held' (same.runs ▸ runs) (same.home ▸ around) fun left => ?_
  rw [gone k left] at held
  contradiction

end

/-- A new activity isolates itself when the task that it comes to admits it. -/
theorem Isolated.addActivity (isolated : Isolated h) (formed : h.WellFormed)
    (made : h.addActivity place record .top = .ok (h', k))
    (admits : ∀ task, h.taskOf? place = some task → Admits h record.launchMode task []) :
    Isolated h' := by
  have home := formed.taskAround?_addActivity made
  have known : h'.activity? k = some record := by
    rw [activity?_addActivity made, if_pos rfl]
  have before : ∀ {i b task}, i ≠ k → h'.activity? i = some b → b.isRunning = true →
      h'.taskAround? i = some task → ∃ a, h.activity? i = some a ∧ a.isRunning = true ∧
        h.taskAround? i = some task ∧ a.launchMode = b.launchMode := by
    intro i b task other held runs around
    obtain ⟨a, held, same⟩ := (formed.stays_addActivity made other).exists_tenant b held
    exact ⟨a, held, same.runs ▸ runs, same.home ▸ around, same.launchMode.symm⟩
  intro i j a b task heldI runsI alone heldJ runsJ aroundI aroundJ
  by_cases newI : i = k <;> by_cases newJ : j = k
  · rw [newI, newJ]
  · obtain ⟨b', heldJ, runsJ, aroundJ, _⟩ := before newJ heldJ runsJ aroundJ
    rw [newI, home] at aroundI
    rw [newI, known, Option.some.injEq] at heldI
    exact absurd (heldI ▸ alone) (admits task aroundI j b' heldJ runsJ aroundJ (by simp)).1
  · obtain ⟨a', heldI, runsI, aroundI, same⟩ := before newI heldI runsI aroundI
    rw [newJ, home] at aroundJ
    exact absurd (same.trans alone) (admits task aroundJ i a' heldI runsI aroundI (by simp)).2
  · obtain ⟨a', heldI, runsI, aroundI, same⟩ := before newI heldI runsI aroundI
    obtain ⟨b', heldJ, runsJ, aroundJ, _⟩ := before newJ heldJ runsJ aroundJ
    exact isolated i j a' b' task heldI runsI (same.trans alone) heldJ runsJ aroundI aroundJ

/-- Where a start does not look at what lives in a task, nothing lives there that it would intrude
on or be intruded on by: in the task that it reuses for an activity that shares its task, among what
it leaves there; if it reuses none, in the task of the fragment beside the asking activity; and in
the asking activity's own task when that activity has ended. -/
structure KeepsOut (host : Host) (given : StartRequest) (h : Hierarchy) : Prop where
  matched : ∀ info task, MayLaunch host given info → info.launchMode ≠ .singleInstance →
    taskToReuse? given h info = some task →
      Admits h info.launchMode task (evicted h (given.effectiveFlags h info) info task)
  beside : ∀ info source parent partner task, MayLaunch host given info →
    taskToReuse? given h info = none →
    (given.effectiveFlags h info).has .launchAdjacent = true →
    (given.options.bind LaunchOptions.rootTask).filter h.isTask = none →
      given.source? h = some source → h.parent? source = some parent →
        (h.fragment? parent).isSome = true → h.adjacent? parent = some partner →
          h.taskOf? partner = some task → Admits h info.launchMode task []
  asking : ∀ info source a task, MayLaunch host given info →
    (given.effectiveFlags h info).has .newTask = false → given.source? h = some source →
      h.activity? source = some a → a.isRunning = false → h.taskAround? source = some task →
        Admits h info.launchMode task []

theorem taskOf?_of_isTask (live : h.isTask task = true) : h.taskOf? task = some task := by
  rw [taskOf?, lineage, if_pos (contains_of_isTask live)]
  exact List.find?_cons_of_pos live

theorem fragment_of_adjacentFragment? (found : adjacentFragment? h l = some place) :
    l.flags.has .launchAdjacent = true ∧ l.rootTask = none ∧ ∃ source parent,
      l.source = some source ∧ h.parent? source = some parent ∧
        (h.fragment? parent).isSome = true ∧ h.adjacent? parent = some place := by
  unfold adjacentFragment? at found
  split at found
  · rename_i asked
    obtain ⟨source, known, found⟩ := Option.bind_eq_some_iff.mp found
    obtain ⟨parent, above, found⟩ := Option.bind_eq_some_iff.mp found
    obtain ⟨_, fragment, partner⟩ := Option.bind_eq_some_iff.mp found
    obtain ⟨asked, free⟩ := Bool.and_eq_true_iff.mp asked
    exact ⟨asked, Option.isNone_iff_eq_none.mp free, source, parent, known, above,
      Option.isSome_iff_exists.mpr ⟨_, fragment⟩, partner⟩
  · contradiction

section
variable {host : Host} {given : StartRequest} (keepsOut : KeepsOut host given h₀)
  (admitted : Admitted host given r info h₀)
  (unnamed : given.inTask = none ∧ given.inFragment = none)
include keepsOut admitted unnamed

/-- The place next to the asking activity, or beside the fragment around it. -/
theorem admits_existingPlace? (isolated : Isolated h₀) (chosen : l.Of r h₀)
    (idle : taskToReuse? given h₀ info = none) (found : existingPlace? h₀ r l = some place)
    (around : h₀.taskOf? place = some task) : Admits h₀ info.launchMode task [] := by
  obtain ⟨layout, display, _, rfl⟩ := chosen
  have noFragment : r.inFragment? h₀ = none := by
    rw [StartRequest.inFragment?, admitted.terms.inFragment, unnamed.2, Option.filter_none]
  have noTask : r.inTask? h₀ = none := by
    rw [StartRequest.inTask?, admitted.terms.inTask, unnamed.1, Option.filter_none]
  have source := admitted.terms.source? h₀
  unfold existingPlace? at found
  rw [noFragment, noTask, Option.none_or, Option.none_or] at found
  rcases Option.or_eq_some_iff.mp found with beside | ⟨_, here⟩
  · obtain ⟨asked, free, asking, parent, known, above, fragment, partner⟩ :=
      fragment_of_adjacentFragment? beside
    exact keepsOut.beside info asking parent place task admitted.launches idle
      (admitted.flags ▸ asked) (admitted.terms.options ▸ free) (source ▸ known) above fragment
      partner around
  split at here
  · contradiction
  rename_i same
  obtain ⟨asking, known, above⟩ := Option.bind_eq_some_iff.mp here
  have known : given.source? h₀ = some asking := source ▸ known
  have home : h₀.taskAround? asking = some task := by
    rw [taskAround?, above, Option.bind_some, around]
  obtain ⟨a, held⟩ : ∃ a, h₀.activity? asking = some a :=
    Option.isSome_iff_exists.mp (Option.filter_eq_some_iff.mp known).2
  have shared : (given.effectiveFlags h₀ info).has .newTask = false := by
    rw [← admitted.flags]
    exact Bool.eq_false_iff.mpr same
  obtain ⟨plain, shares⟩ := shared_of_effectiveFlags shared
  intro k b held' runs around' _
  refine ⟨fun alone => by simp [alone, LaunchMode.requiresNewTask] at plain, fun alone => ?_⟩
  cases runs' : a.isRunning with
  | false =>
    have admits : Admits h₀ info.launchMode task [] :=
      keepsOut.asking info asking a task admitted.launches shared known held runs' home
    exact (admits k b held' runs around' (by simp)).2 alone
  | true =>
    obtain rfl := isolated k asking b a task held' runs alone held runs' around' home
    rw [held, Option.some.injEq] at held'
    exact shares asking a known held (held' ▸ alone)

theorem admits_of_lodging {uid : Uid} (formed : h₀.WellFormed) (isolated : Isolated h₀)
    (chosen : l.Of r h₀) (lodging : Lodging r h₀ (r.newRecord uid info) l place h)
    (around : h.taskOf? place = some task) : Admits h info.launchMode task [] := by
  have stays := lodging.stays formed
  cases lodging with
  | @reused _ h₁ _ reuses arrived =>
    obtain ⟨standing, cleared⟩ := reuses.cleared formed (congrArg Prod.fst arrived)
    obtain rfl : place = task :=
      Option.some.inj ((taskOf?_of_isTask standing.task).symm.trans around)
    rcases reusableTask?_cases reuses.chosen with ⟨single, _⟩ | ⟨other, found⟩
    · intro k a held _ home _
      obtain ⟨_, _, same⟩ := (cleared k).exists_tenant a held
      have inside := (reuses.wellFormed formed).forest.inside_of_taskAround? (same.home ▸ home)
      have empty := reuses.emptied formed single arrived inside
      rw [isActivity_of_activity? held] at empty
      contradiction
    · have reused := (admitted.taskToReuse? uid).symm.trans reuses.chosen
      refine (keepsOut.matched info place admitted.launches other reused).of_stays stays
        fun k left => ?_
      have cleared :=
        reuses.cleared_evicted chosen admitted.flags formed (congrArg Prod.fst arrived)
      rw [activity?, cleared.data?, if_pos (admitted.flags ▸ left)]
      rfl
  | existing idle found =>
    rw [admitted.taskToReuse?] at idle
    exact admits_existingPlace? keepsOut admitted unnamed isolated chosen idle found around
  | @made root _ h₁ h₂ spec position _ _ rooting made layout =>
    have live : (applyBounds h₂ place layout).isTask place = true := isTask_new made layout
    obtain rfl : place = task := Option.some.inj ((taskOf?_of_isTask live).symm.trans around)
    intro k a held _ home _
    obtain ⟨_, _, same⟩ := (stays k).exists_tenant a held
    have old := contains_of_isTask (isTask_of_taskAround? (same.home ▸ home))
    rw [WithRoot.contains_new made rooting.withRoot] at old
    contradiction

end

/-- A start that names no place for the activity leaves every task alone that an activity has to
itself. -/
theorem isolated_execute (reached : Reachable w.hierarchy) (isolated : Isolated w.hierarchy)
    (host : Host) (s : Starter) (unnamed : s.request.inTask = none ∧ s.request.inFragment = none)
    (keepsOut : KeepsOut host s.request w.hierarchy) :
    Isolated (execute host s w).2.1.hierarchy := by
  cases upshot_execute reached host s with
  | still stays => exact isolated.of_stays stays
  | added admitted chosen lodging made later =>
    have formed := reached.wellFormed
    have before := isolated.of_stays (lodging.stays formed)
    have after := before.addActivity (lodging.wellFormed formed) made fun task around =>
      admits_of_lodging keepsOut admitted unnamed formed isolated chosen lodging around
    exact after.of_stays later

/-- A call that has a task to itself, and above it a mailbox. -/
def callBelowMail (call inbox : ActivityInfo) : Hierarchy :=
  ([.addDisplay ⟨0⟩ ⟨0, 0, 1920, 1080⟩, .createTask ⟨2⟩ { affinity := some "phone" } .top,
    .addActivity ⟨3⟩ (.create call {}) .top, .createTask ⟨2⟩ { affinity := some "mail" } .top,
    .addActivity ⟨5⟩ (.create inbox {}) .top] : List Mutation).foldl mutate empty

/-- Where one activity at most keeps a task to itself, nothing else need be tried. -/
theorem isolated_of_lone {x : NodeId}
    (lone : ∀ j a, h.activity? j = some a → a.isRunning = true ∧ a.launchMode = .singleInstance →
      j = x)
    (only : ∀ k b, h.activity? k = some b → b.isRunning = true →
      h.taskAround? k = h.taskAround? x → k = x) : Isolated h := by
  intro j k a b task heldJ runsJ alone heldK runsK aroundJ aroundK
  obtain rfl := lone j a heldJ ⟨runsJ, alone⟩
  exact only k b heldK runsK (aroundK.trans aroundJ.symm)

/-- A draft that is started from nowhere comes to the task of the mailbox. -/
theorem isolated_execute_of_draft :
    let info (package name : String) (mode : LaunchMode) : ActivityInfo :=
      { component := ⟨package, name⟩, uid := ⟨10010⟩, launchMode := mode }
    let draft := info "mail" "Draft" .multiple
    let h := callBelowMail (info "phone" "Call" .singleInstance) (info "mail" "Inbox" .multiple)
    let request : StartRequest := { intent := .ofComponent draft.component, info := some draft }
    let after := (execute { environment := fun _ => {} } { request := request }
      { hierarchy := h }).2.1.hierarchy
    Isolated h ∧ taskToReuse? request h draft = some ⟨5⟩ ∧ after.taskAround? ⟨7⟩ = some ⟨5⟩ ∧
      after.taskAround? ⟨4⟩ = some ⟨3⟩ ∧ Isolated after := by
  intro info draft h request after
  have reached : Reachable h := Reachable.empty.foldl_mutate _
  have isolated : Isolated h := isolated_of_lone (x := ⟨4⟩)
    (forall_activity_of_lt_next (by decide +kernel))
    (forall_activity_of_lt_next (by decide +kernel))
  have shares : ∀ k a, h.activity? k = some a → h.taskAround? k = some ⟨5⟩ →
      a.launchMode ≠ .singleInstance := forall_activity_of_lt_next (by decide +kernel)
  have found : taskToReuse? request h draft = some ⟨5⟩ := by decide +kernel
  have keepsOut : KeepsOut { environment := fun _ => {} } request h := by
    have only : ∀ info, MayLaunch { environment := fun _ => {} } request info → info = draft := by
      rintro _ (⟨⟨⟩⟩ | ⟨⟨⟩, _⟩)
      rfl
    refine ⟨fun _ task may alone matched k a held _ around _ => ⟨alone, ?_⟩,
      fun _ _ _ _ _ may idle => ?_, fun _ _ _ _ _ _ known => nomatch known⟩
    · obtain rfl := only _ may
      obtain rfl := Option.some.inj (matched.symm.trans found)
      exact shares k a held around
    · obtain rfl := only _ may
      exact absurd (found.symm.trans idle) (Option.some_ne_none _)
  have home : after.taskAround? ⟨7⟩ = some ⟨5⟩ ∧ after.taskAround? ⟨4⟩ = some ⟨3⟩ := by
    decide +kernel
  clear_value h
  exact ⟨isolated, found, home.1, home.2, isolated_execute (w := { hierarchy := h }) reached
    isolated { environment := fun _ => {} } { request := request } ⟨rfl, rfl⟩ keepsOut⟩

/-- A dialer of the same package comes to the task that a call has to itself, because of the
affinity that they share. -/
theorem not_isolated_of_dialer :
    let info (name : String) (mode : LaunchMode) : ActivityInfo :=
      { component := ⟨"phone", name⟩, uid := ⟨10010⟩, launchMode := mode }
    let launch (info : ActivityInfo) : StartRequest :=
      { intent := .ofComponent info.component, info := some info }
    let start (w : World) (info : ActivityInfo) : World :=
      (execute { environment := fun _ => {} } { request := launch info } w).2.1
    let h := empty.mutate (.addDisplay ⟨0⟩ ⟨0, 0, 1920, 1080⟩)
    let called := start { hierarchy := h } (info "Call" .singleInstance)
    let dialed := start called (info "Dialer" .multiple)
    Reachable called.hierarchy ∧ Isolated called.hierarchy ∧
      dialed.hierarchy.taskAround? ⟨5⟩ = some ⟨4⟩ ∧ dialed.hierarchy.taskAround? ⟨6⟩ = some ⟨4⟩ ∧
      ¬ Isolated dialed.hierarchy := by
  intro info launch start h called dialed
  have begun : Reachable h := Reachable.empty.call _
  have reached : Reachable called.hierarchy := by
    have steps : Steps false { hierarchy := h } called := steps_execute ..
    exact steps.reached begun
  have isolated : Isolated called.hierarchy := isolated_of_lone (x := ⟨5⟩)
    (forall_activity_of_lt_next (by decide +kernel))
    (forall_activity_of_lt_next (by decide +kernel))
  have call : (dialed.hierarchy.activity? ⟨5⟩).any
      (fun a => a.isRunning && a.launchMode == .singleInstance) = true := by decide +kernel
  have dialer : (dialed.hierarchy.activity? ⟨6⟩).any ActivityRecord.isRunning = true := by
    decide +kernel
  have home : dialed.hierarchy.taskAround? ⟨5⟩ = some ⟨4⟩ ∧
      dialed.hierarchy.taskAround? ⟨6⟩ = some ⟨4⟩ := by decide +kernel
  clear_value dialed
  refine ⟨reached, isolated, home.1, home.2, fun isolated => ?_⟩
  obtain ⟨a, heldA, alone⟩ := (Option.any_eq_true ..).mp call
  obtain ⟨b, heldB, runs⟩ := (Option.any_eq_true ..).mp dialer
  rw [Bool.and_eq_true, beq_iff_eq] at alone
  have same := isolated ⟨5⟩ ⟨6⟩ a b ⟨4⟩ heldA alone.1 alone.2 heldB runs home.1 home.2
  exact absurd same (by decide)

end WindowHost.Start
