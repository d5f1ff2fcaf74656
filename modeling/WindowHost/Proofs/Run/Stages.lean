import WindowHost.Proofs.Run.Account
import WindowHost.Proofs.Run.Isolation
import WindowHost.Proofs.Start.Chain
import WindowHost.Proofs.Start.Unasked

/-! When the layout modifiers are asked. Their chain runs once a launch is admitted, again once it
has a display, and a last time once it has made a new task, each time with what the run before has
come to. -/
namespace WindowHost
open Hierarchy
open Told (told)
variable {w : World} {env : Environment} {host : Host} {chain : List Modifier}
  {r : StartRequest} {caller : Caller} {info : ActivityInfo} {h h' h₀ : Hierarchy}
  {out : Option NodeId} {result : StartResult} {made : Option TaskId} {s : Flight} {l : Launch}
  {record : ActivityRecord} {calls later : List Call} {asked : List ModifierCall}

/-- The questions to layout modifiers among calls. -/
def questions (calls : List Call) : List ModifierCall := calls.filterMap Call.modifier?

theorem questions_append (calls later : List Call) :
    questions (calls ++ later) = questions calls ++ questions later :=
  List.filterMap_append ..

theorem questions_of_unasked (unasked : Unasked later) : questions later = [] :=
  List.filterMap_eq_nil_iff.mpr unasked

theorem questions_append_modifier (calls : List Call) (asked : List ModifierCall) :
    questions (calls ++ asked.map .modifier) = questions calls ++ asked := by
  simp [questions, List.filterMap_append, List.filterMap_map, Function.comp_def, Call.modifier?]

/-- A run of the chain asks its questions, and changes nothing. -/
theorem Flight.exists_refineLayout (s : Flight) (chain : List Modifier) (request : LayoutRequest)
    (current : LaunchParams) : ∃ asked params,
      s.refineLayout chain request current =
        (told s (s.world.calls ++ asked.map .modifier), params) ∧
      Consulted chain request current asked params :=
  ⟨_, _, rfl, consulted_refine chain request current⟩

theorem Oblivious.questions_eq {σ τ : Type} [Told σ] [Told τ] {f : σ → τ} {s : σ}
    (oblivious : Oblivious env f s) :
    questions (Told.calls (f s)) = questions (Told.calls s) := by
  obtain ⟨later, unasked, made, _⟩ := oblivious.calls_eq
  rw [made, questions_append, questions_of_unasked unasked, List.append_nil]

namespace Start

/-- What the modifiers are told at a stage of a launch. -/
def stageRequest (r : StartRequest) (h : Hierarchy) (info : ActivityInfo) (phase : LaunchPhase)
    (task : Option TaskId) : LayoutRequest where
  phase := phase
  info := info
  task := task
  sourceDisplay := r.sourceDisplay? h
  requestedBounds := r.requestedLayout.bounds

/-- The number of the task that a launch may reuse. -/
def reusableId? (r : StartRequest) (h : Hierarchy) (caller : Caller) (info : ActivityInfo) :
    Option TaskId :=
  ((reusableTask? r h (r.newRecord caller.uid info)).bind h.task?).map Task.id

/-- The questions of one launch, and the new task that they are asked about at last. Each run of the
chain sets out from what the one before it has come to, and the first one from what the options ask
for. -/
inductive Staged (chain : List Modifier) (r : StartRequest) (caller : Caller) (info : ActivityInfo)
    (h : Hierarchy) : Option TaskId → List ModifierCall → Prop where
  /-- No display is found. -/
  | homeless {first : List ModifierCall} {picked : LaunchParams}
      (display : Consulted chain (stageRequest r h info .display none) r.requestedLayout first
        picked)
      (nowhere : launchDisplay? r h picked = none) : Staged chain r caller info h none first
  /-- A display is found, and no task is made. -/
  | placed {first second : List ModifierCall} {picked estimated : LaunchParams} {display : NodeId}
      (picks : Consulted chain (stageRequest r h info .display none) r.requestedLayout first picked)
      (found : launchDisplay? r h picked = some display)
      (bounds : Consulted chain (stageRequest r h info .bounds (reusableId? r h caller info)) picked
        second estimated) : Staged chain r caller info h none (first ++ second)
  /-- A task is made. -/
  | housed {first second third : List ModifierCall} {picked estimated laid : LaunchParams}
      {display : NodeId} {task : TaskId}
      (picks : Consulted chain (stageRequest r h info .display none) r.requestedLayout first picked)
      (found : launchDisplay? r h picked = some display)
      (bounds : Consulted chain (stageRequest r h info .bounds (reusableId? r h caller info)) picked
        second estimated)
      (layout : Consulted chain (stageRequest r h info .taskLayout (some task)) estimated third
        laid) : Staged chain r caller info h (some task) (first ++ second ++ third)

/-- The number of the task around the activity that a start ends at, if the task was not there
before. -/
def newTask? (h h' : Hierarchy) (out : Option NodeId) : Option TaskId :=
  (((out.bind h'.taskAround?).filter fun task => !h.contains task).bind h'.task?).map Task.id

/-- The start has made this new task, or none. Lock task mode forbids a task only once it is
made. -/
def Makes (h h' : Hierarchy) (out : Option NodeId) (result : StartResult) (made : Option TaskId) :
    Prop :=
  if result = .lockTaskModeViolation then made.isSome = true else made = newTask? h h' out

theorem newTask?_of_old
    (old : ∀ task, out.bind h'.taskAround? = some task → h.contains task = true) :
    newTask? h h' out = none := by
  cases around : out.bind h'.taskAround? with
  | none => rw [newTask?, around]; rfl
  | some task => simp [newTask?, around, old task around]

theorem newTask?_of_new {k task : NodeId} {id : TaskId} (around : h'.taskAround? k = some task)
    (new : h.contains task = false) (named : h'.tag? task = some (.task id)) :
    newTask? h h' (some k) = some id := by
  obtain ⟨t, held, rfl⟩ := tag?_eq_task_iff.mp named
  rw [newTask?, Option.bind_some, around, Option.filter_some, new, Bool.not_false, if_pos rfl,
    Option.bind_some, held, Option.map_some]

section
variable {w' : World} {goal task : NodeId} (formed : h₀.WellFormed)
  (landing : Landing env r h₀ record goal w w' out result)
include formed landing

/-- An intent that has gone to an activity of old has gone to a task of old. -/
theorem newTask?_of_settled (settles : Settles result) : newTask? h₀ w'.hierarchy out = none := by
  obtain ⟨k, _, h, rfl, _, _, top, frame, _⟩ := exists_top_of_landing formed landing settles
  obtain ⟨a, held, _⟩ := exists_of_topRunningActivity? top
  have leaf : w'.hierarchy.isActivity k = true :=
    (isActivity_congr (frame.tag k)).trans (isActivity_of_activity? held)
  obtain ⟨b, held⟩ := Option.isSome_iff_exists.mp leaf
  obtain ⟨_, _, same⟩ := (stays_of_landing formed landing settles k).exists_tenant b held
  refine newTask?_of_old fun task around => ?_
  rw [Option.bind_some, same.home] at around
  exact contains_of_isTask (isTask_of_taskAround? around)

end

section
variable {k goal : NodeId}
  (added : w.hierarchy.addActivity goal record .top = .ok (h, k))
  (front : h' = if l.movesToFront then (h.moveTaskToFront goal).1 else h)
include added front

/-- A new activity lives in the task of its place, and stays there. -/
theorem taskAround?_of_added (formed : w.hierarchy.WellFormed) (env : Environment)
    (display : NodeId) :
    (propagate env { w with hierarchy := h' } display (some k)).hierarchy.taskAround? k =
      w.hierarchy.taskOf? goal := by
  have shown : (propagate env { w with hierarchy := h' } display (some k)).hierarchy.taskAround? k =
      h'.taskAround? k := (sameView_propagate env { w with hierarchy := h' } ..).taskAround? k
  rw [shown, ← formed.taskAround?_addActivity added, front]
  split
  · have leaf : (h.moveTaskToFront goal).1.activity? k = some record := by
      rw [activity?_of_data? (data?_moveTaskToFront h goal k), activity?_addActivity added,
        if_pos rfl]
    obtain ⟨_, _, same⟩ :=
      ((formed.addActivity added).stays_moveTaskToFront goal k).exists_tenant record leaf
    exact same.home
  · rfl

/-- A new activity changes the number of no task. -/
theorem tag?_of_added (env : Environment) (display : NodeId) {j : NodeId}
    (live : w.hierarchy.contains j = true) :
    (propagate env { w with hierarchy := h' } display (some k)).hierarchy.tag? j =
      w.hierarchy.tag? j := by
  have old : j ≠ k := by
    rintro rfl
    obtain ⟨_, rfl⟩ := addActivity_eq_ok_iff.mp added
    rw [contains_nextId] at live
    contradiction
  have grown : h.tag? j = w.hierarchy.tag? j := by
    rw [tag?, data?_addActivity added, if_neg old, ← tag?]
  have raised : h'.tag? j = h.tag? j := by
    rw [front]
    split
    · exact tag?_moveTaskToFront h goal j
    · rfl
  exact ((sameFrame_propagate env { w with hierarchy := h' } ..).tag j).trans (raised.trans grown)

end

/-- Where a task is reused, it is the place of a new activity. -/
theorem isTask_of_reused {task goal : NodeId} (formed : h₀.WellFormed)
    (lodging : Lodging r h₀ record l goal h) (reusable : reusableTask? r h₀ record = some task) :
    h₀.isTask goal = true ∧ h.isTask goal = true := by
  cases lodging with
  | reused reuses arrived =>
    exact ⟨reuses.isTask, (reuses.cleared formed (congrArg Prod.fst arrived)).1.task⟩
  | existing idle => rw [reusable] at idle; contradiction
  | made idle => rw [reusable] at idle; contradiction

/-- A launch that reuses a task makes none of its own. -/
theorem newTask?_of_reused {w' : World} {goal task : NodeId} (formed : h₀.WellFormed)
    (landing : Landing env r h₀ record goal w w' out result)
    (reusable : reusableTask? r h₀ record = some task) : newTask? h₀ w'.hierarchy out = none := by
  by_cases settles : Settles result
  · exact newTask?_of_settled formed landing settles
  cases landing with
  | failed => rfl
  | @added l h h' k display _ made front _ lodging =>
    have formed' := lodging.wellFormed formed
    obtain ⟨old, live⟩ := isTask_of_reused formed lodging reusable
    refine newTask?_of_old fun around known => ?_
    rw [Option.bind_some, taskAround?_of_added made front formed', taskOf?_of_isTask live,
      Option.some.injEq] at known
    exact known ▸ contains_of_isTask old
  | delivered | kept => exact absurd (by split <;> simp [Settles]) settles
  | topped => exact absurd (.inr rfl) settles

theorem makes_fail (h : Hierarchy) (s : Flight) :
    Makes h s.fail.1.world.hierarchy s.fail.1.outActivity s.fail.2 none :=
  rfl

theorem recycle_ne_locked (s : Flight) (task : NodeId) :
    (recycle env s l record task).2 ≠ .lockTaskModeViolation := by
  unfold recycle
  split
  · nofun
  dsimp only
  split
  · nofun
  rename_i t moved _
  rcases arrive t.hierarchy l record task with ⟨h, _ | k | _⟩
  · dsimp only
    split <;> nofun
  · dsimp only
    split <;> nofun
  · dsimp only
    split <;> nofun

theorem makes_recycle {task : NodeId} (formed : s.hierarchy.WellFormed)
    (chosen : l.Of r s.hierarchy) (reusable : reusableTask? r s.hierarchy record = some task) :
    let ended := recycle env s l record task
    Makes s.hierarchy ended.1.world.hierarchy ended.1.outActivity ended.2 none := by
  intro ended
  have lands : Lands env r s.hierarchy record s.world ended := lands_recycle chosen rfl reusable
  obtain ⟨_, _, _, landing, _⟩ := lands.exists_landing
  rw [Makes, if_neg (recycle_ne_locked s task)]
  exact (newTask?_of_reused formed landing reusable).symm

theorem makes_deliverToTop {top : NodeId} (formed : s.hierarchy.WellFormed)
    (chosen : l.Of r s.hierarchy) (idle : reusableTask? r s.hierarchy record = none)
    (found : deliverableTop? s.hierarchy l.display record = some top) :
    let ended := deliverToTop env s l record top
    Makes s.hierarchy ended.1.world.hierarchy ended.1.outActivity ended.2 none := by
  intro ended
  have lands : Lands env r s.hierarchy record s.world ended :=
    lands_deliverToTop chosen rfl idle found
  obtain ⟨_, _, _, landing, _⟩ := lands.exists_landing
  have delivered : ended.2 = .deliveredToTop := rfl
  rw [Makes, delivered, if_neg (by decide)]
  exact (newTask?_of_settled formed landing (.inr rfl)).symm

/-- A new activity that its place takes lives in the task of the place, under the old number. -/
theorem addTo_of_added {parent k : NodeId} (env : Environment) (l : Launch)
    (formed : s.hierarchy.WellFormed)
    (added : s.hierarchy.addActivity parent record .top = .ok (h, k)) :
    ∃ ended : Flight, addTo env s l record parent = (ended, .success) ∧
      ended.outActivity = some k ∧
      ended.world.hierarchy.taskAround? k = s.hierarchy.taskOf? parent ∧
      ∀ j, s.hierarchy.contains j = true →
        ended.world.hierarchy.tag? j = s.hierarchy.tag? j := by
  obtain ⟨h', front⟩ : ∃ h', h' = if l.movesToFront then (h.moveTaskToFront parent).1 else h :=
    ⟨_, rfl⟩
  let grown : Flight := Flight.withHierarchy { s.withNew h k with outActivity := some k } h'
  let display := (grown.hierarchy.displayOf? k).getD l.display
  have same : grown.world = { s.world with hierarchy := h' } := rfl
  refine ⟨{ grown with world := propagate env grown.world display (some k) }, ?_, rfl, ?_, ?_⟩
  · rw [addTo, added]
    dsimp only
    rw [raise_of_front]
    dsimp only [Flight.hierarchy, Flight.withNew, Flight.withHierarchy]
    rw [← front]
    rfl
  · rw [same]
    exact taskAround?_of_added added front formed env display
  · rw [same]
    exact fun j => tag?_of_added added front env display

/-- An activity that is added to a place of old makes no task. -/
theorem makes_addTo {parent : NodeId} (formed : s.hierarchy.WellFormed) :
    let ended := addTo env s l record parent
    Makes s.hierarchy ended.1.world.hierarchy ended.1.outActivity ended.2 none := by
  dsimp only
  rcases added : s.hierarchy.addActivity parent record .top with e | ⟨h, k⟩
  · rw [addTo, added]
    exact makes_fail _ s
  · obtain ⟨ended, same, out, home, _⟩ := addTo_of_added env l formed added
    rw [same, Makes, if_neg (by simp), out]
    refine (newTask?_of_old fun task around => ?_).symm
    rw [Option.bind_some, home] at around
    exact contains_of_isTask (List.find?_some around)

/-- A launch that makes a new task, or fails before, asks about the task that it makes. -/
theorem staged_startInNewTask (formed : s.hierarchy.WellFormed) (request : LayoutRequest)
    (layout : LaunchParams) :
    let ended := startInNewTask env chain s l r record request layout
    ∃ made asked,
      Makes s.hierarchy ended.1.world.hierarchy ended.1.outActivity ended.2 made ∧
        questions ended.1.world.calls = questions s.world.calls ++ asked ∧
        match made with
        | none => asked = []
        | some task => ∃ laid, Consulted chain
            { request with phase := .taskLayout, task := some task } layout asked laid := by
  rw [startInNewTask_eq_lodge]
  dsimp only
  split
  · exact ⟨none, [], makes_fail _ s, (List.append_nil _).symm, rfl⟩
  rename_i rooted root found
  have calls : rooted.world.calls = s.world.calls :=
    (sameNotes_of_rooted (sameOrRooted_launchRoot found)).calls
  have root' := (rooting_launchRoot found).withRoot
  split
  · refine ⟨none, [], makes_fail _ rooted, ?_, rfl⟩
    rw [List.append_nil, ← calls]
    rfl
  rename_i h task created
  have new : s.hierarchy.contains task = false := WithRoot.contains_new created root'
  obtain ⟨id, named⟩ : ∃ id, h.tag? task = some (.task id) := by
    rw [tag?, data?_createTask created, if_pos rfl]
    exact ⟨_, rfl⟩
  have id? : ((rooted.withNew h task).hierarchy.task? task).map Task.id = some id := by
    obtain ⟨t, held, same⟩ := tag?_eq_task_iff.mp named
    exact Option.map_eq_some_iff.mpr ⟨t, held, same⟩
  rw [id?]
  obtain ⟨asked, params, refined, whole⟩ := (rooted.withNew h task).exists_refineLayout chain
    { request with phase := .taskLayout, task := some id } layout
  rw [refined]
  refine ⟨some id, asked, ?_, ?_, params, whole⟩
  · let laid : Flight := (told (rooted.withNew h task)
      (rooted.world.calls ++ asked.map .modifier)).withHierarchy (applyBounds h task params)
    unfold lodge
    dsimp only
    split
    · exact rfl
    have formed' : laid.hierarchy.WellFormed :=
      wellFormed_applyBounds ((root'.wellFormed formed).createTask created) params
    have live : laid.hierarchy.isTask task = true := isTask_new created params
    have named : laid.hierarchy.tag? task = some (.task id) :=
      ((sameFrame_applyBounds h task params).tag task).trans named
    obtain ⟨grown, added⟩ := exists_addActivity named record .top
    obtain ⟨ended, same, out, home, kept⟩ := addTo_of_added env l formed' added
    have named := (kept task (contains_of_isTask live)).trans named
    rw [taskOf?_of_isTask live] at home
    show Makes s.hierarchy (addTo env laid l record task).1.world.hierarchy
      (addTo env laid l record task).1.outActivity (addTo env laid l record task).2 (some id)
    rw [same, Makes, if_neg (by simp), out]
    exact (newTask?_of_new home new named).symm
  · refine (oblivious_lodge l record task _).questions_eq.trans ?_
    exact (questions_append_modifier _ asked).trans (congrArg (questions · ++ asked) calls)

/-- The questions of a launch by how far it comes. -/
theorem staged_place (formed : w.hierarchy.WellFormed) (host : Host) (r : StartRequest)
    (caller : Caller) (info : ActivityInfo) :
    let ended := place host r caller info w
    ∃ made asked,
      Makes w.hierarchy ended.1.world.hierarchy ended.1.outActivity ended.2 made ∧
        questions ended.1.world.calls = questions w.calls ++ asked ∧
        Staged host.modifiers r caller info w.hierarchy made asked := by
  obtain ⟨first, picked, refined, picks⟩ := Flight.exists_refineLayout { world := w } host.modifiers
    (stageRequest r w.hierarchy info .display none) r.requestedLayout
  have afterFirst := questions_append_modifier w.calls first
  unfold place
  dsimp only [stageRequest] at refined ⊢
  rw [refined]
  dsimp only
  split
  · rename_i nowhere
    exact ⟨none, first, rfl, afterFirst, .homeless picks nowhere⟩
  rename_i display found
  have chosen : (launch r w.hierarchy picked display).Of r w.hierarchy := ⟨_, display, found, rfl⟩
  let under : Flight := told ({ world := w } : Flight) (w.calls ++ first.map .modifier)
  obtain ⟨second, estimated, refined', bounds⟩ := under.exists_refineLayout host.modifiers
    (stageRequest r w.hierarchy info .bounds (reusableId? r w.hierarchy caller info)) picked
  let s : Flight := told under (under.world.calls ++ second.map .modifier)
  have afterBoth : questions s.world.calls = questions w.calls ++ (first ++ second) := by
    rw [← List.append_assoc, ← afterFirst]
    exact questions_append_modifier _ second
  dsimp only [stageRequest, reusableId?] at refined'
  rw [refined']
  dsimp only
  split
  · rename_i task reusable
    exact ⟨none, first ++ second, makes_recycle (s := s) formed chosen reusable,
      (oblivious_recycle s _ _ task).questions_eq.trans afterBoth, .placed picks found bounds⟩
  rename_i idle
  split
  · rename_i top focused
    have delivers : deliverableTop? w.hierarchy display (r.newRecord caller.uid info) =
        some top := by
      split at focused
      · contradiction
      · exact focused
    exact ⟨none, first ++ second, makes_deliverToTop (s := s) formed chosen idle delivers,
      (oblivious_deliverToTop s _ _ top).questions_eq.trans afterBoth, .placed picks found bounds⟩
  split
  · rename_i parent _
    exact ⟨none, first ++ second, makes_addTo (s := s) formed,
      (oblivious_addTo s _ _ parent).questions_eq.trans afterBoth, .placed picks found bounds⟩
  · obtain ⟨made, third, makes, afterAll, layout⟩ := staged_startInNewTask (s := s) formed
      (stageRequest r w.hierarchy info .bounds (reusableId? r w.hierarchy caller info)) estimated
    refine ⟨made, first ++ second ++ third, makes, ?_, ?_⟩
    · rw [← List.append_assoc, ← afterBoth]
      exact afterAll
    · cases made with
      | none =>
        rw [layout, List.append_nil]
        exact .placed picks found bounds
      | some task =>
        obtain ⟨laid, layout⟩ := layout
        exact .housed picks found bounds layout

/-- What is to be placed, where the preconditions hold and the policy for background starts lets the
launch pass. -/
def admitted? (host : Host) (caller : Caller) (s : Starter) (w : World) :
    Option (StartRequest × Caller × ActivityInfo) :=
  match checkPreconditions host.environment caller s.request w with
  | (_, _, .error _) => none
  | (r, checked, .ok info) =>
    if passesPolicy host caller s.callerIsRecents info checked then
      let flags := r.effectiveFlags w.hierarchy info
      some ({ r with intent := { r.intent with flags := flags } }, caller, info)
    else none

/-- What a starter is to place: nothing, when it has been used or its request carries file
descriptors. -/
def cleared? (host : Host) (s : Starter) (w : World) :
    Option (StartRequest × Caller × ActivityInfo) :=
  let caller := s.request.resolveCaller (host.environment w.calls)
  let frozen := engageFreeze host.environment caller s w
  if s.progress ≠ .building ∨ s.request.intent.hasFileDescriptors then none
  else admitted? host caller frozen.1 frozen.2

/-- What a start asks the modifiers, and which new task it makes, by what it is cleared for. Without
that it asks nothing. -/
def Consults (chain : List Modifier) (w : World)
    (cleared : Option (StartRequest × Caller × ActivityInfo)) (out : Option NodeId) (w' : World)
    (outcome : Except StartError StartResult) : Prop :=
  match cleared with
  | none => questions w'.calls = questions w.calls
  | some (r, caller, info) =>
    ∃ result made asked, outcome = .ok result ∧ Makes w.hierarchy w'.hierarchy out result made ∧
      questions w'.calls = questions w.calls ++ asked ∧
      Staged chain r caller info w.hierarchy made asked

theorem Consults.after {w₁ w' : World} {cleared : Option (StartRequest × Caller × ActivityInfo)}
    {outcome : Except StartError StartResult}
    (consults : Consults chain w₁ cleared out w' outcome) (still : w₁.hierarchy = w.hierarchy)
    (silent : questions w₁.calls = questions w.calls) :
    Consults chain w cleared out w' outcome := by
  unfold Consults at consults ⊢
  rwa [still, silent] at consults

theorem Consults.before {w₁ w' : World} {cleared : Option (StartRequest × Caller × ActivityInfo)}
    {outcome : Except StartError StartResult}
    (consults : Consults chain w cleared out w₁ outcome) (still : w'.hierarchy = w₁.hierarchy)
    (silent : questions w'.calls = questions w₁.calls) :
    Consults chain w cleared out w' outcome := by
  unfold Consults at consults ⊢
  rwa [still, silent]

theorem consults_decideAndPlace (host : Host) (caller : Caller) (info : ActivityInfo) (s : Starter)
    (formed : w.hierarchy.WellFormed) :
    let ended := decideAndPlace host caller info s w
    let flags := s.request.effectiveFlags w.hierarchy info
    let r := { s.request with intent := { s.request.intent with flags := flags } }
    Consults host.modifiers w
      (if passesPolicy host caller s.callerIsRecents info w then some (r, caller, info) else none)
      ended.1.outActivity ended.2.1 (.ok ended.2.2) := by
  rw [decideAndPlace_eq]
  have still : (logged host caller info s w).hierarchy = w.hierarchy := hierarchy_logged ..
  have silent : questions (logged host caller info s w).calls = questions w.calls :=
    (oblivious_logged host caller info s w).questions_eq
  dsimp only
  generalize logged host caller info s w = w₁ at still silent ⊢
  cases passesPolicy host caller s.callerIsRecents info w with
  | false => exact silent
  | true =>
    rw [← still] at formed ⊢
    obtain ⟨made, asked, makes, questions, staged⟩ := staged_place formed host _ caller info
    refine Consults.after ?_ still silent
    exact ⟨_, made, asked, rfl, makes, questions, staged⟩

theorem consults_admission (host : Host) (caller : Caller) (s : Starter)
    (formed : w.hierarchy.WellFormed) :
    let ended := admission host caller s w
    Consults host.modifiers w (admitted? host caller s w) ended.1.outActivity ended.2.1
      (.ok ended.2.2) := by
  have still : (checkPreconditions host.environment caller s.request w).2.1.hierarchy =
      w.hierarchy := asked_checkPreconditions.hierarchy
  have silent : questions (checkPreconditions host.environment caller s.request w).2.1.calls =
      questions w.calls := (oblivious_checkPreconditions caller s.request w).questions_eq
  unfold admission admitted?
  rcases found : checkPreconditions host.environment caller s.request w with
    ⟨r, checked, result | info⟩ <;> rw [found] at still silent <;> dsimp only at still silent ⊢
  · exact silent
  · rw [← still] at formed ⊢
    exact (consults_decideAndPlace host caller info { s with request := r } formed).after still
      silent

/-- A start asks its questions while it is placed, and places what is cleared. -/
theorem consults_execute (formed : w.hierarchy.WellFormed) (host : Host) (s : Starter) :
    let ended := execute host s w
    Consults host.modifiers w (cleared? host s w) ended.1.outActivity ended.2.1 ended.2.2 := by
  unfold execute cleared?
  dsimp only
  by_cases used : s.progress ≠ .building
  · rw [if_pos used, if_pos (.inl used)]
    exact rfl
  by_cases carries : s.request.intent.hasFileDescriptors
  · rw [if_neg used, if_pos carries, if_pos (.inr carries)]
    exact rfl
  rw [if_neg used, if_neg carries, if_neg (not_or.mpr ⟨used, carries⟩), run_eq]
  dsimp only
  generalize s.request.resolveCaller (host.environment w.calls) = caller
  have begins : questions (engageFreeze host.environment caller s w).2.calls = questions w.calls :=
    (oblivious_engageFreeze caller s w).questions_eq
  have still : (engageFreeze host.environment caller s w).2.hierarchy = w.hierarchy :=
    asked_engageFreeze.hierarchy
  generalize engageFreeze host.environment caller s w = frozen at begins still ⊢
  have admits := (consults_admission host caller frozen.1 (still ▸ formed)).after still begins
  have closes : ∀ (s : Starter) (w : World) (result : StartResult) rootTask,
      questions (post s w s.outActivity result rootTask).2.calls = questions w.calls := by
    intro s w result rootTask
    have posts : Oblivious host.environment (post s · s.outActivity result rootTask) w :=
      oblivious_post ..
    exact posts.questions_eq
  have out : ∀ (s : Starter) (w : World) (result : StartResult) rootTask,
      (post s w s.outActivity result rootTask).1.outActivity = s.outActivity :=
    fun _ _ _ _ => outActivity_post
  rw [out]
  exact admits.before asked_post.hierarchy (closes ..)

end Start
end WindowHost
