import WindowHost.Proofs.Run.Acts
import WindowHost.Proofs.Run.Upshot

/-! Components that run once. A start of such a component looks for the instance that runs and adds
none unless it has cleared the task of that one. A start that is to give a result does not look, so
it may only come while none runs. -/
namespace WindowHost

/-- Only a start changes more than what an activity is doing. -/
theorem sameView_act (w : World) {act : Act} (plain : ∀ host s, act ≠ .start host s) :
    Hierarchy.SameView w.hierarchy (w.act act).hierarchy := by
  cases act with
  | updateContainer locked p k =>
    rw [World.act, Visibility.updateContainer_world (.refl _) k]
    exact Visibility.sameView_carryOut _ w
  | updateDisplay locked p display => exact Visibility.sameView_updateDisplay locked p w display
  | updateAll locked p =>
    rw [World.act, Visibility.updateAll, Visibility.updateEach_world
      (fun _ display same => Visibility.updateDisplay_world same display) (.refl _)]
    exact Visibility.sameView_carryOut _ w
  | resumeFocused display => exact Visibility.sameView_resumeFocused w display
  | start host s => exact absurd rfl (plain host s)

namespace Start
open Hierarchy
variable {w : World} {h h' h₀ : Hierarchy} {given r : StartRequest} {l : Launch} {host : Host}
  {record : ActivityRecord} {info : ActivityInfo} {k place : NodeId} {c : ComponentName}
  {user : UserId}

/-- The component runs at the node for the user, on a display. -/
def IsInstance (h : Hierarchy) (c : ComponentName) (user : UserId) (k : NodeId) : Prop :=
  ∃ a, h.activity? k = some a ∧ a.isRunning = true ∧ a.component = c ∧ a.userId = user ∧
    (h.displayOf? k).isSome = true

/-- The component runs at most once for the user. -/
def Sole (c : ComponentName) (user : UserId) (h : Hierarchy) : Prop :=
  ∀ j k, IsInstance h c user j → IsInstance h c user k → j = k

theorem IsInstance.of_stays (runs : IsInstance h' c user k) (stays : Stays h h' k) :
    IsInstance h c user k := by
  obtain ⟨a', held, runs, component, owner, shown⟩ := runs
  obtain ⟨a, held, same⟩ := stays.exists_tenant a' held
  exact ⟨a, held, same.runs ▸ runs, same.component.symm.trans component,
    same.user.symm.trans owner, same.shown shown⟩

theorem Sole.of_stays (sole : Sole c user h) (stays : ∀ k, Stays h h' k) : Sole c user h' :=
  fun j k first second => sole j k (first.of_stays (stays j)) (second.of_stays (stays k))

/-- A new instance is the only one where there was none. -/
theorem Sole.addActivity (sole : Sole c user h) (formed : h.WellFormed)
    (made : h.addActivity place record .top = .ok (h', k))
    (vacant : record.component = c → record.userId = user → ∀ j, ¬ IsInstance h c user j) :
    Sole c user h' := by
  have known : h'.activity? k = some record := by
    rw [activity?_addActivity made, if_pos rfl]
  have before : ∀ {j}, j ≠ k → IsInstance h' c user j → IsInstance h c user j :=
    fun other runs => runs.of_stays (formed.stays_addActivity made other)
  have new : ∀ {j}, j ≠ k → IsInstance h' c user j → ¬ IsInstance h' c user k := by
    rintro j other first ⟨a, held, _, component, owner, _⟩
    obtain rfl : record = a := Option.some.inj (known.symm.trans held)
    exact vacant component owner j (before other first)
  intro i j first second
  by_cases newI : i = k <;> by_cases newJ : j = k
  · rw [newI, newJ]
  · exact absurd (newI ▸ first) (new newJ second)
  · exact absurd (newJ ▸ second) (new newI first)
  · exact sole i j (before newI first) (before newJ second)

/-- A start that the component may run once through: it names no place for the activity, and where
it may launch the component for the user, the component keeps a task to itself, and the start gives
no result unless nothing runs yet. -/
structure Sparing (c : ComponentName) (user : UserId) (host : Host) (given : StartRequest)
    (h : Hierarchy) : Prop where
  inTask : given.inTask = none
  inFragment : given.inFragment = none
  alone : ∀ info, MayLaunch host given info → info.component = c → info.uid.userId = user →
    info.launchMode = .singleInstance
  resultless : ∀ info, MayLaunch host given info → info.component = c → info.uid.userId = user →
    given.wantsResult h = true → ∀ k, ¬ IsInstance h c user k

theorem reusableTask?_of_singleInstance (alone : record.launchMode = .singleInstance)
    (unnamed : r.namesPlace h = false) (silent : r.wantsResult h = false) :
    reusableTask? r h record =
      (h.findActivity? record.component record.userId).bind h.taskAround? := by
  unfold reusableTask?
  simp [alone, unnamed, silent, LaunchMode.requiresNewTask]

/-- Where the search for an instance comes to no task, nothing runs. -/
theorem not_isInstance_of_idle (formed : h.WellFormed)
    (idle : (h.findActivity? c user).bind h.taskAround? = none) : ¬ IsInstance h c user k := by
  rintro ⟨a, held, runs, rfl, rfl, shown⟩
  obtain ⟨j, found⟩ := formed.exists_findActivity? held runs shown
  obtain ⟨b, held', _⟩ := exists_of_findActivity? found
  obtain ⟨task, around⟩ :=
    formed.exists_taskAround? held' (formed.isSome_displayOf?_of_findActivity? found)
  rw [found, Option.bind_some, around] at idle
  contradiction

/-- Clearing the task of the only instance leaves none. -/
theorem not_isInstance_of_reuses {task : NodeId} (reuses : Reuses r h₀ record l task h)
    (formed : h₀.WellFormed) (alone : record.launchMode = .singleInstance)
    (sole : Sole record.component record.userId h₀)
    (arrived : arrive h l record task = (h', .add)) :
    ¬ IsInstance h' record.component record.userId k := by
  intro runs
  obtain ⟨_, cleared⟩ := reuses.cleared formed (congrArg Prod.fst arrived)
  have before := (runs.of_stays (cleared k)).of_stays (reuses.stays formed k)
  rcases reusableTask?_cases reuses.chosen with ⟨_, j, found, around⟩ | ⟨other, _⟩
  · -- what is left over would be the very instance by which the task was found
    obtain ⟨b, held, fits⟩ := exists_of_findActivity? found
    have shown := formed.isSome_displayOf?_of_findActivity? found
    obtain rfl : k = j := sole k j before ⟨b, held, fits.1, fits.2.1, fits.2.2, shown⟩
    have inside : Inside h k task := (reuses.inside_iff formed (contains_of_activity? held)).mpr
      (formed.forest.inside_of_taskAround? around)
    have gone := reuses.emptied formed alone arrived inside
    obtain ⟨a, held', _⟩ := runs
    rw [isActivity_of_activity? held'] at gone
    contradiction
  · exact other alone

/-- By the time that a sparing start adds an instance, none is left. -/
theorem not_isInstance_of_lodging {uid : Uid} (sparing : Sparing c user host given h₀)
    (admitted : Admitted host given r info h₀) (component : info.component = c)
    (owner : info.uid.userId = user) (formed : h₀.WellFormed) (sole : Sole c user h₀)
    (lodging : Lodging r h₀ (r.newRecord uid info) l place h) : ¬ IsInstance h c user k := by
  have alone := sparing.alone info admitted.launches component owner
  have unnamed : r.namesPlace h₀ = false := by
    simp [StartRequest.namesPlace, StartRequest.inTask?, StartRequest.inFragment?,
      admitted.terms.inTask, admitted.terms.inFragment, sparing.inTask, sparing.inFragment]
  cases asks : given.wantsResult h₀ with
  | true =>
    have vacant := sparing.resultless info admitted.launches component owner asks
    exact fun runs => vacant k (runs.of_stays (lodging.stays formed k))
  | false =>
    have search : reusableTask? r h₀ (r.newRecord uid info) =
        (h₀.findActivity? c user).bind h₀.taskAround? := by
      rw [← component, ← owner]
      exact reusableTask?_of_singleInstance alone unnamed
        ((admitted.terms.wantsResult h₀).trans asks)
    have vacant := fun idle : reusableTask? r h₀ (r.newRecord uid info) = none =>
      not_isInstance_of_idle (k := k) formed (search.symm.trans idle)
    have stays := lodging.stays formed k
    cases lodging with
    | reused reuses arrived =>
      subst component owner
      exact not_isInstance_of_reuses reuses formed alone sole arrived
    | existing idle found => exact vacant idle
    | made idle => exact fun runs => vacant idle (runs.of_stays stays)

theorem sole_execute (reached : Reachable w.hierarchy) (sole : Sole c user w.hierarchy)
    (s : Starter) (sparing : Sparing c user host s.request w.hierarchy) :
    Sole c user (execute host s w).2.1.hierarchy := by
  cases upshot_execute reached host s with
  | still stays => exact sole.of_stays stays
  | added admitted chosen lodging made later =>
    have formed := reached.wellFormed
    have before := sole.of_stays (lodging.stays formed)
    refine (before.addActivity (lodging.wellFormed formed) made ?_).of_stays later
    intro component owner j
    exact not_isInstance_of_lodging sparing admitted component owner formed sole lodging

theorem sole_act (reached : Reachable w.hierarchy) (sole : Sole c user w.hierarchy) {act : Act}
    (sparing : ∀ host s, act = .start host s → Sparing c user host s.request w.hierarchy) :
    Sole c user (w.act act).hierarchy := by
  by_cases starts : ∃ host s, act = .start host s
  · obtain ⟨host, s, rfl⟩ := starts
    exact sole_execute reached sole s (sparing host s rfl)
  · have same := sameView_act w fun host s is => starts ⟨host, s, is⟩
    exact sole.of_stays same.stays

/-- However long a run of sparing starts is, the component never runs twice. -/
theorem sole_afterActs (reached : Reachable w.hierarchy) (sole : Sole c user w.hierarchy)
    (acts : List Act) (sparing : ∀ i host s, acts[i]? = some (.start host s) →
      Sparing c user host s.request (w.afterActs (acts.take i)).hierarchy) (i : Nat) :
    Sole c user (w.afterActs (acts.take i)).hierarchy := by
  induction i with
  | zero => exact sole
  | succ i ih =>
    cases next : acts[i]? with
    | none => rwa [List.take_add_one, next, Option.toList_none, List.append_nil]
    | some act =>
      rw [List.take_add_one, next, Option.toList_some, World.afterActs, List.foldl_append]
      have steps : Steps true w (w.afterActs (acts.take i)) :=
        steps_afterActs _ (fun _ _ _ => rfl) w
      refine sole_act (steps.reached reached) ih fun host s is => ?_
      exact sparing i host s (next.trans (congrArg some is))

/-- A dialer in a task of its own. -/
def dialerAlone : Hierarchy :=
  ([.addDisplay ⟨0⟩ ⟨0, 0, 1920, 1080⟩, .createTask ⟨2⟩ { affinity := some "phone" } .top,
    .addActivity ⟨3⟩ (.create { component := ⟨"phone", "Dialer"⟩, uid := ⟨10010⟩ } {}) .top] :
    List Mutation).foldl mutate empty

def callInfo : ActivityInfo :=
  { component := ⟨"phone", "Call"⟩, uid := ⟨10010⟩, launchMode := .singleInstance }

/-- The dialer asks for a call, and for its result if there is a code. -/
def callRequest (code : Option Int32) : StartRequest :=
  { intent := .ofComponent callInfo.component, info := some callInfo, resultTo := some ⟨4⟩,
    requestCode := code }

def callAct (code : Option Int32) : Act :=
  .start { environment := fun _ => {} } { request := callRequest code }

theorem eq_callInfo_of_mayLaunch {code : Option Int32}
    (may : MayLaunch host (callRequest code) info) : info = callInfo := by
  obtain ⟨⟨⟩⟩ | ⟨⟨⟩, _⟩ := may
  rfl

theorem reachable_dialerAlone : Reachable dialerAlone := Reachable.empty.foldl_mutate _

theorem not_isInstance_dialerAlone (k : NodeId) :
    ¬ IsInstance dialerAlone callInfo.component callInfo.uid.userId k := by
  rintro ⟨a, held, _, component, _⟩
  have other : ∀ k a, dialerAlone.activity? k = some a → a.component ≠ callInfo.component :=
    forall_activity_of_lt_next (by decide +kernel)
  exact other k a held component

theorem isInstance_of_any (runs : (h.activity? k).any (fun a => a.isRunning &&
      a.component == c && a.userId == user) = true)
    (shown : (h.displayOf? k).isSome = true) : IsInstance h c user k := by
  obtain ⟨a, held, fits⟩ := (Option.any_eq_true ..).mp runs
  rw [Bool.and_eq_true, Bool.and_eq_true, beq_iff_eq, beq_iff_eq] at fits
  exact ⟨a, held, fits.1.1, fits.1.2, fits.2, shown⟩

/-- A call that is to give a result comes first, and the next one goes to it. -/
theorem sole_afterActs_of_calls :
    let run := [callAct (some 1), callAct none]
    let w : World := { hierarchy := dialerAlone }
    IsInstance (w.afterActs run).hierarchy callInfo.component callInfo.uid.userId ⟨7⟩ ∧
      ∀ i, Sole callInfo.component callInfo.uid.userId (w.afterActs (run.take i)).hierarchy := by
  intro run w
  have sole : Sole callInfo.component callInfo.uid.userId w.hierarchy :=
    fun j _ runs => absurd runs (not_isInstance_dialerAlone j)
  refine ⟨isInstance_of_any (by decide +kernel) (by decide +kernel),
    sole_afterActs reachable_dialerAlone sole run ?_⟩
  have sparing : ∀ (code : Option Int32) (h : Hierarchy),
      (code = none ∨ ∀ k, ¬ IsInstance h callInfo.component callInfo.uid.userId k) →
        ∀ host s, callAct code = .start host s →
          Sparing callInfo.component callInfo.uid.userId host s.request h := by
    rintro code h free _ _ ⟨⟩
    refine ⟨rfl, rfl, fun _ may _ _ => eq_callInfo_of_mayLaunch may ▸ rfl, fun _ _ _ _ asks => ?_⟩
    rcases free with rfl | vacant
    · simp [callRequest, StartRequest.wantsResult] at asks
    · exact vacant
  intro i host s next
  rcases i with _ | _ | i
  · exact sparing (some 1) _ (.inr not_isInstance_dialerAlone) host s (Option.some.inj next)
  · exact sparing none _ (.inl rfl) host s (Option.some.inj next)
  · simp [run] at next

/-- A call that is to give a result does not look for the one that runs. -/
theorem not_sole_of_calls :
    let run := [callAct none, callAct (some 1)]
    let w : World := { hierarchy := dialerAlone }
    Reachable w.hierarchy ∧ (∀ (i : Nat) host s, run[i]? = some (Act.start host s) →
        s.request.inTask = none ∧ s.request.inFragment = none ∧
          ∀ info, MayLaunch host s.request info → info.launchMode = .singleInstance) ∧
      Sole callInfo.component callInfo.uid.userId w.hierarchy ∧
      ¬ Sole callInfo.component callInfo.uid.userId (w.afterActs run).hierarchy := by
  intro run w
  refine ⟨reachable_dialerAlone, fun i host s next => ?_,
    fun j _ runs => absurd runs (not_isInstance_dialerAlone j), fun sole => ?_⟩
  · obtain ⟨code, is⟩ : ∃ code, callAct code = .start host s := by
      rcases i with _ | _ | i
      · exact ⟨none, Option.some.inj next⟩
      · exact ⟨some 1, Option.some.inj next⟩
      · simp [run] at next
    cases is
    exact ⟨rfl, rfl, fun _ may => eq_callInfo_of_mayLaunch may ▸ rfl⟩
  · have same := sole ⟨7⟩ ⟨9⟩ (isInstance_of_any (by decide +kernel) (by decide +kernel))
      (isInstance_of_any (by decide +kernel) (by decide +kernel))
    exact absurd same (by decide)

end Start
end WindowHost
