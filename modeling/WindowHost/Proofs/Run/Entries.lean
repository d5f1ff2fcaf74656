import WindowHost.Proofs.Run.Starts
import WindowHost.Proofs.Visibility.News

/-! What a start enters in the books that are kept outside the host: the list of recent tasks with
its freeze, and the reports of launches. Between the freeze and the report of a start nothing is
entered, wherever the launch goes. -/
namespace WindowHost
variable {w w' w'' : World} {call : Call} {entries more later : List Call}

/-- The call makes an entry, where others ask something, or have a client do something. -/
def Call.isEntry : Call → Bool
  | .addRecent _ | .freezeRecents | .resetRecentsFreeze | .launched _ | .restart _ => true
  | _ => false

/-- Between the two worlds these entries are made, in this order. -/
def Enters (w w' : World) (entries : List Call) : Prop :=
  ∃ later, w'.calls = w.calls ++ later ∧ later.filter Call.isEntry = entries

namespace Enters

theorem of_calls (same : w'.calls = w.calls) : Enters w w' [] :=
  ⟨[], by rw [same, List.append_nil], rfl⟩

theorem refl (w : World) : Enters w w [] := of_calls rfl

theorem of_forall (made : w'.calls = w.calls ++ later)
    (plain : ∀ call ∈ later, call.isEntry = false) : Enters w w' [] :=
  ⟨later, made, List.filter_eq_nil_iff.mpr fun call member => by simp [plain call member]⟩

theorem of_append (made : w'.calls = w.calls ++ later)
    (entered : ∀ call ∈ later, call.isEntry = true) : Enters w w' later :=
  ⟨later, made, List.filter_eq_self.mpr entered⟩

theorem trans (first : Enters w w' entries) (second : Enters w' w'' more) :
    Enters w w'' (entries ++ more) := by
  obtain ⟨before, made, rfl⟩ := first
  obtain ⟨after, further, rfl⟩ := second
  exact ⟨before ++ after, by rw [further, made, List.append_assoc], List.filter_append ..⟩

theorem after (second : Enters w' w'' entries) (first : Enters w w' []) :
    Enters w w'' entries :=
  first.trans second

end Enters

theorem Inquired.enters (inquired : Inquired w w') : Enters w w' [] := by
  obtain ⟨later, rfl, questions⟩ := inquired
  refine .of_forall rfl fun call member => ?_
  have question := questions call member
  cases call <;> simp_all [Call.isQuestion, Call.isEntry]

def Call.launched? : Call → Option Launched
  | .launched report => some report
  | _ => none

def Call.restart? : Call → Option RestartAttempt
  | .restart attempt => some attempt
  | _ => none

def Call.recent? : Call → Option TaskId
  | .addRecent task => some task
  | _ => none

/-- The entries of one start in their order. -/
def entriesOf (freezes lifts : Bool) (attempts : List RestartAttempt) (recents : List TaskId)
    (report : Launched) : List Call :=
  (if freezes then [.freezeRecents] else []) ++
    ((if lifts then [.resetRecentsFreeze] else []) ++
      (attempts.map .restart ++ (recents.map .addRecent ++ [.launched report])))

section
variable {later : List Call} {freezes lifts : Bool} {attempts : List RestartAttempt}
  {recents : List TaskId} {report : Launched}
  (made : later.filter Call.isEntry = entriesOf freezes lifts attempts recents report)
include made

/-- What is no matter of the freeze is found among the other entries. -/
theorem filterMap_of_entries {α : Type} {f : Call → Option α}
    (plain : ∀ call, call.isEntry = false → f call = none) (freeze : f .freezeRecents = none)
    (lift : f .resetRecentsFreeze = none) : later.filterMap f =
      (attempts.map Call.restart ++
        (recents.map Call.addRecent ++ [Call.launched report])).filterMap f := by
  have among : later.filterMap f = (later.filter Call.isEntry).filterMap f := by
    rw [List.filterMap_filter]
    congr 1
    funext call
    split
    · rfl
    · exact plain call (Bool.eq_false_iff.mpr ‹_›)
  rw [among, made]
  cases freezes <;> cases lifts <;> simp [entriesOf, List.filterMap_cons, freeze, lift]

theorem launched?_of_entries : later.filterMap Call.launched? = [report] := by
  rw [filterMap_of_entries made (fun call => by cases call <;> simp [Call.isEntry, Call.launched?])
    rfl rfl]
  simp [Call.launched?, List.filterMap_map, Function.comp_def]

theorem restart?_of_entries : later.filterMap Call.restart? = attempts := by
  rw [filterMap_of_entries made (fun call => by cases call <;> simp [Call.isEntry, Call.restart?])
    rfl rfl]
  simp [Call.restart?, List.filterMap_map, List.filterMap_cons, Function.comp_def]

theorem recent?_of_entries : later.filterMap Call.recent? = recents := by
  rw [filterMap_of_entries made (fun call => by cases call <;> simp [Call.isEntry, Call.recent?])
    rfl rfl]
  simp [Call.recent?, List.filterMap_map, List.filterMap_cons, Function.comp_def]

theorem count_freezeRecents_of_entries :
    later.count .freezeRecents = if freezes then 1 else 0 := by
  rw [← List.count_filter (p := Call.isEntry) rfl, made]
  cases freezes <;> cases lifts <;> simp [entriesOf, List.count_eq_zero]

theorem count_resetRecentsFreeze_of_entries :
    later.count .resetRecentsFreeze = if lifts then 1 else 0 := by
  rw [← List.count_filter (p := Call.isEntry) rfl, made]
  cases freezes <;> cases lifts <;> simp [entriesOf, List.count_eq_zero]

end

/-- Whatever becomes of an activity, clients alone hear of it. -/
theorem Touch.isEntry_of_mem {silent : Bool} {k : NodeId} {r s : ActivityRecord}
    {calls : List Call} (touch : Touch silent k r s calls) (made : call ∈ calls) :
    call.isEntry = false := by
  cases touch <;> simp_all [Call.isEntry]
  rcases made with rfl | rfl <;> rfl

theorem Touches.isEntry_of_mem {silent : Bool} {k : NodeId} {r s : ActivityRecord}
    {calls : List Call} (touches : Touches silent k r s calls) (made : call ∈ calls) :
    call.isEntry = false := by
  induction touches with
  | refl => contradiction
  | tail _ last ih => exact (List.mem_append.mp made).elim ih last.isEntry_of_mem

theorem Touches.enters {silent : Bool} {k : NodeId} {r s : ActivityRecord} {calls : List Call}
    (touches : Touches silent k r s calls) (w : World) : Enters w (w.put k s calls) [] :=
  .of_forall rfl fun _ made => touches.isEntry_of_mem made

namespace Visibility
variable {k display : NodeId} {r : ActivityRecord}

theorem enters_updateDisplay (locked : DisplayId → Bool) (p : VisibilityParams) (w : World)
    (display : NodeId) : Enters w (updateDisplay locked p w display).1 [] := by
  have plain : ∀ (v : Verdict) r, ∀ call ∈ (v.turn p r).calls, call.isEntry = false := by
    intro v r call made
    have touches : Touches true v.activity r (v.turn p r).record (v.turn p r).calls :=
      touches_turn fun _ => rfl
    exact touches.isEntry_of_mem made
  rw [updateDisplay_world (.refl _) display]
  obtain ⟨later, made, plain⟩ := forall_calls_of_forall_turn plain _ w
  exact .of_forall made plain

theorem enters_foldl_yieldFocus (ks : List NodeId) (w : World) :
    Enters w (ks.foldl yieldFocus w) [] := by
  induction ks generalizing w with
  | nil => exact .refl w
  | cons k ks ih =>
    refine (ih _).after ?_
    cases held : w.hierarchy.activity? k with
    | none =>
      rw [yieldFocus_of_absent held]
      exact .refl w
    | some r =>
      have touches : Touches false k r _ _ := touches_yieldFocus
      rw [yieldFocus_eq_put held]
      exact touches.enters w

theorem enters_resumeFocused (w : World) (display : NodeId) :
    Enters w (resumeFocused w display).1 [] := by
  cases focus : focusOf? w.hierarchy display with
  | none =>
    rw [resumeFocused_of_none focus]
    exact .refl w
  | some top =>
    obtain ⟨r, held, runs⟩ := isRunning_of_focusOf? focus
    rw [resumeFocused_of_some focus held]
    have yielded := enters_foldl_yieldFocus (rivals w.hierarchy display top) w
    split
    · rename_i wanted
      have touches : Touches false top r _ _ := touches_takeFocus runs wanted
      exact (touches.enters _).after yielded
    · exact yielded

end Visibility

namespace Start
open Hierarchy Visibility
variable {env : Environment} {s t : Flight} {l : Launch} {record : ActivityRecord}
  {chain : List Modifier} {task root : NodeId} {h : Hierarchy} {out : Option NodeId}
  {result : StartResult}

theorem enters_propagate (env : Environment) (w : World) (display : NodeId)
    (starting : Option NodeId) : Enters w (propagate env w display starting) [] := by
  rw [propagate_eq]
  exact (enters_resumeFocused _ display).after (enters_updateDisplay ..)

theorem enters_deliver (w : World) (k : NodeId) (intent : Intent)
    (cookie : Option LaunchCookie) : Enters w (deliver w k intent cookie) [] := by
  rcases deliver_eq_or w k intent cookie with same | ⟨a, _, same⟩ <;> rw [same]
  · exact .refl w
  · exact .of_forall rfl (by simp [Call.isEntry])

theorem enters_leaveCookie (w : World) (cookie : Option LaunchCookie) (top : Option NodeId) :
    Enters w (leaveCookie w cookie top) [] := by
  cases top <;> exact .of_calls rfl

theorem enters_refineLayout (s : Flight) (chain : List Modifier) (request : LayoutRequest)
    (current : LaunchParams) :
    Enters s.world (s.refineLayout chain request current).1.world [] := by
  refine .of_forall rfl fun call member => ?_
  obtain ⟨_, _, rfl⟩ := List.mem_map.mp member
  rfl

/-- The flights differ in the nodes that were found, made or moved, and in nothing else. -/
structure SameNotes (s t : Flight) : Prop where
  calls : t.world.calls = s.world.calls
  taskWasVisible : t.taskWasVisible = s.taskWasVisible

theorem sameNotes_of_rooted (rooted : SameOrRooted s t) : SameNotes s t := by
  obtain rfl | ⟨_, _, _, _, _, isNew, _, rfl⟩ := rooted
  · exact ⟨rfl, rfl⟩
  · cases isNew <;> exact ⟨rfl, rfl⟩

theorem sameNotes_bringForward {moved : Option Bool}
    (brought : bringForward s l task root = (t, moved)) : SameNotes s t := by
  have rooted : ∀ {u target taskDisplay place},
      destination s l root target taskDisplay = some (u, place) → SameNotes s u :=
    fun found => sameNotes_of_rooted (sameOrRooted_destination found)
  cases brought_bringForward brought with
  | still => exact ⟨rfl, rfl⟩
  | raised found => exact ⟨(rooted found).calls, (rooted found).taskWasVisible⟩
  | refused found => exact rooted found
  | moved found into =>
    obtain ⟨calls, seen⟩ := rooted found
    unfold moveInto at into
    dsimp only at into
    split at into
    · cases into
      exact ⟨calls, seen⟩
    split at into
    · contradiction
    · cases into
      exact ⟨calls, seen⟩

theorem enters_addTo (s : Flight) (parent : NodeId) :
    Enters s.world (addTo env s l record parent).1.world [] := by
  unfold addTo
  split
  · exact .of_calls rfl
  · dsimp only
    refine (enters_propagate ..).after (.of_calls ?_)
    split <;> rfl

theorem enters_startInNewTask (s : Flight) (r : StartRequest) (request : LayoutRequest)
    (layout : LaunchParams) :
    Enters s.world (startInNewTask env chain s l r record request layout).1.world [] := by
  unfold startInNewTask
  split
  · exact .of_calls rfl
  rename_i rooted root found
  have rooted' : Enters s.world rooted.world [] :=
    .of_calls (sameNotes_of_rooted (sameOrRooted_launchRoot found)).calls
  dsimp only
  split
  · exact rooted'
  rename_i h task made
  have laid : ∀ request, Enters s.world
      ((rooted.withNew h task).refineLayout chain request layout).1.world [] :=
    fun request => (enters_refineLayout (rooted.withNew h task) ..).after rooted'
  split
  · exact laid _
  · exact (enters_addTo _ task).after (laid _)

theorem enters_deliverToTop (s : Flight) (top : NodeId) :
    Enters s.world (deliverToTop env s l record top).1.world [] := by
  unfold deliverToTop
  dsimp only
  exact (enters_propagate ..).after (enters_deliver ..)

theorem enters_recycle (s : Flight) (task : NodeId) :
    Enters s.world (recycle env s l record task).1.world [] := by
  unfold recycle
  split
  · exact .of_calls rfl
  let seen : Flight := { s with taskWasVisible := some (hasVisibleActivity s.hierarchy task) }
  dsimp only
  split
  · rename_i refused
    exact .of_calls (sameNotes_bringForward (s := seen) refused).calls
  rename_i t moved brought
  have brought : Enters s.world t.world [] :=
    .of_calls (sameNotes_bringForward (s := seen) brought).calls
  cases arrive t.hierarchy l record task with | mk h arrival => ?_
  have cleared : Enters s.world { t.world with hierarchy := h } [] := brought
  cases arrival with
  | add =>
    dsimp only
    split
    · exact cleared
    · rename_i grown k made
      have grown : Enters s.world { t.world with hierarchy := grown } [] := cleared
      dsimp only
      refine (enters_propagate ..).after ?_
      split <;> exact grown
  | deliver k =>
    dsimp only [Flight.withHierarchy]
    exact (enters_propagate ..).after ((enters_deliver ..).after cleared)
  | keep =>
    dsimp only [Flight.withHierarchy]
    exact (enters_propagate ..).after ((enters_leaveCookie ..).after cleared)

theorem enters_place (host : Host) (r : StartRequest) (caller : Caller) (info : ActivityInfo)
    (w : World) : Enters w (place host r caller info w).1.world [] := by
  have refined : ∀ first params second params', Enters w
      ((({ world := w } : Flight).refineLayout host.modifiers first params).1.refineLayout
        host.modifiers second params').1.world [] := fun first params second params' =>
    (enters_refineLayout _ host.modifiers second params').after
      (enters_refineLayout { world := w } host.modifiers first params)
  unfold place
  dsimp only
  split
  · exact enters_refineLayout { world := w } ..
  split
  · exact (enters_recycle ..).after (refined ..)
  split
  · exact (enters_deliverToTop ..).after (refined ..)
  split
  · exact (enters_addTo ..).after (refined ..)
  · exact (enters_startInNewTask ..).after (refined ..)

section
variable {host : Host} {caller : Caller} {info : ActivityInfo} {s : Starter}

/-- The intent has gone to an activity that was there, or a task has come to the front as it is. -/
abbrev Settles (result : StartResult) : Prop := result = .taskToFront ∨ result = .deliveredToTop

/-- The recents application asks for the start. -/
def fromRecents (host : Host) (given : StartRequest) (w : World) : Bool :=
  let answers := host.environment w.calls
  answers.isCallerRecents (given.resolveCaller answers).uid

/-- The start freezes the recent tasks. -/
def freezes (host : Host) (given : StartRequest) (w : World) : Bool :=
  given.wantsFreeze && fromRecents host given w && !(host.environment w.calls).recentsFrozen

theorem engageFreeze_eq (host : Host) (s : Starter) (w : World) :
    engageFreeze host.environment (s.request.resolveCaller (host.environment w.calls)) s w =
      if freezes host s.request w then
        ({ s with callerIsRecents := fromRecents host s.request w, froze := true },
          w.emit .freezeRecents)
      else ({ s with callerIsRecents := fromRecents host s.request w }, w) :=
  rfl

theorem enters_decideAndPlace :
    Enters w (decideAndPlace host caller info s w).2.1 [] := by
  unfold decideAndPlace
  dsimp only
  generalize same : (if host.options.logsStarts = true then w.emit _ else w) = logged
  have logs : Enters w logged [] := by
    rw [← same]
    split
    · exact .of_forall rfl (by simp [Call.isEntry])
    · exact .refl w
  split
  · exact logs
  · exact (enters_place ..).after logs

theorem enters_admission : Enters w (admission host caller s w).2.1 [] := by
  have asked : Enters w (checkPreconditions host.environment caller s.request w).2.1 [] :=
    inquired_checkPreconditions.enters
  unfold admission
  split <;> rename_i known <;> rw [known] at asked
  · exact asked
  · exact enters_decideAndPlace.after asked

end

/-- The number of the task around an activity. -/
def taskIdAround? (h : Hierarchy) (out : Option NodeId) : Option TaskId :=
  ((out.bind h.taskAround?).bind h.task?).map Task.id

/-- The report of a restart names the task around the activity, if there is one. -/
theorem enters_reportRestart (s : Starter) (w : World) (out rootTask : Option NodeId) :
    ∃ attempts : List RestartAttempt,
      Enters w (reportRestart s w (out.bind w.hierarchy.taskAround?) rootTask)
        (attempts.map .restart) ∧
      attempts.map (·.task) = (taskIdAround? w.hierarchy out).toList ∧
      ∀ attempt ∈ attempts, ∀ seen, s.taskWasVisible = some seen →
        attempt.wasVisible = seen := by
  unfold reportRestart taskIdAround?
  dsimp only
  split
  · rename_i task id around known
    rw [known]
    refine ⟨[_], .of_append rfl (by simp [Call.isEntry]), rfl, ?_⟩
    simp +contextual
  · rename_i missing
    refine ⟨[], .refl w, ?_, by simp⟩
    cases around : out.bind w.hierarchy.taskAround? with
    | none => rfl
    | some task =>
      cases known : (w.hierarchy.task? task).map Task.id with
      | none => simp [known]
      | some id => exact absurd known (by simpa [around] using missing task id)

/-- What the report of a start reads in the starter, beside the outcome. -/
structure SameReport (s t : Starter) : Prop where
  callerIsRecents : t.callerIsRecents = s.callerIsRecents
  wantsFreeze : t.request.wantsFreeze = s.request.wantsFreeze
  taskWasVisible : t.taskWasVisible = s.taskWasVisible

theorem sameReport_abort (s : Starter) : SameReport s s.abort := by
  unfold Starter.abort
  split
  · rename_i options known
    split
    · exact ⟨rfl, by simp [StartRequest.wantsFreeze, known], rfl⟩
    · exact ⟨rfl, rfl, rfl⟩
  · exact ⟨rfl, rfl, rfl⟩

/-- A failed start lifts its freeze, and the rest of its report goes on as it would. -/
theorem enters_release (s : Starter) (w : World) (result : StartResult) :
    let released := if result.isSuccessful then (s, w) else releaseFailed s w
    Enters w released.2
        (if s.froze && !result.isSuccessful then [.resetRecentsFreeze] else []) ∧
      released.2.hierarchy = w.hierarchy ∧ SameReport s released.1 := by
  cases result.isSuccessful with
  | true =>
    rw [if_pos rfl, Bool.not_true, Bool.and_false, if_neg Bool.false_ne_true]
    exact ⟨.refl w, rfl, rfl, rfl, rfl⟩
  | false =>
    rw [if_neg Bool.false_ne_true, Bool.not_false, Bool.and_true]
    have same : SameReport s (releaseFailed s w).1 :=
      have aborted := sameReport_abort { s with froze := false }
      ⟨aborted.callerIsRecents, aborted.wantsFreeze, aborted.taskWasVisible⟩
    unfold releaseFailed at same ⊢
    dsimp only at same ⊢
    split
    · exact ⟨.of_append rfl (by simp [Call.isEntry]), rfl, same⟩
    · exact ⟨.refl w, rfl, same⟩

theorem enters_recent (w : World) (task : Option Task) (counts : Prop) [Decidable counts] :
    Enters w
      (if counts then
        match task with
        | some t => w.emit (.addRecent t.id)
        | none => w
      else w)
      ((if counts then (task.map Task.id).toList else []).map .addRecent) := by
  split
  · cases task with
    | none => exact .refl w
    | some t => exact .of_append rfl (by simp [Call.isEntry])
  · exact .refl w

/-- The reports of a start, by what was seen of its task before it, and by the activity that it ends
at. -/
structure Reports (seen : Option Bool) (h : Hierarchy) (out : Option NodeId) (result : StartResult)
    (attempts : List RestartAttempt) (report : Launched) : Prop where
  tasks : attempts.map (·.task) = if Settles result then (taskIdAround? h out).toList else []
  visible : ∀ attempt ∈ attempts, ∀ shown, seen = some shown → attempt.wasVisible = shown
  ended : report.result = result
  created : report.newActivityCreated = (result == .success)
  about : report.activity = out

/-- The entries at the end of a start: the freeze of a failed start is lifted, a restart is told,
the task becomes a recent one, and the launch is reported. -/
theorem enters_post (s : Starter) (w : World) (out : Option NodeId) (result : StartResult)
    (rootTask : Option NodeId) : ∃ attempts report,
      Enters w (post s w out result rootTask).2
        (entriesOf false (s.froze && !result.isSuccessful) attempts
          (if (result = .success ∨ result = .taskToFront) ∧ !s.callerIsRecents ∧
              !s.request.wantsFreeze
            then (taskIdAround? w.hierarchy out).toList else []) report) ∧
        Reports s.taskWasVisible w.hierarchy out result attempts report := by
  obtain ⟨release, still, same⟩ := enters_release s w result
  unfold post
  dsimp only at release still same ⊢
  generalize (if result.isSuccessful then (s, w) else releaseFailed s w) = released
    at release still same ⊢
  obtain ⟨s', w'⟩ := released
  dsimp only at release still same ⊢
  rw [← still, ← same.callerIsRecents, ← same.wantsFreeze, ← same.taskWasVisible]
  have told : ∃ attempts : List RestartAttempt,
      Enters w' (if Settles result then
        reportRestart s' w' (out.bind w'.hierarchy.taskAround?) rootTask else w')
        (attempts.map .restart) ∧
      (attempts.map (·.task) = if Settles result
        then (taskIdAround? w'.hierarchy out).toList else []) ∧
      ∀ attempt ∈ attempts, ∀ shown, s'.taskWasVisible = some shown →
        attempt.wasVisible = shown := by
    split
    · exact enters_reportRestart s' w' out rootTask
    · exact ⟨[], .refl w', rfl, by simp⟩
  obtain ⟨attempts, told, named, seen⟩ := told
  have reported : ∀ (w : World) report, Enters w (w.emit (.launched report)) [.launched report] :=
    fun w report => .of_append rfl (by simp [Call.isEntry])
  exact ⟨attempts, _, release.trans (told.trans ((enters_recent ..).trans (reported ..))), named,
    seen, rfl, rfl, rfl⟩

/-- The report changes nothing that it reads. -/
theorem post_keeps (s : Starter) (w : World) (out : Option NodeId) (result : StartResult)
    (rootTask : Option NodeId) :
    let settled := post s w out result rootTask
    settled.1.request.info = s.request.info ∧ settled.1.outActivity = s.outActivity ∧
      settled.1.taskWasVisible = s.taskWasVisible ∧ settled.2.hierarchy = w.hierarchy :=
  ⟨info_post, outActivity_post, (enters_release s w result).2.2.taskWasVisible,
    asked_post.hierarchy⟩

theorem engageFreeze_spec (host : Host) (s : Starter) (w : World) :
    let frozen :=
      engageFreeze host.environment (s.request.resolveCaller (host.environment w.calls)) s w
    Enters w frozen.2 (if freezes host s.request w then [.freezeRecents] else []) ∧
      frozen.2.hierarchy = w.hierarchy ∧ frozen.1.request = s.request ∧
        frozen.1.froze = (freezes host s.request w || s.froze) ∧
          frozen.1.callerIsRecents = fromRecents host s.request w := by
  rw [engageFreeze_eq]
  cases freezes host s.request w with
  | true => exact ⟨.of_append rfl (by simp [Call.isEntry]), rfl, rfl, rfl, rfl⟩
  | false => exact ⟨.refl w, rfl, rfl, rfl, rfl⟩

/-- All that a start enters. -/
theorem enters_run (host : Host) (given : StartRequest) (w : World) :
    let ended := run host { request := given } w
    ∃ attempts report,
      Enters w ended.2.1
        (entriesOf (freezes host given w) (freezes host given w && !ended.2.2.isSuccessful) attempts
          (if (ended.2.2 = .success ∨ ended.2.2 = .taskToFront) ∧ !fromRecents host given w ∧
              !given.wantsFreeze
            then (taskIdAround? ended.2.1.hierarchy ended.1.outActivity).toList else []) report) ∧
        Reports ended.1.taskWasVisible ended.2.1.hierarchy ended.1.outActivity ended.2.2 attempts
          report := by
  rw [run_eq]
  obtain ⟨freeze, _, kept, froze, asks⟩ := engageFreeze_spec host { request := given } w
  dsimp only at freeze kept froze asks ⊢
  generalize given.resolveCaller (host.environment w.calls) = caller at *
  generalize engageFreeze host.environment caller { request := given } w = frozen at *
  have quiet : Enters frozen.2 (admission host caller frozen.1 frozen.2).2.1 [] := enters_admission
  have books : SameBooks frozen.1 (admission host caller frozen.1 frozen.2).1 :=
    sameBooks_admission
  generalize admission host caller frozen.1 frozen.2 = ended at *
  obtain ⟨s, u, result⟩ := ended
  dsimp only at *
  have froze : s.froze = freezes host given w := by rw [books.froze, froze, Bool.or_false]
  have asks : s.callerIsRecents = fromRecents host given w := books.callerIsRecents.trans asks
  have wants : s.request.wantsFreeze = given.wantsFreeze := by
    rw [StartRequest.wantsFreeze, books.options, kept, StartRequest.wantsFreeze]
  obtain ⟨attempts, report, closing, reports⟩ :=
    enters_post s u s.outActivity result (s.outActivity.bind u.hierarchy.rootTaskOf?)
  obtain ⟨_, out, seen, nodes⟩ :=
    post_keeps s u s.outActivity result (s.outActivity.bind u.hierarchy.rootTaskOf?)
  rw [froze, asks, wants] at closing
  rw [out, seen, nodes]
  exact ⟨attempts, report, freeze.trans (quiet.trans closing), reports⟩

end Start
end WindowHost
