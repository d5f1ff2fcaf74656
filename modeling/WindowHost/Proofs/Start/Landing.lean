import WindowHost.Proofs.Start.Confinement
import WindowHost.Proofs.Start.Refusal

/-! How a launch comes to its end, whatever its request. It approaches its place by steps that add
no activity, and then adds one, or hands the intent to one, or leaves a task as it is, or fails. -/
namespace WindowHost
open Hierarchy
variable {w w' : World} {s t : Flight} {k task : NodeId}

/-- One thing that a launch may do on the way to its place. -/
inductive Approach : World → World → Prop where
  | ask {w w' : World} (asked : Asked w w') : Approach w w'
  | root {w : World} {h : Hierarchy} {area root : NodeId} {mode : WindowingMode}
      {type : ActivityType} {isNew : Bool}
      (found : w.hierarchy.getOrCreateRootTask area mode type = .ok (h, root, isNew)) :
      Approach w { w with hierarchy := h }
  | task {w : World} {h : Hierarchy} {root task : NodeId} {spec : TaskSpec} {position : Position}
      (made : w.hierarchy.createTask root spec position = .ok (h, task)) :
      Approach w { w with hierarchy := h }
  | bounds {w : World} (task : NodeId) (layout : LaunchParams) :
      Approach w { w with hierarchy := Start.applyBounds w.hierarchy task layout }
  | raise {w : World} {task : NodeId} (live : w.hierarchy.isTask task = true) :
      Approach w { w with hierarchy := (w.hierarchy.moveTaskToFront task).1 }
  | move {w : World} {h : Hierarchy} {task place : NodeId}
      (live : w.hierarchy.isTask task = true)
      (moved : w.hierarchy.reparent task place .top = .ok h) :
      Approach w { w with hierarchy := h }
  | clear {w : World} {ks : List NodeId} (leaves : ∀ k ∈ ks, w.hierarchy.isActivity k = true) :
      Approach w { w with hierarchy := ks.foldl Hierarchy.remove w.hierarchy }

abbrev Approaches : World → World → Prop := Relation.ReflTransGen Approach

/-- The choices of a launch are those of its request. -/
def Launch.Of (r : StartRequest) (h : Hierarchy) (l : Launch) : Prop :=
  ∃ layout display, Start.launchDisplay? r h layout = some display ∧
    l = Start.launch r h layout display

/-- The launch reuses a task, which has come to the front as far as it is to. -/
structure Reuses (r : StartRequest) (h₀ : Hierarchy) (record : ActivityRecord) (l : Launch)
    (task : NodeId) (h : Hierarchy) : Prop where
  chosen : Start.reusableTask? r h₀ record = some task
  exists_brought : ∃ (s t : Flight) (root : NodeId) (moved : Bool), s.hierarchy = h₀ ∧
    h₀.rootTaskOf? task = some root ∧ Start.bringForward s l task root = (t, some moved) ∧
      t.hierarchy = h

/-- How the place of a new activity has come about, and the hierarchy by then. -/
inductive Lodging (r : StartRequest) (h₀ : Hierarchy) (record : ActivityRecord) (l : Launch) :
    NodeId → Hierarchy → Prop where
  | reused {task : NodeId} {h h' : Hierarchy} (reuses : Reuses r h₀ record l task h)
      (arrived : Start.arrive h l record task = (h', .add)) : Lodging r h₀ record l task h'
  | existing {place : NodeId} (idle : Start.reusableTask? r h₀ record = none)
      (found : Start.existingPlace? h₀ r l = some place) : Lodging r h₀ record l place h₀
  | made {root task : NodeId} {h h' : Hierarchy} {spec : TaskSpec} {position : Position}
      (idle : Start.reusableTask? r h₀ record = none)
      (homeless : Start.existingPlace? h₀ r l = none)
      (rooting : Start.Rooting h₀ l record.info.type root h)
      (made : h.createTask root spec position = .ok (h', task)) (layout : LaunchParams) :
      Lodging r h₀ record l task (Start.applyBounds h' task layout)

/-- The end of a launch that has come to its place, which is a node: the world that it leaves, the
activity that it ends at, and the result. -/
inductive Landing (env : Environment) (r : StartRequest) (h₀ : Hierarchy)
    (record : ActivityRecord) : NodeId → World → World → Option NodeId → StartResult → Prop where
  | failed {x : NodeId} {w : World} {result : StartResult} (ks : List NodeId)
      (fails : result.isSuccessful = false) :
      Landing env r h₀ record x w { w with hierarchy := ks.foldl Hierarchy.remove w.hierarchy }
        none result
  | added {parent : NodeId} {w : World} {l : Launch} {h h' : Hierarchy} {k display : NodeId}
      (chosen : l.Of r h₀) (made : w.hierarchy.addActivity parent record .top = .ok (h, k))
      (front : h' = if l.movesToFront then (h.moveTaskToFront parent).1 else h)
      (shown : display = (h'.displayOf? k).getD l.display ∨
        display = (w.hierarchy.displayOf? parent).getD l.display)
      (lodging : Lodging r h₀ record l parent w.hierarchy) :
      Landing env r h₀ record parent w
        (Start.propagate env { w with hierarchy := h' } display (some k)) (some k) .success
  | delivered {task : NodeId} {w : World} {l : Launch} {h : Hierarchy} {k : NodeId} {moved : Bool}
      (chosen : l.Of r h₀) (live : w.hierarchy.isTask task = true)
      (front : moved = true →
        ∃ before : Hierarchy, w.hierarchy = (before.moveTaskToFront task).1)
      (arrived : Start.arrive w.hierarchy l record task = (h, .deliver k))
      (reuses : Reuses r h₀ record l task w.hierarchy) :
      Landing env r h₀ record task w
        (Start.propagate env (Start.deliver { w with hierarchy := h } k record.intent l.cookie)
          ((h.displayOf? task).getD l.display) none)
        (some k) (if moved then .taskToFront else .deliveredToTop)
  | kept {task : NodeId} {w : World} {l : Launch} {h : Hierarchy} {moved : Bool}
      (chosen : l.Of r h₀) (live : w.hierarchy.isTask task = true)
      (front : moved = true →
        ∃ before : Hierarchy, w.hierarchy = (before.moveTaskToFront task).1)
      (arrived : Start.arrive w.hierarchy l record task = (h, .keep))
      (reuses : Reuses r h₀ record l task w.hierarchy) :
      Landing env r h₀ record task w
        (Start.propagate env
          (Start.leaveCookie { w with hierarchy := h } l.cookie (h.topRunningActivity? task))
          ((h.displayOf? task).getD l.display) none)
        (h.topRunningActivity? task) (if moved then .taskToFront else .deliveredToTop)
  | topped {top : NodeId} {w : World} {l : Launch} (chosen : l.Of r h₀)
      (found : Start.deliverableTop? w.hierarchy l.display record = some top)
      (still : w.hierarchy = h₀) (idle : Start.reusableTask? r h₀ record = none) :
      Landing env r h₀ record top w
        (Start.propagate env (Start.deliver w top record.intent l.cookie) l.display none)
        (some top) .deliveredToTop

/-- A launch has an end that it approaches from here, with no traces on displays that have nothing
to do with its place when it succeeds. -/
structure Lands (env : Environment) (r : StartRequest) (h₀ : Hierarchy) (record : ActivityRecord)
    (w : World) (outcome : Flight × StartResult) : Prop where
  exists_landing : ∃ w' x, Approaches w w' ∧
    Landing env r h₀ record x w' outcome.1.world outcome.1.outActivity outcome.2 ∧
    (outcome.2.isSuccessful = true → w.hierarchy.WellFormed →
      Start.Confined x w.hierarchy w'.hierarchy)

theorem Lands.after {env : Environment} {r : StartRequest} {h₀ : Hierarchy}
    {record : ActivityRecord} {outcome : Flight × StartResult}
    (lands : Lands env r h₀ record w' outcome) (approaches : Approaches w w')
    (still : outcome.2.isSuccessful = true → w'.hierarchy = w.hierarchy) :
    Lands env r h₀ record w outcome := by
  obtain ⟨u, x, further, landing, confined⟩ := lands.exists_landing
  refine ⟨u, x, approaches.trans further, landing, fun succeeds formed => ?_⟩
  have same := still succeeds
  rw [← same] at formed ⊢
  exact confined succeeds formed

theorem Lands.after_of_fails {env : Environment} {r : StartRequest} {h₀ : Hierarchy}
    {record : ActivityRecord} {outcome : Flight × StartResult}
    (lands : Lands env r h₀ record w' outcome) (approaches : Approaches w w')
    (fails : outcome.2.isSuccessful = false) : Lands env r h₀ record w outcome := by
  refine lands.after approaches fun succeeds => ?_
  rw [fails] at succeeds
  contradiction

theorem approaches_refineLayout (s : Flight) (chain : List Modifier) (request : LayoutRequest)
    (current : LaunchParams) :
    Approaches s.world (s.refineLayout chain request current).1.world :=
  .single (.ask ⟨rfl, s.quiet_refineLayout chain request current⟩)

theorem SameOrRooted.approaches (rooted : SameOrRooted s t) : Approaches s.world t.world := by
  obtain rfl | ⟨_, _, _, _, _, isNew, made, rfl⟩ := rooted
  · exact .refl
  · cases isNew <;> exact .single (.root made)

theorem SameOrRooted.isTask (rooted : SameOrRooted s t)
    (live : s.hierarchy.isTask task = true) : t.hierarchy.isTask task = true := by
  obtain rfl | ⟨_, _, _, _, _, _, made, rfl⟩ := rooted
  · exact live
  · rcases getOrCreateRootTask_eq_ok made with ⟨rfl, rfl⟩ | ⟨rfl, created⟩
    · exact live
    · simp only [if_true, Flight.withNew, Flight.withHierarchy, Flight.hierarchy, isTask, task?,
        data?_createTask created]
      split
      · rfl
      · exact live

namespace Start
variable {env : Environment} {chain : List Modifier} {l : Launch} {record : ActivityRecord}
  {r : StartRequest} {h h' h₀ : Hierarchy}

theorem lands_rollback (unset : s.outActivity = none) {result : StartResult}
    (fails : result.isSuccessful = false) :
    Lands env r h₀ record s.world (s.rollback, result) := by
  have landing : Landing env r h₀ record ⟨0⟩ s.world s.rollback.world none result :=
    .failed s.created.reverse fails
  rw [← unset] at landing
  refine ⟨s.world, _, .refl, landing, fun succeeds => ?_⟩
  rw [fails] at succeeds
  contradiction

theorem lands_fail (s : Flight) : Lands env r h₀ record s.world s.fail :=
  ⟨s.world, ⟨0⟩, .refl, .failed s.created.reverse rfl,
    fun succeeds => absurd succeeds Bool.false_ne_true⟩

theorem raise_of_front (s : Flight) (l : Launch) (k : NodeId) :
    (if l.movesToFront then s.raise k else s) = s.withHierarchy
      (if l.movesToFront then (s.hierarchy.moveTaskToFront k).1 else s.hierarchy) := by
  split <;> rfl

theorem landing_addTo (chosen : l.Of r h₀) {s : Flight} {parent : NodeId}
    (lodging : Lodging r h₀ record l parent s.hierarchy) :
    let outcome := addTo env s l record parent
    Landing env r h₀ record parent s.world outcome.1.world outcome.1.outActivity outcome.2 := by
  unfold addTo
  split
  · exact .failed s.created.reverse rfl
  · rename_i made
    dsimp only
    rw [raise_of_front]
    dsimp only [Flight.withHierarchy, Flight.withNew, Flight.hierarchy]
    exact .added chosen made rfl (.inl rfl) lodging

theorem lands_startInNewTask (chosen : l.Of r h₀) (here : s.hierarchy = h₀)
    (idle : reusableTask? r h₀ record = none) (homeless : existingPlace? h₀ r l = none)
    (unset : s.outActivity = none) (request : LayoutRequest) (layout : LaunchParams) :
    Lands env r h₀ record s.world (startInNewTask env chain s l r record request layout) := by
  unfold startInNewTask
  split
  · exact lands_fail s
  rename_i rooted root found
  have sameOrRooted := sameOrRooted_launchRoot found
  have blank : rooted.outActivity = none := by
    obtain rfl | ⟨_, _, _, _, _, isNew, _, rfl⟩ := sameOrRooted
    · exact unset
    · cases isNew <;> exact unset
  have rooted' := sameOrRooted.approaches
  dsimp only
  split
  · exact (lands_fail rooted).after_of_fails rooted' rfl
  rename_i h task made
  have laid : ∀ request pair, (rooted.withNew h task).refineLayout chain request layout = pair →
      let laid := pair.1.withHierarchy (applyBounds pair.1.hierarchy task pair.2)
      Approaches s.world laid.world ∧ laid.outActivity = none ∧
        Lodging r h₀ record l task laid.hierarchy ∧
        (s.hierarchy.WellFormed → Confined task s.hierarchy laid.hierarchy) := by
    rintro request _ rfl
    have made' : Approaches s.world (rooted.withNew h task).world := rooted'.tail (.task made)
    exact ⟨(made'.trans (approaches_refineLayout ..)).tail (.bounds task _), blank,
      .made idle homeless (here ▸ rooting_launchRoot found) made _,
      fun formed => confined_newTask formed found made _⟩
  generalize known : (rooted.withNew h task).refineLayout chain _ layout = pair
  obtain ⟨approaches, blank, lodging, confined⟩ := laid _ pair known
  split
  · exact (lands_rollback blank rfl).after_of_fails approaches rfl
  · exact ⟨_, task, approaches, landing_addTo chosen lodging, fun _ => confined⟩

theorem lands_deliverToTop (chosen : l.Of r h₀) (here : s.hierarchy = h₀)
    (idle : reusableTask? r h₀ record = none) {top : NodeId}
    (found : deliverableTop? s.hierarchy l.display record = some top) :
    Lands env r h₀ record s.world (deliverToTop env s l record top) := by
  unfold deliverToTop
  refine ⟨s.world, top, .refl, ?_, fun _ _ => .refl top s.hierarchy⟩
  dsimp only
  exact .topped chosen found here idle

theorem approaches_moveInto {place : NodeId} {taskDisplay : Option NodeId}
    (live : s.hierarchy.isTask task = true) (moved : moveInto s task place taskDisplay = some t) :
    Approaches s.world t.world ∧ t.hierarchy.isTask task = true ∧
      ∃ before : Hierarchy, t.hierarchy = (before.moveTaskToFront task).1 := by
  unfold moveInto at moved
  dsimp only at moved
  split at moved
  · cases moved
    exact ⟨.single (.raise live), isTask_of_data? (data?_moveTaskToFront ..) live, _, rfl⟩
  split at moved
  · contradiction
  · rename_i h placed
    cases moved
    have live' : h.isTask task = true := isTask_of_data? (data?_reparent placed task) live
    exact ⟨.tail (.single (.move live placed)) (.raise live'),
      isTask_of_data? (data?_moveTaskToFront ..) live', _, rfl⟩

/-- A task that counts as moved has just been raised. -/
theorem approaches_bringForward {root : NodeId} {moved : Option Bool}
    (live : s.hierarchy.isTask task = true) (brought : bringForward s l task root = (t, moved)) :
    Approaches s.world t.world ∧ t.hierarchy.isTask task = true ∧ (moved = some true →
      ∃ before : Hierarchy, t.hierarchy = (before.moveTaskToFront task).1) := by
  have rooted : ∀ {u target taskDisplay place},
      destination s l root target taskDisplay = some (u, place) →
        Approaches s.world u.world ∧ u.hierarchy.isTask task = true := fun found =>
    ⟨(sameOrRooted_destination found).approaches, (sameOrRooted_destination found).isTask live⟩
  cases brought_bringForward brought with
  | still uncounted => exact ⟨.refl, live, fun counts => absurd counts uncounted⟩
  | raised found =>
    obtain ⟨approaches, live⟩ := rooted found
    exact ⟨approaches.tail (.raise live), isTask_of_data? (data?_moveTaskToFront ..) live,
      fun _ => ⟨_, rfl⟩⟩
  | refused found =>
    obtain ⟨approaches, live⟩ := rooted found
    exact ⟨approaches, live, by simp⟩
  | moved found into =>
    obtain ⟨approaches, live⟩ := rooted found
    obtain ⟨further, live, front⟩ := approaches_moveInto live into
    exact ⟨approaches.trans further, live, fun _ => front⟩

theorem lands_recycle (chosen : l.Of r h₀) (here : s.hierarchy = h₀)
    (reusable : reusableTask? r h₀ record = some task) :
    Lands env r h₀ record s.world (recycle env s l record task) := by
  have live : s.hierarchy.isTask task = true := here ▸ isTask_of_reusableTask? reusable
  unfold recycle
  split
  · exact lands_fail s
  rename_i root known
  let seen : Flight := { s with taskWasVisible := some (hasVisibleActivity s.hierarchy task) }
  have live : seen.hierarchy.isTask task = true := live
  dsimp only
  split
  · rename_i refused
    exact (lands_fail _).after_of_fails (approaches_bringForward live refused).1 rfl
  rename_i t moved brought
  have present : s.hierarchy.contains task = true := contains_of_isTask live
  have confined : s.hierarchy.WellFormed → Confined task s.hierarchy t.hierarchy ∧
      t.hierarchy.WellFormed := fun formed =>
    ⟨confined_bringForward (s := seen) formed present
      (contains_of_rootTaskOf? known) brought,
      (standing_bringForward (s := seen) ⟨formed, live⟩ brought).formed⟩
  obtain ⟨approaches, live, front⟩ := approaches_bringForward live brought
  have front : moved = true → ∃ before : Hierarchy, t.hierarchy = (before.moveTaskToFront task).1 :=
    fun counts => front (by rw [counts])
  have reuses : Reuses r h₀ record l task t.hierarchy :=
    ⟨reusable, seen, t, root, moved, here, here ▸ known, brought, rfl⟩
  cases arrived : arrive t.hierarchy l record task with | mk h arrival => ?_
  cases arrival with
  | add =>
    obtain ⟨ks, within, cleared⟩ := exists_cleared_arrive t.hierarchy l record task
    have confined : s.hierarchy.WellFormed → Confined task s.hierarchy h := by
      intro formed
      obtain ⟨confined, formed'⟩ := confined formed
      have same := displayOf?_arrive formed' live l record
      have clears := confined_arrive formed' l record task
      rw [arrived] at same clears
      exact confined.trans formed.forest formed'.forest clears same
    rw [arrived] at cleared
    have approaches : Approaches s.world { t.world with hierarchy := h } := by
      obtain rfl : h = ks.foldl Hierarchy.remove t.hierarchy := cleared
      exact approaches.tail (.clear fun k member => (List.mem_filter.mp (within k member)).2)
    dsimp only
    split
    · exact (lands_fail _).after_of_fails approaches rfl
    · rename_i made
      refine ⟨_, task, approaches, ?_, fun _ => confined⟩
      rw [raise_of_front]
      dsimp only [Flight.withHierarchy, Flight.withNew, Flight.hierarchy]
      exact .added chosen made rfl (.inr rfl) (.reused reuses arrived)
  | deliver k =>
    refine ⟨t.world, task, approaches, ?_, fun _ formed => (confined formed).1⟩
    dsimp only [Flight.withHierarchy]
    exact .delivered chosen live front arrived reuses
  | keep =>
    refine ⟨t.world, task, approaches, ?_, fun _ formed => (confined formed).1⟩
    dsimp only [Flight.withHierarchy]
    exact .kept chosen live front arrived reuses

/-- Every launch ends in one of these ways. -/
theorem lands_place (host : Host) (r : StartRequest) (caller : Caller) (info : ActivityInfo)
    (w : World) : Lands host.environment r w.hierarchy (r.newRecord caller.uid info) w
      (place host r caller info w) := by
  have refined : ∀ first params second params', Approaches w
      ((({ world := w } : Flight).refineLayout host.modifiers first params).1.refineLayout
        host.modifiers second params').1.world := fun first params second params' =>
    (approaches_refineLayout { world := w } host.modifiers first params).trans
      (approaches_refineLayout _ host.modifiers second params')
  unfold place
  dsimp only
  split
  · exact ⟨_, ⟨0⟩, approaches_refineLayout { world := w } .., .failed [] rfl,
      fun succeeds => absurd succeeds Bool.false_ne_true⟩
  rename_i display shown
  have chosen : (launch r w.hierarchy _ display).Of r w.hierarchy := ⟨_, display, shown, rfl⟩
  split
  · exact (lands_recycle chosen rfl ‹_›).after (refined ..) fun _ => rfl
  rename_i idle
  split
  · rename_i found
    split at found
    · contradiction
    · refine (lands_deliverToTop chosen rfl idle ?_).after (refined ..) fun _ => rfl
      exact found
  split
  · rename_i parent found
    refine Lands.after ⟨_, parent, .refl, landing_addTo chosen (.existing idle found), ?_⟩
      (refined ..) fun _ => rfl
    exact fun _ _ => .refl parent _
  · exact (lands_startInNewTask chosen rfl idle ‹_› rfl _ _).after (refined ..) fun _ => rfl

end Start
end WindowHost
