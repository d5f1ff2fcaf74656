import WindowHost.Visibility
import WindowHost.Proofs.Hierarchy.Lookup

/-! What a visibility pass decides from. A pass writes to activity records, but nothing that it
writes is read by any question that it asks of the hierarchy. -/
namespace WindowHost

/-- The record without what a pass may write. A pass neither destroys an activity nor brings a
destroyed one back. -/
def ActivityRecord.still (r : ActivityRecord) : ActivityRecord :=
  { r with
    state := if r.state = .destroyed then .destroyed else .stopped
    visibleRequested := false
    visibleIgnoringKeyguard := false
    clientVisibilityDeferred := false
    restarting := false
    frozenConfigChanges := none }

theorem ActivityRecord.isRunning_still (r : ActivityRecord) : r.still.isRunning = r.isRunning := by
  unfold still isRunning
  cases r.state <;> rfl

theorem ActivityRecord.still_still (r : ActivityRecord) : r.still.still = r.still := by
  by_cases gone : r.state = .destroyed <;> simp [still, gone]

theorem ActivityRecord.isRunning_eq_of_still {r r' : ActivityRecord} (same : r'.still = r.still) :
    r'.isRunning = r.isRunning := by
  rw [← r'.isRunning_still, same, r.isRunning_still]

/-- What the questions of a pass see of a record. Whether an activity lets through what lies behind
it is asked only while it runs, or where it counts as running. -/
def ActivityRecord.sight (counts : Bool) (r : ActivityRecord) : ActivityRecord :=
  if counts || r.isRunning then r.still else { r.still with info.translucent := false }

def NodeData.sight (counts : Bool) : NodeData → NodeData :=
  NodeData.mapActivity (ActivityRecord.sight counts)

theorem ActivityRecord.apply_sight {α : Type} {g : ActivityRecord → α}
    (still : ∀ r, g r.still = g r)
    (solid : ∀ r : ActivityRecord, g { r with info.translucent := false } = g r) (counts : Bool)
    (r : ActivityRecord) : g (r.sight counts) = g r := by
  unfold sight
  split
  · exact still r
  · exact (solid r.still).trans (still r)

theorem ActivityRecord.eq_of_sight {α : Type} {g : ActivityRecord → α} {counts : Bool}
    {r r' : ActivityRecord} (still : ∀ r, g r.still = g r)
    (solid : ∀ r : ActivityRecord, g { r with info.translucent := false } = g r)
    (same : r'.sight counts = r.sight counts) : g r' = g r := by
  rw [← apply_sight still solid counts r', same, apply_sight still solid counts r]

theorem ActivityRecord.isRunning_sight (counts : Bool) (r : ActivityRecord) :
    (r.sight counts).isRunning = r.isRunning :=
  apply_sight isRunning_still (fun _ => rfl) counts r

theorem ActivityRecord.sight_sight (counts : Bool) (r : ActivityRecord) :
    (r.sight counts).sight counts = r.sight counts := by
  have runs := r.isRunning_sight counts
  by_cases seen : (counts || r.isRunning) = true
  · rw [sight, runs, if_pos seen, sight, if_pos seen, still_still]
  · rw [sight, runs, if_neg seen, sight, if_neg seen]
    exact congrArg (fun r : ActivityRecord => { r with info.translucent := false }) r.still_still

namespace Hierarchy
variable {counts : NodeId → Bool} {h h' h'' : Hierarchy}

/-- Two hierarchies in which the questions of a pass have the same answers, where the activities
that do not run count as if they did or not. -/
structure SameSight (counts : NodeId → Bool) (h h' : Hierarchy) : Prop where
  next : h'.nodes.next = h.nodes.next
  displays : h'.displays = h.displays
  nextTaskId : h'.nextTaskId = h.nextTaskId
  parent? : h'.parent? = h.parent?
  children : h'.children = h.children
  data : ∀ k, (h'.data? k).map (NodeData.sight (counts k)) =
    (h.data? k).map (NodeData.sight (counts k))

/-- Two hierarchies that a pass cannot tell apart. -/
abbrev SameView : Hierarchy → Hierarchy → Prop := SameSight fun _ => true

namespace SameSight

theorem refl (h : Hierarchy) : SameSight counts h h := ⟨rfl, rfl, rfl, rfl, rfl, fun _ => rfl⟩

theorem symm (same : SameSight counts h h') : SameSight counts h' h where
  next := same.next.symm
  displays := same.displays.symm
  nextTaskId := same.nextTaskId.symm
  parent? := same.parent?.symm
  children := same.children.symm
  data k := (same.data k).symm

theorem trans (first : SameSight counts h h') (second : SameSight counts h' h'') :
    SameSight counts h h'' where
  next := second.next.trans first.next
  displays := second.displays.trans first.displays
  nextTaskId := second.nextTaskId.trans first.nextTaskId
  parent? := second.parent?.trans first.parent?
  children := second.children.trans first.children
  data k := (second.data k).trans (first.data k)

variable (same : SameSight counts h h')
include same

theorem bind_data {α : Type} {g : NodeData → Option α} {k : NodeId}
    (blind : ∀ d, g (d.sight (counts k)) = g d) : (h'.data? k).bind g = (h.data? k).bind g := by
  have ignores : g ∘ NodeData.sight (counts k) = g := funext blind
  rw [← ignores, ← Option.bind_map, ← Option.bind_map, same.data]

theorem task? : h'.task? = h.task? :=
  funext fun _ => same.bind_data fun d => by cases d <;> rfl

theorem area? : h'.area? = h.area? :=
  funext fun _ => same.bind_data fun d => by cases d <;> rfl

theorem display? : h'.display? = h.display? :=
  funext fun _ => same.bind_data fun d => by cases d <;> rfl

theorem adjacent? : h'.adjacent? = h.adjacent? :=
  funext fun _ => same.bind_data fun d => by cases d <;> rfl

theorem bind_ownBounds? (k : NodeId) :
    (h'.data? k).bind NodeData.ownBounds? = (h.data? k).bind NodeData.ownBounds? :=
  same.bind_data fun d => by cases d <;> rfl

theorem activity?_map {α : Type} {g : ActivityRecord → α} {k : NodeId}
    (blind : ∀ r, g (r.sight (counts k)) = g r) :
    (h'.activity? k).map g = (h.activity? k).map g := by
  simp only [Hierarchy.activity?, Option.map_bind]
  exact same.bind_data fun d => by cases d <;> simp [NodeData.sight, NodeData.mapActivity,
    NodeData.activity?, blind]

theorem exists_sight {k : NodeId} {r : ActivityRecord} (held : h.activity? k = some r) :
    ∃ r', h'.activity? k = some r' ∧ r'.sight (counts k) = r.sight (counts k) := by
  have mapped := same.activity?_map (k := k) (ActivityRecord.sight_sight _)
  rw [held, Option.map_some, Option.map_eq_some_iff] at mapped
  exact mapped

theorem activityHas_apply {p : ActivityRecord → Bool} {k : NodeId}
    (blind : ∀ r, p (r.sight (counts k)) = p r) : h'.activityHas p k = h.activityHas p k := by
  have mapped := same.activity?_map blind
  unfold Hierarchy.activityHas
  cases held : h.activity? k <;> cases held' : h'.activity? k <;> simp_all

theorem activityHas {p : ActivityRecord → Bool} (blind : ∀ counts r, p (r.sight counts) = p r) :
    h'.activityHas p = h.activityHas p :=
  funext fun k => same.activityHas_apply (blind (counts k))

theorem isActivity : h'.isActivity = h.isActivity := by
  funext k
  have mapped := same.activity?_map (g := fun _ => ()) (k := k) (fun _ => rfl)
  unfold Hierarchy.isActivity
  cases held : h.activity? k <;> cases held' : h'.activity? k <;> simp_all

theorem isTask : h'.isTask = h.isTask := by
  funext k
  rw [Hierarchy.isTask, Hierarchy.isTask, same.task?]

theorem isFragmentLike : h'.isFragmentLike = h.isFragmentLike := by
  funext k
  have kind := same.data k
  unfold Hierarchy.isFragmentLike
  cases held : h.data? k <;> cases held' : h'.data? k <;> simp_all
  rename_i d d'
  cases d <;> cases d' <;> simp_all [NodeData.sight, NodeData.mapActivity, NodeData.isFragmentLike]

theorem contains : h'.contains = h.contains := by
  funext k
  have kind := same.data k
  rw [contains_eq_isSome_data?, contains_eq_isSome_data?]
  cases held : h.data? k <;> cases held' : h'.data? k <;> simp_all

theorem ancestors (k : NodeId) : h'.ancestors k = h.ancestors k :=
  ancestors_congr same.next (congrFun same.parent?) k

theorem contents (k : NodeId) : h'.contents k = h.contents k :=
  contents_congr same.next (congrFun same.children) k

theorem subtree (k : NodeId) : h'.subtree k = h.subtree k := by
  rw [Hierarchy.subtree, Hierarchy.subtree, same.contains, same.contents]

theorem lineage (k : NodeId) : h'.lineage k = h.lineage k := by
  rw [Hierarchy.lineage, Hierarchy.lineage, same.contains, same.ancestors]

theorem isDescendantOf : h'.isDescendantOf = h.isDescendantOf := by
  funext k ancestor
  rw [Hierarchy.isDescendantOf, Hierarchy.isDescendantOf, same.ancestors]

theorem displayOf? (k : NodeId) : h'.displayOf? k = h.displayOf? k := by
  simp only [Hierarchy.displayOf?, same.lineage, same.display?]

theorem displayId? : h'.displayId? = h.displayId? := by
  funext k
  rw [Hierarchy.displayId?, Hierarchy.displayId?, same.display?]

theorem isRootTask : h'.isRootTask = h.isRootTask := by
  funext k
  rw [Hierarchy.isRootTask, Hierarchy.isRootTask, same.isTask, same.parent?, same.area?]

theorem rootTaskOf? (k : NodeId) : h'.rootTaskOf? k = h.rootTaskOf? k := by
  rw [Hierarchy.rootTaskOf?, Hierarchy.rootTaskOf?, same.lineage, same.isRootTask]

theorem taskOf? : h'.taskOf? = h.taskOf? := by
  funext k
  rw [Hierarchy.taskOf?, Hierarchy.taskOf?, same.lineage, same.isTask]

theorem taskAround? (k : NodeId) : h'.taskAround? k = h.taskAround? k := by
  rw [Hierarchy.taskAround?, Hierarchy.taskAround?, same.parent?, same.taskOf?]

theorem mode (k : NodeId) : h'.mode k = h.mode k := by
  simp only [Hierarchy.mode, same.lineage, same.task?]

theorem bounds (k : NodeId) : h'.bounds k = h.bounds k := by
  simp only [Hierarchy.bounds, same.lineage, same.bind_ownBounds?]

theorem activityType (k : NodeId) : h'.activityType k = h.activityType k := by
  have own := same.activity?_map (g := (·.info.type)) (k := k)
    (ActivityRecord.apply_sight (g := (·.info.type)) (fun _ => rfl) (fun _ => rfl) _)
  simp only [Hierarchy.activityType, own, same.rootTaskOf?, same.task?]

theorem rootTasks (display : NodeId) : h'.rootTasks display = h.rootTasks display := by
  simp only [Hierarchy.rootTasks, same.children, same.isTask]

theorem activities (k : NodeId) : h'.activities k = h.activities k := by
  rw [Hierarchy.activities, Hierarchy.activities, same.subtree, same.isActivity]

theorem topRunningActivity? (k : NodeId) : h'.topRunningActivity? k = h.topRunningActivity? k := by
  rw [Hierarchy.topRunningActivity?, Hierarchy.topRunningActivity?, same.activities,
    same.activityHas ActivityRecord.isRunning_sight]

theorem hasRunningActivity (k : NodeId) : h'.hasRunningActivity k = h.hasRunningActivity k := by
  rw [Hierarchy.hasRunningActivity, Hierarchy.hasRunningActivity, same.topRunningActivity?]

theorem isRootOfTask (k : NodeId) : h'.isRootOfTask k = h.isRootOfTask k := by
  simp only [Hierarchy.isRootOfTask, same.taskAround?, same.activities,
    same.activityHas ActivityRecord.isRunning_sight]

theorem leavesOf : h'.leavesOf = h.leavesOf := by
  funext L
  induction L with
  | nil => rfl
  | node k inside below inner rest =>
    simp only [Hierarchy.leavesOf, same.isTask, inner, rest]

theorem leafTasks : h'.leafTasks = h.leafTasks := by
  funext root
  rw [Hierarchy.leafTasks, Hierarchy.leafTasks, same.leavesOf, same.subtree]

theorem allRootTasks : h'.allRootTasks = h.allRootTasks := by
  rw [Hierarchy.allRootTasks, Hierarchy.allRootTasks, same.displays, funext same.rootTasks]

theorem weighTask : h'.weighTask = h.weighTask := by
  funext c affinity user akin task
  rw [Hierarchy.weighTask, Hierarchy.weighTask, same.task?, same.hasRunningActivity]

theorem findTask? (c : ComponentName) (affinity : String) (user : UserId) :
    h'.findTask? c affinity user = h.findTask? c affinity user := by
  simp only [Hierarchy.findTask?, same.displays, same.rootTasks, same.mode, same.leafTasks,
    same.weighTask]

section
variable {starting : Option NodeId} (counted : ∀ j, starting = some j → counts j = true)
include counted

/-- Whether an activity covers what lies behind it is known of those that run or are to start. -/
theorem covers (k : NodeId) :
    h'.activityHas (fun r => (r.isRunning || some k == starting) && r.occludesParent) k =
      h.activityHas (fun r => (r.isRunning || some k == starting) && r.occludesParent) k := by
  refine same.activityHas_apply fun r => ?_
  rw [r.isRunning_sight, ActivityRecord.sight]
  split
  · rfl
  · rename_i idle
    obtain ⟨apart, still⟩ := Bool.or_eq_false_iff.mp (Bool.eq_false_iff.mpr idle)
    have other : (some k == starting) = false := by
      refine beq_eq_false_iff_ne.mpr fun starts => ?_
      rw [counted k starts.symm] at apart
      contradiction
    simp [still, other]

theorem isTranslucent (k : NodeId) : h'.isTranslucent k starting = h.isTranslucent k starting := by
  simp only [Hierarchy.isTranslucent, same.activities, same.covers counted]

theorem isOpaque (k : NodeId) : h'.isOpaque k starting = h.isOpaque k starting := by
  rw [Hierarchy.isOpaque, Hierarchy.isOpaque, same.hasRunningActivity, same.isTranslucent counted]

end

theorem siblingsAbove (parent child : NodeId) :
    h'.siblingsAbove parent child = h.siblingsAbove parent child := by
  rw [Hierarchy.siblingsAbove, Hierarchy.siblingsAbove, same.children]

section
variable {starting : Option NodeId} (counted : ∀ j, starting = some j → counts j = true)
include counted

theorem coversAll (bounds : Rect) (ks partners : List NodeId) :
    h'.coversAll starting bounds partners ks = h.coversAll starting bounds partners ks := by
  induction ks generalizing partners with
  | nil => rfl
  | cons k below ih =>
    have covers := same.activity?_map (g := fun r => r.isRunning && r.occludesParent) (k := k)
      fun r => by
        rw [r.isRunning_sight, ActivityRecord.sight]
        cases runs : r.isRunning with
        | false => rfl
        | true =>
          rw [Bool.or_true, if_pos rfl]
          rfl
    simp only [Hierarchy.coversAll, same.isOpaque counted, same.bounds, same.adjacent?, ih]
    cases held : h.activity? k <;> cases held' : h'.activity? k <;> simp_all

theorem coversRoots (ks partners : List NodeId) :
    h'.coversRoots starting partners ks = h.coversRoots starting partners ks := by
  induction ks generalizing partners with
  | nil => rfl
  | cons k below ih =>
    simp only [Hierarchy.coversRoots, same.isOpaque counted, same.mode, same.adjacent?, ih]

theorem isUncovered (above : List NodeId) (k : NodeId) :
    h'.isUncovered starting k above = h.isUncovered starting k above := by
  induction above generalizing k with
  | nil => rfl
  | cons parent further ih =>
    simp only [Hierarchy.isUncovered, Hierarchy.isRootTaskUncovered,
      Hierarchy.isCoveredBySiblings, same.area?, same.mode, same.parent?, same.coversRoots counted,
      same.siblingsAbove, same.isFragmentLike, same.bounds, same.coversAll counted, ih]

theorem shouldBeVisible (k : NodeId) :
    h'.shouldBeVisible k starting = h.shouldBeVisible k starting := by
  rw [Hierarchy.shouldBeVisible, Hierarchy.shouldBeVisible, same.hasRunningActivity,
    same.isDescendantOf, same.ancestors, same.isUncovered counted]

end

end SameSight

/-- Writing what no question of a pass sees changes no answer. -/
theorem sameSight_modifyActivity {k : NodeId} {f : ActivityRecord → ActivityRecord}
    (keeps : ∀ r, h.activity? k = some r → (f r).sight (counts k) = r.sight (counts k)) :
    SameSight counts h (h.modifyActivity k f) where
  next := Arena.next_modify ..
  displays := rfl
  nextTaskId := rfl
  parent? := funext (parent?_modifyData h k _)
  children := funext (children_modifyData h k _)
  data j := by
    rw [modifyActivity, data?_modifyData]
    split
    · rename_i same
      subst same
      cases held : h.data? j with
      | none => rfl
      | some d =>
        cases d with
        | activity r =>
          have kept := keeps r (by simp [activity?, held, NodeData.activity?])
          simp [NodeData.sight, NodeData.mapActivity, kept]
        | _ => rfl
    · rfl

/-- What a container looks like to a pass. -/
theorem SameSight.look (same : SameSight counts h h') {p : VisibilityParams}
    (counted : ∀ j, p.starting = some j → counts j = true) (locked : DisplayId → Bool)
    (k : NodeId) :
    Visibility.Container.look locked p h' k = Visibility.Container.look locked p h k := by
  have front : h'.activityHas (fun r => !r.launchTaskBehind) =
      h.activityHas fun r => !r.launchTaskBehind :=
    same.activityHas
      (ActivityRecord.apply_sight (g := fun r => !r.launchTaskBehind) (fun _ => rfl) fun _ => rfl)
  simp only [Visibility.Container.look, same.topRunningActivity?, same.shouldBeVisible counted,
    same.displayOf?, same.displayId?, same.activityType, same.isDescendantOf, same.bounds, front]

namespace SameView
variable (same : SameView h h')
include same

theorem symm : SameView h' h := SameSight.symm same

theorem trans (further : SameView h' h'') : SameView h h'' := SameSight.trans same further

theorem exists_activity? {k : NodeId} {r : ActivityRecord} (held : h.activity? k = some r) :
    ∃ r', h'.activity? k = some r' ∧ r'.still = r.still :=
  same.exists_sight held

theorem isTranslucent (k : NodeId) (starting : Option NodeId) :
    h'.isTranslucent k starting = h.isTranslucent k starting :=
  SameSight.isTranslucent same (fun _ _ => rfl) k

theorem shouldBeVisible (k : NodeId) (starting : Option NodeId) :
    h'.shouldBeVisible k starting = h.shouldBeVisible k starting :=
  SameSight.shouldBeVisible same (fun _ _ => rfl) k

theorem look (locked : DisplayId → Bool) (p : VisibilityParams) (k : NodeId) :
    Visibility.Container.look locked p h' k = Visibility.Container.look locked p h k :=
  SameSight.look same (fun _ _ => rfl) locked k

end SameView

/-- Writing what a pass may write changes nothing that a pass sees. -/
theorem sameView_modifyActivity {k : NodeId} {f : ActivityRecord → ActivityRecord}
    (keeps : ∀ r, h.activity? k = some r → (f r).still = r.still) :
    SameView h (h.modifyActivity k f) :=
  sameSight_modifyActivity keeps

end Hierarchy
end WindowHost
