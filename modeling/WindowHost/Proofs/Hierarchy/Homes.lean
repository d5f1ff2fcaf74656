import WindowHost.Proofs.Hierarchy.Restore
import WindowHost.Proofs.Hierarchy.Spared
import WindowHost.Proofs.Visibility.View

/-! Where activities live while a hierarchy is rearranged. Tasks move with all that lies in them,
and nothing else moves, so an activity that stays keeps the task around it, and none comes to a
display from elsewhere. -/
namespace WindowHost.Hierarchy
variable {h h' h'' : Hierarchy} {c j k p x task : NodeId} {position : Position}
  {a a' : ActivityRecord}

theorem isTask_of_isActivity (leaf : h.isActivity k = true) : h.isTask k = false := by
  rw [Bool.eq_false_iff]
  intro task
  obtain ⟨i, tag⟩ := isTask_eq_true_iff.mp task
  simp [isActivity_eq_true_iff.mp leaf] at tag

namespace Forest
variable (forest : Forest h)
include forest

/-- An activity lies in a task, or in a fragment, and a fragment lies in a task. -/
theorem taskAround?_of_parent (leaf : h.isActivity k = true) (placed : h.parent? k = some p) :
    h.taskAround? k = if h.isTask p then some p else h.parent? p := by
  have live := forest.contains_parent placed
  rw [taskAround?, placed, Option.bind_some, taskOf?]
  split
  · rename_i isTask
    rw [lineage, if_pos live, List.find?_cons_of_pos isTask]
  · rename_i other
    cases above : h.parent? p with
    | none =>
      have top : h.ancestors p = [] := (forest.climb_ancestors p).unique above
      rw [lineage, if_pos live, top, List.find?_cons_of_neg other, List.find?_nil]
    | some q =>
      have outer : h.isTask q = true := by
        obtain ⟨dp, dk, foundP, foundK, holds⟩ := forest.kinds placed
        obtain ⟨dq, _, foundQ, found, holds'⟩ := forest.kinds above
        obtain rfl : dp = _ := Option.some.inj (foundP.symm.trans found)
        cases dk <;> cases dp <;> cases dq <;> simp_all [isTask, task?, isActivity, activity?,
          NodeData.task?, NodeData.activity?, NodeData.canContain]
      rw [forest.lineage_of_parent above, List.find?_cons_of_neg other, lineage,
        if_pos (forest.contains_parent above), List.find?_cons_of_pos outer]

theorem inside_of_taskAround? (around : h.taskAround? k = some task) : Inside h k task := by
  obtain ⟨p, placed, found⟩ := Option.bind_eq_some_iff.mp around
  have listed := List.mem_of_find?_eq_some found
  rw [lineage, if_pos (forest.contains_parent placed)] at listed
  rcases List.mem_cons.mp listed with rfl | above
  · exact .child placed
  · exact .deeper placed (forest.mem_ancestors.mp above)

/-- Whatever lies in a task has a task around it, which may lie further in. -/
theorem exists_taskAround?_of_inside (leaf : h.isActivity k = true) (live : h.isTask task = true)
    (inside : Inside h k task) : ∃ t, h.taskAround? k = some t := by
  obtain ⟨p, placed⟩ := inside.parent
  rw [forest.taskAround?_of_parent leaf placed]
  split
  · exact ⟨p, rfl⟩
  · rename_i other
    rcases (inside_iff_of_parent placed).mp inside with rfl | further
    · exact absurd live other
    · exact further.parent

theorem mem_activities_iff (live : h.isTask task = true) :
    k ∈ h.activities task ↔ h.isActivity k = true ∧ Inside h k task := by
  have contains : h.contains task = true := contains_of_isTask live
  rw [activities, List.mem_filter, forest.mem_ids_subtree contains, and_comm]
  refine and_congr_right fun leaf => or_iff_right ?_
  rintro rfl
  rw [isTask_of_isActivity leaf] at live
  contradiction

end Forest

theorem isTask_of_taskAround? (around : h.taskAround? k = some task) : h.isTask task = true := by
  obtain ⟨_, _, found⟩ := Option.bind_eq_some_iff.mp around
  exact List.find?_some found

/-- The activity is the same one as before, in the same task, and has not come to a display. -/
structure SameTenant (h h' : Hierarchy) (k : NodeId) (a a' : ActivityRecord) : Prop where
  info : a'.info = a.info
  user : a'.userId = a.userId
  runs : a'.isRunning = a.isRunning
  home : h'.taskAround? k = h.taskAround? k
  shown : (h'.displayOf? k).isSome = true → (h.displayOf? k).isSome = true

/-- If it is an activity now, it was so before, as the same tenant. -/
structure Stays (h h' : Hierarchy) (k : NodeId) : Prop where
  exists_tenant : ∀ a', h'.activity? k = some a' →
    ∃ a, h.activity? k = some a ∧ SameTenant h h' k a a'

theorem SameTenant.component (same : SameTenant h h' k a a') : a'.component = a.component :=
  congrArg ActivityInfo.component same.info

theorem SameTenant.launchMode (same : SameTenant h h' k a a') : a'.launchMode = a.launchMode :=
  congrArg ActivityInfo.launchMode same.info

theorem Stays.refl (h : Hierarchy) (k : NodeId) : Stays h h k :=
  ⟨fun a held => ⟨a, held, rfl, rfl, rfl, rfl, id⟩⟩

theorem Stays.trans (first : Stays h h' k) (second : Stays h' h'' k) : Stays h h'' k := by
  refine ⟨fun c held => ?_⟩
  obtain ⟨b, held, later⟩ := second.exists_tenant c held
  obtain ⟨a, held, earlier⟩ := first.exists_tenant b held
  exact ⟨a, held, later.info.trans earlier.info, later.user.trans earlier.user,
    later.runs.trans earlier.runs, later.home.trans earlier.home, earlier.shown ∘ later.shown⟩

theorem isActivity_of_activity? (held : h.activity? k = some a) : h.isActivity k = true := by
  rw [isActivity, held, Option.isSome_some]

/-- The task around an activity is read off its parent and, where that is a fragment, the parent of
that. -/
theorem Forest.taskAround?_congr (forest : Forest h) (forest' : Forest h')
    (leaf : h.isActivity k = true) (leaf' : h'.isActivity k = true)
    (parent : h'.parent? k = h.parent? k)
    (above : ∀ p, h.parent? k = some p → h'.isTask p = h.isTask p ∧
      (h.isTask p = false → h'.parent? p = h.parent? p)) :
    h'.taskAround? k = h.taskAround? k := by
  cases placed : h.parent? k with
  | none => rw [taskAround?, taskAround?, parent, placed, Option.bind_none, Option.bind_none]
  | some p =>
    obtain ⟨kind, outer⟩ := above p placed
    rw [forest.taskAround?_of_parent leaf placed,
      forest'.taskAround?_of_parent leaf' (parent.trans placed), kind]
    split
    · rfl
    · exact outer (Bool.eq_false_iff.mpr ‹_›)

theorem SameFrame.taskAround? (frame : SameFrame h h') (forest : Forest h)
    (leaf : h.isActivity k = true) : h'.taskAround? k = h.taskAround? k := by
  refine forest.taskAround?_congr (forest.congr frame.parent frame.children frame.tag) leaf
    ((isActivity_congr (frame.tag k)).trans leaf) (frame.parent k) fun p _ => ?_
  exact ⟨isTask_congr (frame.tag p), fun _ => frame.parent p⟩

theorem SameFrame.inside (frame : SameFrame h h') (inside : Inside h k p) : Inside h' k p := by
  induction inside with
  | child placed => exact .child ((frame.parent _).trans placed)
  | deeper placed _ ih => exact .deeper ((frame.parent _).trans placed) ih

theorem Forest.stays_of_data? (forest : Forest h) (forest' : Forest h')
    (data : h'.data? k = h.data? k)
    (parent : h.isActivity k = true → h'.parent? k = h.parent? k)
    (above : ∀ p, h.parent? k = some p → h'.isTask p = h.isTask p ∧
      (h.isTask p = false → h'.parent? p = h.parent? p))
    (shown : h.isActivity k = true → (h'.displayOf? k).isSome = true →
      (h.displayOf? k).isSome = true) : Stays h h' k := by
  refine ⟨fun a held => ?_⟩
  have held' : h.activity? k = some a := (activity?_of_data? data).symm.trans held
  have leaf := isActivity_of_activity? held'
  exact ⟨a, held', rfl, rfl, rfl, forest.taskAround?_congr forest' leaf
    (isActivity_of_activity? held) (parent leaf) above, shown leaf⟩

/-- A task has been moved with all that lies in it. At most, tasks have been added. -/
structure Carried (x : NodeId) (h h' : Hierarchy) : Prop where
  data : ∀ j, h.contains j = true → h'.data? j = h.data? j
  parent : ∀ j, h.contains j = true → j ≠ x → h'.parent? j = h.parent? j
  fresh : ∀ j, h.contains j = false → h'.contains j = true → h'.isTask j = true

namespace Carried

theorem refl (x : NodeId) (h : Hierarchy) : Carried x h h where
  data _ _ := rfl
  parent _ _ _ := rfl
  fresh _ stale live := absurd (stale.symm.trans live) Bool.false_ne_true

theorem contains (carried : Carried x h h') (live : h.contains j = true) :
    h'.contains j = true :=
  (contains_congr (carried.data j live)).trans live

theorem trans (first : Carried x h h') (second : Carried x h' h'') : Carried x h h'' where
  data j live := (second.data j (first.contains live)).trans (first.data j live)
  parent j live other :=
    (second.parent j (first.contains live) other).trans (first.parent j live other)
  fresh j stale live := by
    cases between : h'.contains j with
    | false => exact second.fresh j between live
    | true =>
      have task := first.fresh j stale between
      rwa [isTask, task?, ← second.data j between, ← task?, ← isTask] at task

theorem isActivity (carried : Carried x h h') (j : NodeId) :
    h'.isActivity j = h.isActivity j := by
  cases live : h.contains j with
  | true => exact congrArg Option.isSome (activity?_of_data? (carried.data j live))
  | false =>
    have stale : h.isActivity j = false := by
      rw [Hierarchy.isActivity, Hierarchy.activity?, data?_of_not_contains live]
      rfl
    rw [stale, Bool.eq_false_iff]
    intro leaf
    obtain ⟨a, held⟩ := Option.isSome_iff_exists.mp leaf
    have task := carried.fresh j live (contains_of_activity? held)
    rw [isTask_of_isActivity leaf] at task
    contradiction

theorem of_links (x : NodeId) (data : ∀ j, h'.data? j = h.data? j)
    (parent : ∀ j ≠ x, h'.parent? j = h.parent? j) : Carried x h h' where
  data j _ := data j
  parent j _ other := parent j other
  fresh j stale live := by
    rw [contains_congr (data j), stale] at live
    contradiction

theorem moveTaskToFront (x : NodeId) (h : Hierarchy) (c : NodeId) :
    Carried x h (h.moveTaskToFront c).1 :=
  of_links x (data?_moveTaskToFront h c) fun j _ => parent?_moveTaskToFront h c j

theorem reparent (moved : h.reparent x p position = .ok h') : Carried x h h' :=
  of_links x (data?_reparent moved) fun _ => parent?_reparent moved

theorem createTask (x : NodeId) {spec : TaskSpec}
    (made : h.createTask p spec position = .ok (h', c)) : Carried x h h' := by
  have data := data?_createTask made
  obtain ⟨_, added, rfl, rfl⟩ := createTask_eq_ok_iff.mp made
  refine ⟨fun j live => ?_, fun j live _ => ?_, fun j stale live => ?_⟩
  · rw [data, if_neg (ne_nextId_of_contains live)]
  · have same := parent?_insertUnder added (ne_nextId_of_contains live)
    exact same
  · rw [contains_eq_isSome_data?, data] at live
    rw [isTask, task?, data]
    split at live
    · rw [if_pos ‹_›]
      rfl
    · rw [← contains_eq_isSome_data?, stale] at live
      contradiction

/-- The node that has been moved may be changed as well if it is new. -/
theorem modifyTask (carried : Carried x h h') (new : h.contains x = false) (f : Task → Task) :
    Carried x h (h'.modifyTask x f) := by
  have data := data?_modifyData h' x (NodeData.mapTask f)
  have other : ∀ {j}, h.contains j = true → j ≠ x := by
    rintro j live rfl
    rw [new] at live
    contradiction
  refine ⟨fun j live => ?_, fun j live apart => ?_, fun j stale live => ?_⟩
  · exact ((data j).trans (if_neg (other live))).trans (carried.data j live)
  · exact (parent?_modifyData ..).trans (carried.parent j live apart)
  · have live' : h'.contains j = true := by
      rw [contains_eq_isSome_data?, Hierarchy.modifyTask, data] at live
      rw [contains_eq_isSome_data?]
      split at live
      · rwa [Option.isSome_map] at live
      · exact live
    have kept := carried.fresh j stale live'
    rw [isTask, task?, Hierarchy.modifyTask, data]
    split
    · rw [isTask, task?] at kept
      cases found : h'.data? j with
      | none => simp [found] at kept
      | some d => cases d <;> simp_all [NodeData.mapTask, NodeData.task?]
    · exact kept

variable (carried : Carried x h h') (forest : Forest h) (forest' : Forest h')
include carried forest forest'

/-- What lies in the task still does, and nothing has come in. -/
theorem inside_iff (live : h.contains k = true) : Inside h' k x ↔ Inside h k x := by
  constructor
  · intro inside
    induction inside with
    | @child k x placed =>
      have other : k ≠ x := fun same => forest'.not_inside_self k (.child (same ▸ placed))
      exact .child ((carried.parent k live other).symm.trans placed)
    | @deeper k p x placed further ih =>
      have other : k ≠ x := fun same => forest'.not_inside_self k (.deeper placed (same ▸ further))
      have placed := (carried.parent k live other).symm.trans placed
      exact .deeper placed (ih carried (forest.contains_parent placed))
  · intro inside
    induction inside with
    | @child k x placed =>
      have other : k ≠ x := fun same => forest.not_inside_self k (.child (same ▸ placed))
      exact .child ((carried.parent k live other).trans placed)
    | @deeper k p x placed further ih =>
      have other : k ≠ x := fun same => forest.not_inside_self k (.deeper placed (same ▸ further))
      exact .deeper ((carried.parent k live other).trans placed)
        (ih carried (forest.contains_parent placed))

/-- A task that lay on a display takes nothing to one that was on none. -/
theorem stays (aside : h.contains x = true →
      h.isTask x = true ∧ (h.displayOf? x).isSome = true) (k : NodeId) : Stays h h' k := by
  have plain : ∀ {j}, h.contains j = true → h.isTask j = false → j ≠ x := by
    rintro j live other rfl
    rw [(aside live).1] at other
    contradiction
  have same : ∀ {j}, h.contains j = true → h'.isTask j = h.isTask j :=
    fun live => congrArg (fun d => (Option.bind d NodeData.task?).isSome) (carried.data _ live)
  cases live : h.contains k with
  | false =>
    refine ⟨fun a held => ?_⟩
    have task := carried.fresh k live (contains_of_activity? held)
    rw [isTask_of_isActivity (isActivity_of_activity? held)] at task
    contradiction
  | true =>
    refine forest.stays_of_data? forest' (carried.data k live)
      (fun leaf => carried.parent k live (plain live (isTask_of_isActivity leaf))) ?_ ?_
    · intro p placed
      have outer := forest.contains_parent placed
      exact ⟨same outer, fun other => carried.parent p outer (plain outer other)⟩
    · intro _ shown
      by_cases inside : Inside h k x
      · rw [forest.displayOf?_eq_of_inside inside]
        exact (aside (forest.contains_of_inside inside)).2
      by_cases itself : k = x
      · exact itself ▸ (aside (itself ▸ live)).2
      -- the way up from the node does not meet the one that has been moved
      have others : ∀ j ∈ k :: h.ancestors k, h.contains j = true ∧ j ≠ x := by
        intro j member
        rcases List.mem_cons.mp member with rfl | above
        · exact ⟨live, itself⟩
        · have outer := forest.mem_ancestors.mp above
          exact ⟨forest.contains_of_inside outer, fun same => inside (same ▸ outer)⟩
      rwa [forest.displayOf?_congr forest'
        (fun j member => carried.parent j (others j member).1 (others j member).2)
        fun j member => carried.data j (others j member).1] at shown

end Carried

theorem WellFormed.stays_moveTaskToFront (formed : h.WellFormed) (c k : NodeId) :
    Stays h (h.moveTaskToFront c).1 k :=
  (Carried.moveTaskToFront h.nextId h c).stays formed.forest (formed.moveTaskToFront c).forest
    (fun live => absurd ((contains_nextId h).symm.trans live) Bool.false_ne_true) k

theorem Cleared.stays {ks : List NodeId} (cleared : Cleared ks h h') (forest : Forest h)
    (forest' : Forest h') (k : NodeId) : Stays h h' k := by
  by_cases gone : k ∈ ks
  · refine ⟨fun a held => ?_⟩
    rw [Hierarchy.activity?, cleared.data?, if_pos gone] at held
    contradiction
  refine forest.stays_of_data? forest' (by rw [cleared.data?, if_neg gone])
    (fun _ => by rw [cleared.parent?, if_neg gone]) ?_ ?_
  · intro p placed
    have outer : p ∉ ks := by
      intro gone
      have member := forest.mem_children_iff.mpr placed
      rw [cleared.childless p gone] at member
      contradiction
    rw [isTask, isTask, task?, task?, cleared.data?, cleared.parent?, if_neg outer, if_neg outer]
    exact ⟨rfl, fun _ => rfl⟩
  · intro _ shown
    rwa [cleared.displayOf? forest forest' gone] at shown

theorem SameNodes.stays (same : SameNodes h h') (forest : Forest h) (k : NodeId) :
    Stays h h' k := by
  have forest' := same.forest forest
  refine forest.stays_of_data? forest' (same.data? k) (fun _ => same.parent? k) ?_ ?_
  · intro p _
    rw [isTask, isTask, task?, task?, same.data?, same.parent?]
    exact ⟨rfl, fun _ => rfl⟩
  · intro _ shown
    rwa [forest.displayOf?_congr forest' (fun j _ => same.parent? j) fun j _ => same.data? j]
      at shown

theorem SameView.stays (same : SameView h h') (k : NodeId) : Stays h h' k := by
  refine ⟨fun a held => ?_⟩
  obtain ⟨b, held', still⟩ := same.symm.exists_activity? held
  refine ⟨b, held', ?_, ?_, ?_, same.taskAround? k, ?_⟩
  · exact (congrArg ActivityRecord.info still :).symm
  · exact (congrArg ActivityRecord.userId still :).symm
  · exact (ActivityRecord.isRunning_eq_of_still still).symm
  · rw [same.displayOf?]
    exact id

/-- Edits of what an activity is doing are no matter of who it is. -/
theorem Forest.stays_modifyActivity (forest : Forest h) {f : ActivityRecord → ActivityRecord}
    (keeps : ∀ r, h.activity? j = some r →
      (f r).info = r.info ∧ (f r).userId = r.userId ∧ (f r).isRunning = r.isRunning)
    (k : NodeId) : Stays h (h.modifyActivity j f) k := by
  have frame := sameFrame_modifyActivity (h := h) j f
  have forest' : Forest (h.modifyActivity j f) :=
    forest.congr frame.parent frame.children frame.tag
  refine ⟨fun a held => ?_⟩
  obtain ⟨b, held', info, user, runs⟩ : ∃ b, h.activity? k = some b ∧ a.info = b.info ∧
      a.userId = b.userId ∧ a.isRunning = b.isRunning := by
    rw [activity?_modifyActivity] at held
    split at held
    · rename_i same
      subst same
      obtain ⟨r, known, rfl⟩ := Option.map_eq_some_iff.mp held
      exact ⟨r, known, keeps r known⟩
    · exact ⟨a, held, rfl, rfl, rfl⟩
  have tasks : ∀ p, (h.modifyActivity j f).isTask p = h.isTask p :=
    fun p => isTask_congr (frame.tag p)
  refine ⟨b, held', info, user, runs, ?_, ?_⟩
  · exact forest.taskAround?_congr forest' (isActivity_of_activity? held')
      (isActivity_of_activity? held) (frame.parent k) fun p _ => ⟨tasks p, fun _ => frame.parent p⟩
  · rw [displayOf?_modifyActivity]
    exact id

section
variable {record : ActivityRecord} (formed : h.WellFormed)
  (made : h.addActivity p record .top = .ok (h', c))
include formed made

/-- A new activity leaves every other where it was. -/
theorem WellFormed.stays_addActivity (other : k ≠ c) : Stays h h' k := by
  have forest' := (formed.addActivity made).forest
  have data := data?_addActivity made
  obtain ⟨added, rfl⟩ := addActivity_eq_ok_iff.mp made
  refine formed.forest.stays_of_data? forest' ((data k).trans (if_neg other))
    (fun _ => parent?_insertUnder added other) ?_ ?_
  · intro q placed
    have outer := ne_nextId_of_contains (formed.forest.contains_parent placed)
    rw [isTask, isTask, task?, task?, data, if_neg outer]
    exact ⟨rfl, fun _ => parent?_insertUnder added outer⟩
  · intro _ shown
    rwa [displayOf?_insertUnder formed.forest forest' added other] at shown

/-- A new activity lives in the task that its place is or lies in. -/
theorem WellFormed.taskAround?_addActivity : h'.taskAround? c = h.taskOf? p := by
  have forest' := (formed.addActivity made).forest
  have under := parent?_addActivity made
  have data := data?_addActivity made
  obtain ⟨added, rfl⟩ := addActivity_eq_ok_iff.mp made
  have others : ∀ j ∈ p :: h.ancestors p, j ≠ h.nextId := by
    intro j member
    refine ne_nextId_of_contains ?_
    rcases List.mem_cons.mp member with rfl | above
    · obtain ⟨_, found, _⟩ := insertUnder_eq_ok_iff.mp added
      exact contains_of_data? found
    · exact formed.forest.contains_of_inside (formed.forest.mem_ancestors.mp above)
  have way := formed.forest.ancestors_congr forest' fun j member =>
    parent?_insertUnder added (others j member)
  have live : h'.contains p = h.contains p :=
    contains_congr ((data p).trans (if_neg (others p List.mem_cons_self)))
  rw [taskAround?, under, Option.bind_some, taskOf?, taskOf?, lineage, lineage, live, way]
  split
  · refine List.find?_congr fun j member => ?_
    rw [isTask, isTask, task?, task?, data, if_neg (others j member)]
  · rfl

end

end WindowHost.Hierarchy
