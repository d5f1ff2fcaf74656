import Mathlib.Data.List.Flatten
import WindowHost.Proofs.Hierarchy.Homes
import WindowHost.Proofs.Hierarchy.Pinned
import WindowHost.Proofs.Visibility.Focus

/-! Changes that leave the order of things alone: nodes are added, activities go, and whatever stays
has the place, the mode and the life that it had. Such a change takes the focus from a root task
only where something comes to run above it. -/
namespace WindowHost

theorem Position.sublist_place (p : Position) (child : NodeId) (siblings : List NodeId) :
    siblings.Sublist (p.place child siblings) := by
  cases p with
  | top => exact List.sublist_append_left ..
  | bottom => exact List.sublist_cons_self ..
  | index i =>
    have halves := (List.Sublist.refl (siblings.take i)).append
      (List.sublist_cons_self child (siblings.drop i))
    rwa [List.take_append_drop] at halves

/-- What comes before an element of a list comes before it in a shorter one, if it is there. -/
theorem mem_takeWhile_of_sublist {α : Type} [DecidableEq α] {a b : α} {l m : List α}
    (within : l.Sublist m) (nodup : m.Nodup) (member : a ∈ l)
    (before : a ∈ m.takeWhile (· != b)) : a ∈ l.takeWhile (· != b) := by
  induction within with
  | slnil => contradiction
  | cons x within ih =>
    obtain ⟨single, nodup⟩ := List.nodup_cons.mp nodup
    rw [List.takeWhile_cons] at before
    split at before
    · rcases List.mem_cons.mp before with rfl | before
      · exact absurd (within.subset member) single
      · exact ih nodup member before
    · contradiction
  | cons_cons x within ih =>
    obtain ⟨single, nodup⟩ := List.nodup_cons.mp nodup
    rw [List.takeWhile_cons] at before ⊢
    split at before
    · rename_i other
      rw [if_pos other]
      rcases List.mem_cons.mp before with rfl | before
      · exact List.mem_cons_self
      · rcases List.mem_cons.mp member with rfl | member
        · exact List.mem_cons_self
        · exact List.mem_cons_of_mem x (ih nodup member before)
    · contradiction

theorem find?_eq_some_iff_takeWhile {α : Type} [DecidableEq α] {l : List α} {p : α → Bool} {a : α} :
    l.find? p = some a ↔ p a = true ∧ a ∈ l ∧ ∀ b ∈ l.takeWhile (· != a), p b = false := by
  induction l with
  | nil => simp
  | cons x l ih =>
    rw [List.find?_cons, List.takeWhile_cons]
    by_cases same : x = a
    · subst same
      cases known : p x with
      | false => simp [ih, known]
      | true => simp
    · cases known : p x <;> simp [known, same, Ne.symm same, ih]

namespace Hierarchy
variable {h h' h'' : Hierarchy} {c display j k p root : NodeId} {ks : List NodeId}
  {position : Position} {data : NodeData}

/-- The root tasks of a display above one of them. -/
def rootsAbove (h : Hierarchy) (display root : NodeId) : List NodeId :=
  (h.rootTasks display).takeWhile (· != root)

/-- A root task in which something runs has the focus if it is not pinned, and nothing runs above
it but in a pinned one. -/
theorem focusedRootTask?_eq_some_iff (runs : h.hasRunningActivity root = true) :
    h.focusedRootTask? display = some root ↔
      h.mode root ≠ .pinned ∧ root ∈ h.rootTasks display ∧
        ∀ above ∈ h.rootsAbove display root,
          h.mode above ≠ .pinned → h.hasRunningActivity above = false := by
  have first : h.focusedRootTask? display = some root ↔ (h.rootTasks display).find?
      (fun k => decide ((h.mode k != .pinned) = true ∧ h.hasRunningActivity k = true)) =
        some root := by
    rw [← List.find?_filter, focusedRootTask?]
    constructor
    · intro found
      rcases Option.or_eq_some_iff.mp found with running | ⟨idle, top⟩
      · exact running
      · have nothing := List.find?_eq_none.mp idle root (List.mem_of_head? top)
        exact absurd runs nothing
    · intro running
      rw [running, Option.some_or]
  rw [first, find?_eq_some_iff_takeWhile, ← rootsAbove]
  simp [runs]

/-- The node is of its kind, in its place, and runs, as it was, did and does. -/
structure SamePost (h h' : Hierarchy) (k : NodeId) : Prop where
  tag : h'.tag? k = h.tag? k
  parent : h'.parent? k = h.parent? k
  ownMode : h'.ownMode? k = h.ownMode? k
  runs : h'.activityHas ActivityRecord.isRunning k = h.activityHas ActivityRecord.isRunning k

structure Undisturbed (h h' : Hierarchy) : Prop where
  next : h.nodes.next ≤ h'.nodes.next
  displays : h'.displays = h.displays
  /-- What is gone does not come back. -/
  gone : ∀ k, k.index < h.nodes.next → h.contains k = false → h'.contains k = false
  /-- Nothing goes but activities. -/
  lasts : ∀ k, h.contains k = true → h.isActivity k = false → h'.contains k = true
  same : ∀ k, h.contains k = true → h'.contains k = true → SamePost h h' k
  roots : ∀ display, (h.rootTasks display).Sublist (h'.rootTasks display)

theorem SamePost.of_data? (parent : h'.parent? k = h.parent? k) (same : h'.data? k = h.data? k) :
    SamePost h h' k where
  tag := by rw [tag?, tag?, same]
  parent := parent
  ownMode := by rw [ownMode?, ownMode?, same]
  runs := by rw [activityHas, activityHas, activity?_of_data? same]

theorem SamePost.trans (first : SamePost h h' k) (second : SamePost h' h'' k) :
    SamePost h h'' k where
  tag := second.tag.trans first.tag
  parent := second.parent.trans first.parent
  ownMode := second.ownMode.trans first.ownMode
  runs := second.runs.trans first.runs

theorem SamePost.isActivity (same : SamePost h h' k) : h'.isActivity k = h.isActivity k :=
  isActivity_congr same.tag

namespace Undisturbed

theorem refl (h : Hierarchy) : Undisturbed h h where
  next := le_rfl
  displays := rfl
  gone _ _ := id
  lasts _ live _ := live
  same _ _ _ := .of_data? rfl rfl
  roots _ := .refl _

theorem trans (first : Undisturbed h h') (second : Undisturbed h' h'') : Undisturbed h h'' where
  next := first.next.trans second.next
  displays := second.displays.trans first.displays
  gone k old stale := second.gone k (old.trans_le first.next) (first.gone k old stale)
  lasts k live other := by
    have between := first.lasts k live other
    exact second.lasts k between ((first.same k live between).isActivity.trans other)
  same k live later := by
    cases between : h'.contains k with
    | true => exact (first.same k live between).trans (second.same k between later)
    | false =>
      have old := (index_lt_next live).trans_le first.next
      rw [second.gone k old between] at later
      contradiction
  roots display := (first.roots display).trans (second.roots display)

end Undisturbed

/-- Where no node loses a child, and no task ceases to be one, the root tasks stay in order. -/
theorem sublist_rootTasks (kids : ∀ p, (h.children p).Sublist (h'.children p))
    (tasks : ∀ k, h.isTask k = true → h'.isTask k = true) (display : NodeId) :
    (h.rootTasks display).Sublist (h'.rootTasks display) := by
  refine List.Sublist.trans ?_ ((kids display).reverse.flatMap _)
  refine List.Sublist.flatMap_right _ fun area _ => ?_
  exact (List.monotone_filter_right _ tasks).trans ((kids area).reverse.filter h'.isTask)

theorem undisturbed_of_sameFrame (frame : SameFrame h h') (next : h'.nodes.next = h.nodes.next)
    (own : ∀ k, h'.ownMode? k = h.ownMode? k)
    (runs : ∀ k, h'.activityHas ActivityRecord.isRunning k =
      h.activityHas ActivityRecord.isRunning k) : Undisturbed h h' where
  next := next.ge
  displays := frame.displays
  gone k _ stale := by rwa [contains_eq_isSome_tag?, frame.tag, ← contains_eq_isSome_tag?]
  lasts k live _ := by rwa [contains_eq_isSome_tag?, frame.tag, ← contains_eq_isSome_tag?]
  same k _ _ := ⟨frame.tag k, frame.parent k, own k, runs k⟩
  roots := sublist_rootTasks (fun p => (frame.children p).symm ▸ .refl _)
    fun k task => (isTask_congr (frame.tag k)).trans task

theorem SameView.undisturbed (same : SameView h h') : Undisturbed h h' := by
  refine undisturbed_of_sameFrame (Visibility.sameFrame_of_sameView same) same.next (fun k => ?_)
    fun k => ?_
  · rw [ownMode?_eq_map, ownMode?_eq_map, same.task?]
  · rw [same.activityHas ActivityRecord.isRunning_sight]

theorem undisturbed_modifyActivity {f : ActivityRecord → ActivityRecord}
    (keeps : ∀ r, h.activity? j = some r → (f r).isRunning = r.isRunning) :
    Undisturbed h (h.modifyActivity j f) :=
  undisturbed_of_sameFrame (sameFrame_modifyActivity j f) (Arena.next_modify ..)
    (bind_data?_modifyActivity (fun _ d => by cases d <;> rfl) h j f)
    fun k => isRunning_modifyActivity keeps k

theorem undisturbed_modifyTask (h : Hierarchy) (j : NodeId) {f : Task → Task}
    (keeps : ∀ t, (f t).id = t.id ∧ (f t).mode = t.mode) : Undisturbed h (h.modifyTask j f) := by
  refine undisturbed_of_sameFrame (sameFrame_modifyTask j fun t => (keeps t).1)
    (Arena.next_modify ..) (fun k => ?_) fun k => ?_
  · rw [ownMode?, modifyTask, data?_modifyData, ownMode?]
    split
    · cases h.data? k with
      | none => rfl
      | some d => cases d <;> simp [NodeData.mapTask, NodeData.task?, keeps]
    · rfl
  · rw [activityHas, activityHas, activity?, modifyTask, data?_modifyData, activity?]
    split
    · cases h.data? k with
      | none => rfl
      | some d => cases d <;> rfl
    · rfl

theorem SameNodes.undisturbed (same : SameNodes h h') (next : h.nodes.next ≤ h'.nodes.next) :
    Undisturbed h h' where
  next := next
  displays := same.displays
  gone k _ stale := (same.contains k).trans stale
  lasts k live _ := (same.contains k).trans live
  same k _ _ := .of_data? (same.parent? k) (same.data? k)
  roots := sublist_rootTasks (fun p => (same.children p).symm ▸ .refl _)
    fun k task => (isTask_congr (same.tag? k)).trans task

theorem undisturbed_insertUnder (added : h.insertUnder p data position = .ok h') :
    Undisturbed h h' := by
  have kept : ∀ k, h.contains k = true → h'.data? k = h.data? k := fun k live => by
    rw [data?_insertUnder added, if_neg (ne_nextId_of_contains live)]
  refine ⟨?_, ?_, fun k old stale => ?_, fun k live _ => ?_, fun k live _ => ?_,
    sublist_rootTasks (fun q => ?_) fun k task => ?_⟩
  · rw [next_insertUnder added]
    exact Nat.le_succ _
  · obtain ⟨_, _, _, _, _, rfl⟩ := insertUnder_eq_ok_iff.mp added
    exact displays_insert h data
  · have other : k ≠ h.nextId := by
      rintro rfl
      exact Nat.lt_irrefl _ old
    rwa [contains_eq_isSome_data?, data?_insertUnder added, if_neg other,
      ← contains_eq_isSome_data?]
  · exact (contains_congr (kept k live)).trans live
  · exact .of_data? (parent?_insertUnder added (ne_nextId_of_contains live)) (kept k live)
  · obtain ⟨_, _, _, _, _, rfl⟩ := insertUnder_eq_ok_iff.mp added
    rw [children_link, ← children_insert h data q]
    split
    · rename_i here
      exact here.1 ▸ position.sublist_place ..
    · exact .refl _
  · exact isTask_of_data? (kept k (contains_of_isTask task)) task

theorem undisturbed_createTask {spec : TaskSpec}
    (made : h.createTask p spec position = .ok (h', c)) : Undisturbed h h' := by
  obtain ⟨_, added, rfl, _⟩ := createTask_eq_ok_iff.mp made
  obtain ⟨next, displays, gone, lasts, same, roots⟩ := undisturbed_insertUnder added
  exact ⟨next, displays, gone, lasts, fun k live later => ⟨(same k live later).tag,
    (same k live later).parent, (same k live later).ownMode, (same k live later).runs⟩, roots⟩

theorem undisturbed_addActivity {r : ActivityRecord}
    (made : h.addActivity p r position = .ok (h', c)) : Undisturbed h h' :=
  undisturbed_insertUnder (addActivity_eq_ok_iff.mp made).1

theorem Cleared.undisturbed (cleared : Cleared ks h h')
    (leaves : ∀ k ∈ ks, h.isActivity k = true) (displays : h'.displays = h.displays) :
    Undisturbed h h' := by
  refine ⟨cleared.next.ge, displays, fun k _ stale => ?_, fun k live other => ?_,
    fun k live later => ?_, fun display => ?_⟩
  · rw [cleared.contains, stale, Bool.false_and]
  · have stays : k ∉ ks := fun gone => by simp [leaves k gone] at other
    simp [cleared.contains, live, stays]
  · have stays : k ∉ ks := by
      rw [cleared.contains] at later
      simp_all
    exact .of_data? (by rw [cleared.parent?, if_neg stays]) (by rw [cleared.data?, if_neg stays])
  · have tasks : ∀ area, (h'.children area).reverse.filter h'.isTask =
        (h.children area).reverse.filter h.isTask := fun area => by
      rw [cleared.children, ← List.filter_reverse, List.filter_filter]
      refine List.filter_congr fun k _ => ?_
      rw [isTask, isTask, task?, task?, cleared.data?]
      by_cases gone : k ∈ ks
      · have small := isTask_of_isActivity (leaves k gone)
        rw [isTask, task?] at small
        simp [gone, small]
      · simp [gone]
    rw [rootTasks, rootTasks, funext tasks, cleared.children, ← List.filter_reverse]
    -- an activity has no root tasks in it, so it is not missed among the areas
    induction (h.children display).reverse with
    | nil => exact .slnil
    | cons area areas ih =>
      by_cases gone : area ∈ ks
      · simpa [gone, cleared.childless area gone] using ih
      · simpa [gone] using ih

namespace Undisturbed
variable (undisturbed : Undisturbed h h')
include undisturbed

theorem samePost_of_isTask (task : h.isTask k = true) : SamePost h h' k := by
  have live : h.contains k = true := contains_of_isTask task
  refine undisturbed.same k live (undisturbed.lasts k live (Bool.eq_false_iff.mpr fun leaf => ?_))
  rw [isTask_of_isActivity leaf] at task
  contradiction

theorem inside_of (forest : Forest h) (inside : Inside h' k p) (live : h.contains k = true) :
    Inside h k p := by
  induction inside with
  | @child k p placed =>
    have same := undisturbed.same k live (contains_of_parent? placed)
    exact .child (same.parent.symm.trans placed)
  | @deeper k q p placed _ ih =>
    have same := undisturbed.same k live (contains_of_parent? placed)
    have placed := same.parent.symm.trans placed
    exact .deeper placed (ih (forest.contains_parent placed))

theorem inside (forest' : Forest h') (inside : Inside h k p) (later : h'.contains k = true) :
    Inside h' k p := by
  induction inside with
  | @child k p placed =>
    exact .child ((undisturbed.same k (contains_of_parent? placed) later).parent.trans placed)
  | @deeper k q p placed _ ih =>
    have same := undisturbed.same k (contains_of_parent? placed) later
    have placed := same.parent.trans placed
    exact .deeper placed (ih (forest'.contains_parent placed))

theorem isRootTask_of (forest : Forest h) (isRoot : h'.isRootTask k = true)
    (live : h.contains k = true) : h.isRootTask k = true := by
  have task := (Bool.and_eq_true_iff.mp isRoot).1
  obtain ⟨area, under, isArea⟩ := exists_area_of_isRootTask isRoot
  have same := undisturbed.same k live (contains_of_isTask task)
  have placed := same.parent.symm.trans under
  have later : h'.contains area = true := by
    rw [contains_eq_isSome_tag?, isSome_area?_iff.mp isArea, Option.isSome_some]
  have sameArea := undisturbed.same area (forest.contains_parent placed) later
  rw [isRootTask, (isTask_congr same.tag).symm.trans task, placed, Option.bind_some,
    ← isSome_area?_congr sameArea.tag, isArea]
  rfl

variable (forest : Forest h) (forest' : Forest h')
include forest forest'

theorem mem_rootTasks_of (member : k ∈ h'.rootTasks display) (live : h.contains k = true) :
    k ∈ h.rootTasks display := by
  obtain ⟨task, area, onDisplay, inArea⟩ := mem_rootTasks.mp member
  obtain ⟨later, under⟩ := forest'.child inArea
  obtain ⟨laterArea, above⟩ := forest'.child onDisplay
  have same := undisturbed.same k live later
  have under := same.parent.symm.trans under
  have above := (undisturbed.same area (forest.contains_parent under) laterArea).parent.symm.trans
    above
  exact mem_rootTasks.mpr ⟨(isTask_congr same.tag).symm.trans task, area,
    forest.mem_children_iff.mpr above, forest.mem_children_iff.mpr under⟩

theorem mode_eq_pinned_iff (shown : (h.display? display).isSome = true)
    (member : k ∈ h.rootTasks display) : h'.mode k = .pinned ↔ h.mode k = .pinned := by
  obtain ⟨area, under, isArea⟩ := forest.exists_area_of_mem_rootTasks shown member
  have same := undisturbed.samePost_of_isTask (mem_rootTasks.mp member).1
  have under' := same.parent.trans under
  have sameArea := undisturbed.same area (forest.contains_parent under)
    (forest'.contains_parent under')
  rw [forest'.mode_eq_pinned_iff under' ((isSome_area?_congr sameArea.tag).trans isArea),
    forest.mode_eq_pinned_iff under isArea, same.ownMode]

/-- The focus stays where it is while something runs there, and nothing comes to run above it where
nothing ran. -/
theorem focusedRootTask? (shown : (h.display? display).isSome = true)
    (focus : h.focusedRootTask? display = some root) (runs : h.hasRunningActivity root = true)
    (still : h'.hasRunningActivity root = true)
    (low : ∀ above ∈ h'.rootsAbove display root, h'.mode above ≠ .pinned →
      h.hasRunningActivity above = false → h'.hasRunningActivity above = false) :
    h'.focusedRootTask? display = some root := by
  obtain ⟨plain, member, order⟩ := (focusedRootTask?_eq_some_iff runs).mp focus
  refine (focusedRootTask?_eq_some_iff still).mpr ⟨?_, (undisturbed.roots display).subset member,
    fun above higher free => ?_⟩
  · rwa [Ne, undisturbed.mode_eq_pinned_iff forest forest' shown member]
  · refine low above higher free (Bool.eq_false_iff.mpr fun ran => ?_)
    -- a root task that ran above it before was pinned, and is so now
    have live : h.contains above = true := by
      obtain ⟨x, rfl | within, held⟩ := forest.hasRunningActivity_iff.mp ran
      · exact contains_of_activityHas held
      · exact forest.contains_of_inside within
    have listed : above ∈ h'.rootTasks display := List.takeWhile_subset _ higher
    have old := undisturbed.mem_rootTasks_of forest forest' listed live
    have higher := mem_takeWhile_of_sublist (undisturbed.roots display)
      (forest'.nodup_rootTasks display) old higher
    rw [Ne, undisturbed.mode_eq_pinned_iff forest forest' shown old] at free
    rw [order above higher free] at ran
    contradiction

end Undisturbed

end Hierarchy
end WindowHost
