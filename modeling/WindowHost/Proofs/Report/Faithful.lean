import WindowHost.Hierarchy.Snapshots
import WindowHost.Proofs.Hierarchy.Front

/-! Snapshots show the hierarchy as it is. The snapshot of a display has the shape of all that lies
on it, each node in it tells the data of the node that it stands for, and the marks lead from the
display at the front to the activity that runs on top. A walk over the snapshot, lowest node
first, meets the activities in the opposite order of a search from the top: the two differ only in
when they come to a node that holds others, and an activity holds nothing. -/
namespace WindowHost

open List (Forall₂)

namespace Snapshot

/-- What lies deeper on the stack is met after all that lies above it. -/
theorem walk_append (front back : List Snapshot) :
    walk (front ++ back) = walk front ++ walk back := by
  fun_induction walk front with
  | case1 => rfl
  | case2 s stack ih =>
    rw [push_reverse] at ih ⊢
    rw [List.cons_append, walk, push_reverse, ← List.append_assoc, ih, List.cons_append]

theorem walk_cons (s : Snapshot) (stack : List Snapshot) :
    walk (s :: stack) = s :: (walk s.children ++ walk stack) := by
  rw [walk, push_reverse, walk_append]

end Snapshot

namespace Hierarchy
variable {h : Hierarchy} {display k root x : NodeId} {s : Snapshot} {L : Layers}

/-- The nodes with the focus: the display at the front, its focused root task, and what lies on the
way from that root task down to the activity that runs on top in it. -/
inductive OnFocusPath (h : Hierarchy) : NodeId → Prop where
  | display {display : NodeId} (front : h.topFocusedDisplay? = some display) :
      OnFocusPath h display
  | rootTask {display root : NodeId} (front : h.topFocusedDisplay? = some display)
      (focus : h.focusedRootTask? display = some root) : OnFocusPath h root
  | between {display root top k : NodeId} (front : h.topFocusedDisplay? = some display)
      (focus : h.focusedRootTask? display = some root)
      (runs : h.topRunningActivity? root = some top) (above : k = top ∨ Inside h top k)
      (within : k = root ∨ Inside h k root) : OnFocusPath h k

/-- A climb up to a node, and no further, meets what lies in that node. -/
theorem Climb.mem_takeWhile {above : List NodeId} (climb : Climb h x above)
    (rooted : ∀ j, Rooted h j) (inside : Inside h x root) :
    k ∈ above.takeWhile (· != root) ↔ Inside h x k ∧ Inside h k root := by
  induction above generalizing x with
  | nil => exact absurd inside (not_inside_of_root climb)
  | cons p above ih =>
    obtain ⟨placed, further⟩ := climb
    rw [inside_iff_of_parent placed]
    by_cases stop : p = root
    · have apart : ¬ Inside h p p := (rooted p).not_inside_self
      rw [List.takeWhile_cons_of_neg (by simp [stop]), ← stop]
      constructor
      · nofun
      · rintro ⟨rfl | beyond, back⟩
        · exact absurd back apart
        · exact absurd (beyond.trans back) apart
    · have onward : Inside h p root := ((inside_iff_of_parent placed).mp inside).resolve_left stop
      rw [List.takeWhile_cons_of_pos (by simp [stop]), List.mem_cons, ih further onward]
      constructor
      · rintro (rfl | ⟨beyond, back⟩)
        · exact ⟨.inl rfl, onward⟩
        · exact ⟨.inr beyond, back⟩
      · rintro ⟨rfl | beyond, back⟩
        · exact .inl rfl
        · exact .inr ⟨beyond, back⟩

section focus
variable (forest : Forest h)
include forest

theorem Forest.inside_of_focus (focus : h.focusedRootTask? display = some root)
    (runs : h.topRunningActivity? root = some x) : Inside h x root := by
  have member := mem_rootTasks_of_focusedRootTask? focus
  exact forest.inside_of_topRunningActivity?
    (isFragmentLike_of_isTask (mem_rootTasks.mp member).1) runs

theorem Forest.onFocusPath_of_mem (member : k ∈ h.focusPath) : OnFocusPath h k := by
  unfold focusPath at member
  split at member
  · contradiction
  · next display front =>
    split at member
    · rw [List.mem_singleton.mp member]
      exact .display front
    · next root focus =>
      split at member
      · rcases List.mem_pair.mp member with rfl | rfl
        · exact .display front
        · exact .rootTask front focus
      · next top runs =>
        have deep := forest.inside_of_focus focus runs
        have way := (forest.climb_ancestors top).mem_takeWhile (k := k) forest.rooted deep
        simp only [List.mem_cons, way] at member
        rcases member with rfl | rfl | rfl | ⟨above, within⟩
        · exact .display front
        · exact .rootTask front focus
        · exact .between front focus runs (.inl rfl) (.inr deep)
        · exact .between front focus runs (.inr above) (.inr within)

theorem Forest.mem_focusPath : k ∈ h.focusPath ↔ OnFocusPath h k := by
  refine ⟨forest.onFocusPath_of_mem, fun path => ?_⟩
  cases path with
  | display front =>
    simp only [focusPath, front]
    split
    · exact List.mem_cons_self
    · split <;> exact List.mem_cons_self
  | rootTask front focus =>
    simp only [focusPath, front, focus]
    split <;> exact List.mem_cons_of_mem _ List.mem_cons_self
  | between front focus runs above within =>
    have deep := forest.inside_of_focus focus runs
    have way := (forest.climb_ancestors _).mem_takeWhile (k := k) forest.rooted deep
    simp only [focusPath, front, focus, runs, List.mem_cons, way]
    rcases above with same | above
    · exact .inr (.inr (.inl same))
    · rcases within with same | within
      · exact .inr (.inl same)
      · exact .inr (.inr (.inr ⟨above, within⟩))

end focus

/-- What a snapshot tells about a node, whether it has the focus and what it holds apart. A task
shows as a root task just when it lies directly in a display area. -/
inductive Portrays (h : Hierarchy) (k : NodeId) : Snapshot → Prop where
  | display {d : Display} {focused : Bool} {children : List Snapshot}
      (held : h.display? k = some d) :
      Portrays h k (.node .display (toString d.id.value.toNat) focused none none none children)
  | area {a : DisplayArea} {focused : Bool} {children : List Snapshot}
      (held : h.area? k = some a) :
      Portrays h k (.node .taskDisplayArea a.name focused none none none children)
  | rootTask {t : Task} {p : NodeId} {a : DisplayArea} {focused : Bool} {children : List Snapshot}
      (held : h.task? k = some t) (placed : h.parent? k = some p) (area : h.area? p = some a) :
      Portrays h k (.node .rootTask t.id.toText focused (some t.mode.name)
        (t.adjacent.map h.label) none children)
  | task {t : Task} {focused : Bool} {children : List Snapshot} (held : h.task? k = some t)
      (nested : ∀ p, h.parent? k = some p → h.area? p = none) :
      Portrays h k (.node .task t.id.toText focused none (t.adjacent.map h.label) none children)
  | fragment {f : TaskFragment} {focused : Bool} {children : List Snapshot}
      (held : h.fragment? k = some f) :
      Portrays h k (.node .taskFragment (h.label k) focused none (f.adjacent.map h.label) none
        children)
  | activity {r : ActivityRecord} {focused : Bool} {children : List Snapshot}
      (held : h.activity? k = some r) :
      Portrays h k (.node .activity r.component.toText focused none none
        (some ⟨r.state, r.visibleRequested, r.finishing, r.attached⟩) children)

/-- A snapshot of a node and of all that lies in it: every child has its own, in the same order. -/
inductive Pictures (h : Hierarchy) : NodeId → Snapshot → Prop where
  | node {k : NodeId} {s : Snapshot} (itself : Portrays h k s)
      (focus : s.focused = true ↔ OnFocusPath h k)
      (inside : Forall₂ (Pictures h) (h.children k) s.children) : Pictures h k s

theorem isRootTask_eq_true_iff : h.isRootTask k = true ↔
    h.isTask k = true ∧ ∃ p a, h.parent? k = some p ∧ h.area? p = some a := by
  rw [isRootTask, Bool.and_eq_true_iff, Option.isSome_iff_exists]
  simp only [Option.bind_eq_some_iff]
  exact and_congr_right fun _ => exists_comm

/-- The snapshot of a node is put together from its data, its mark and the snapshots it is given. -/
theorem snapshotNode_spec (live : h.contains k = true) (focused : List NodeId)
    (children : List Snapshot) :
    Portrays h k (h.snapshotNode focused k children) ∧
      (h.snapshotNode focused k children).focused = focused.contains k ∧
      (h.snapshotNode focused k children).children = children := by
  obtain ⟨d, held⟩ := Option.isSome_iff_exists.mp (contains_eq_isSome_data? h k ▸ live)
  unfold snapshotNode
  rw [held]
  cases d with
  | display d => exact ⟨.display (by simp [display?, held, NodeData.display?]), rfl, rfl⟩
  | area a => exact ⟨.area (by simp [area?, held, NodeData.area?]), rfl, rfl⟩
  | fragment f => exact ⟨.fragment (by simp [fragment?, held, NodeData.fragment?]), rfl, rfl⟩
  | activity r => exact ⟨.activity (by simp [activity?, held, NodeData.activity?]), rfl, rfl⟩
  | task t =>
    have isTask : h.task? k = some t := by simp [task?, held, NodeData.task?]
    dsimp only
    split
    · next isRoot =>
      obtain ⟨_, p, a, placed, area⟩ := isRootTask_eq_true_iff.mp isRoot
      exact ⟨.rootTask isTask placed area, rfl, rfl⟩
    · next nested =>
      refine ⟨.task isTask fun p placed => ?_, rfl, rfl⟩
      apply Option.eq_none_iff_forall_not_mem.mpr
      intro a area
      exact nested (isRootTask_eq_true_iff.mpr
        ⟨Option.isSome_of_eq_some isTask, p, a, placed, area⟩)

theorem pictures_snapshotsOf (forest : Forest h) (faithful : L.Faithful h)
    (live : ∀ k ∈ L.tops, h.contains k = true) :
    Forall₂ (Pictures h) L.tops.reverse (h.snapshotsOf h.focusPath L) := by
  induction L with
  | nil => exact .nil
  | node k inside below inner rest =>
    obtain ⟨shown, deep, further⟩ := faithful
    obtain ⟨here, lower⟩ := List.forall_mem_cons.mp live
    have held : Forall₂ (Pictures h) (h.children k) (h.snapshotsOf h.focusPath inside) := by
      have children : inside.tops.reverse = h.children k := by rw [shown, List.reverse_reverse]
      rw [← children]
      apply inner deep
      intro c member
      rw [shown, List.mem_reverse] at member
      exact (forest.child member).1
    obtain ⟨portrayed, marked, given⟩ :=
      snapshotNode_spec here h.focusPath (h.snapshotsOf h.focusPath inside)
    rw [Layers.tops, List.reverse_cons, snapshotsOf]
    refine List.rel_append (rest further lower) (.cons (.node portrayed ?_ ?_) .nil)
    · rw [marked, List.contains_iff_mem, forest.mem_focusPath]
    · rwa [given]

/-- A walk over the snapshots of a stack goes through the stack from below. -/
theorem portrays_walk (focused : List NodeId) (live : ∀ k ∈ L.ids, h.contains k = true) :
    Forall₂ (Portrays h) L.rising (Snapshot.walk (h.snapshotsOf focused L)) := by
  induction L with
  | nil =>
    rw [snapshotsOf, Snapshot.walk]
    exact .nil
  | node k inside below inner rest =>
    obtain ⟨here, others⟩ := List.forall_mem_cons.mp live
    obtain ⟨within, lower⟩ := List.forall_mem_append.mp others
    obtain ⟨portrayed, -, children⟩ :=
      snapshotNode_spec here focused (h.snapshotsOf focused inside)
    rw [Layers.rising, snapshotsOf, Snapshot.walk_append, Snapshot.walk_cons, children,
      Snapshot.walk, List.append_nil]
    exact List.rel_append (rest lower) (.cons portrayed (inner within))

/-- From below and from the top the activities come in opposite orders. -/
theorem Forest.filter_rising (forest : Forest h) (faithful : L.Faithful h) :
    L.rising.filter h.isActivity = (L.ids.filter h.isActivity).reverse := by
  induction L with
  | nil => rfl
  | node k inside below inner rest =>
    obtain ⟨shown, deep, further⟩ := faithful
    rw [Layers.rising, Layers.ids, List.filter_append, rest further]
    by_cases leaf : h.isActivity k = true
    · have childless := forest.childless_of_activity (isActivity_eq_true_iff.mp leaf)
      have empty : inside = .nil :=
        Layers.eq_nil_of_tops (by rw [shown, childless, List.reverse_nil])
      simp [empty, leaf, Layers.rising, Layers.ids]
    · simp [leaf, inner deep]

theorem Portrays.isActivity_iff (portrayed : Portrays h k s) :
    h.isActivity k = true ↔ (s.kind == .activity) = true := by
  cases found : h.data? k with
  | none =>
    cases portrayed <;> simp_all [display?, area?, task?, fragment?, activity?]
  | some d =>
    cases portrayed <;> cases d <;>
      simp_all [display?, area?, task?, fragment?, activity?, isActivity, NodeData.display?,
        NodeData.area?, NodeData.task?, NodeData.fragment?, NodeData.activity?, Snapshot.kind]

/-- A snapshot tells of an activity its component, its state and its flags. -/
def TellsActivity (h : Hierarchy) (k : NodeId) (s : Snapshot) : Prop :=
  ∃ r, h.activity? k = some r ∧ s.label = r.component.toText ∧
    s.activity = some ⟨r.state, r.visibleRequested, r.finishing, r.attached⟩

theorem Portrays.tellsActivity (portrayed : Portrays h k s) (leaf : h.isActivity k = true) :
    TellsActivity h k s := by
  rw [portrayed.isActivity_iff] at leaf
  cases portrayed with
  | activity held => exact ⟨_, held, rfl, rfl⟩
  | _ => contradiction

theorem WellFormed.contains_display (formed : h.WellFormed) (listed : display ∈ h.displays) :
    h.contains display = true := by
  obtain ⟨d, held⟩ := formed.listed.mp listed
  obtain ⟨data, found, _⟩ := Option.bind_eq_some_iff.mp held
  exact contains_of_data? found

/-- The snapshot of one display. -/
def snapshotOf (h : Hierarchy) (display : NodeId) : Snapshot :=
  h.snapshotNode h.focusPath display (h.snapshotsOf h.focusPath (h.contents display))

theorem snapshotsOf_subtree (live : h.contains display = true) :
    h.snapshotsOf h.focusPath (h.subtree display) = [h.snapshotOf display] := by
  simp [subtree, live, snapshotsOf, snapshotOf]

theorem WellFormed.snapshots_eq (formed : h.WellFormed) :
    h.snapshots = h.displays.map h.snapshotOf := by
  rw [snapshots, List.map_eq_flatMap]
  apply List.flatMap_congr
  intro display listed
  exact snapshotsOf_subtree (formed.contains_display listed)

theorem Forest.pictures_snapshotOf (forest : Forest h) (live : h.contains display = true) :
    Pictures h display (h.snapshotOf display) := by
  have shown := pictures_snapshotsOf forest (forest.faithful_subtree display)
  rw [snapshotsOf_subtree live, subtree, if_pos live] at shown
  have each := shown (List.forall_mem_singleton.mpr live)
  exact (List.forall₂_cons.mp each).1

theorem Forest.tellsActivity_snapshotOf (forest : Forest h) (live : h.contains display = true) :
    Forall₂ (TellsActivity h) (h.activities display).reverse
      ((h.snapshotOf display).nodes.filter (·.kind == .activity)) := by
  have walked : Forall₂ (Portrays h) (h.subtree display).rising (h.snapshotOf display).nodes := by
    rw [Snapshot.nodes, ← snapshotsOf_subtree live]
    apply portrays_walk
    intro k member
    rcases (forest.mem_ids_subtree live).mp member with rfl | within
    · exact live
    · obtain ⟨p, placed⟩ := within.parent
      exact contains_of_parent? placed
  have leaves := List.rel_filter (fun _ _ portrayed => portrayed.isActivity_iff) walked
  rw [forest.filter_rising (forest.faithful_subtree display)] at leaves
  have each : ∀ k ∈ (h.activities display).reverse, h.isActivity k = true :=
    fun k member => (List.mem_filter.mp (List.mem_reverse.mp member)).2
  exact ((List.forall₂_and_left _ _).mpr ⟨each, leaves⟩).imp fun _ _ both =>
    both.2.tellsActivity both.1

/-- A snapshot of a display: a picture of all that lies on it. A walk over it meets the activities
of the display from below, each with its component, state and flags, and counts them all. -/
structure IsSnapshotOf (h : Hierarchy) (display : NodeId) (s : Snapshot) : Prop where
  pictures : Pictures h display s
  activities : Forall₂ (TellsActivity h) (h.activities display).reverse
    (s.nodes.filter (·.kind == .activity))
  count : s.activityCount = (h.activities display).length

/-- There is one snapshot for each display, in the order of the displays. -/
theorem WellFormed.isSnapshotOf_displays (formed : h.WellFormed) :
    Forall₂ (IsSnapshotOf h) h.displays h.snapshots := by
  rw [formed.snapshots_eq, List.forall₂_map_right_iff, List.forall₂_same]
  intro display listed
  have live := formed.contains_display listed
  have told := formed.forest.tellsActivity_snapshotOf live
  refine ⟨formed.forest.pictures_snapshotOf live, told, ?_⟩
  rw [Snapshot.activityCount, ← told.length_eq, List.length_reverse]

/-- A display with a stopped call, and in front of it one with a resumed mailbox in a task of its
own above a draft that is finishing. -/
def mailAboveDraft : Hierarchy :=
  let activity (package name : String) (state : ActivityState) : ActivityRecord :=
    { ActivityRecord.create { component := ⟨package, name⟩, uid := ⟨10010⟩ } {} with
      state := state, attached := true }
  ([.addDisplay ⟨0⟩ ⟨0, 0, 1920, 1080⟩, .createTask ⟨2⟩ {} .top,
    .addActivity ⟨3⟩ (activity "phone" "Call" .stopped) .top, .addDisplay ⟨1⟩ ⟨0, 0, 800, 600⟩,
    .createTask ⟨6⟩ {} .top,
    .addActivity ⟨7⟩ { activity "mail" "Draft" .paused with finishing := true } .top,
    .createTask ⟨7⟩ {} .top,
    .addActivity ⟨9⟩ { activity "mail" "Inbox" .resumed with visibleRequested := true } .top] :
    List Mutation).foldl mutate empty

/-- The focus is on the mailbox. The area of the display and the draft are not on the way to it. -/
theorem isSnapshotOf_displays_mail :
    mailAboveDraft.WellFormed ∧
      (mailAboveDraft.snapshots.map fun s => s.nodes.map fun n => (n.kind, n.focused)) =
        [[(.display, false), (.taskDisplayArea, false), (.rootTask, false), (.activity, false)],
          [(.display, true), (.taskDisplayArea, false), (.rootTask, true), (.activity, false),
            (.task, true), (.activity, true)]] ∧
      (mailAboveDraft.snapshots.map fun s =>
          s.nodes.filterMap fun n => n.activity.map fun told => (n.label, told)) =
        [[("phone/Call", ⟨.stopped, false, false, true⟩)],
          [("mail/Draft", ⟨.paused, false, true, true⟩),
            ("mail/Inbox", ⟨.resumed, true, false, true⟩)]] ∧
      Forall₂ (IsSnapshotOf mailAboveDraft) mailAboveDraft.displays mailAboveDraft.snapshots := by
  have formed : mailAboveDraft.WellFormed := wellFormed_empty.foldl_mutate _
  exact ⟨formed, by decide +kernel, by decide +kernel, formed.isSnapshotOf_displays⟩

end Hierarchy
end WindowHost
