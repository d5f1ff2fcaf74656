import WindowHost.Proofs.Hierarchy.Foremost

/-! What lies at the front of a display stays there while activities go and records change, and
what runs there is what the hierarchy answers when it is asked for the focus. -/
namespace WindowHost.Hierarchy
variable {h h' : Hierarchy} {area display j k p root x : NodeId} {ks : List NodeId}

theorem Foremost.stays (foremost : Foremost h root k) (childless : ∀ k ∈ ks, h.children k = [])
    (stays : k ∉ ks) : root ∉ ks := by
  induction foremost with
  | self => exact stays
  | nested _ _ last _ ih =>
    refine ih fun gone => ?_
    simp [childless _ gone] at last

theorem Cleared.getLast? (cleared : Cleared ks h h') (last : (h.children p).getLast? = some k)
    (stays : k ∉ ks) : (h'.children p).getLast? = some k := by
  obtain ⟨lower, shown⟩ := List.getLast?_eq_some_iff.mp last
  rw [cleared.children, shown, List.filter_append, List.filter_cons_of_pos (by simpa using stays)]
  simp

theorem Cleared.isFragmentLike (cleared : Cleared ks h h') (stays : k ∉ ks) :
    h'.isFragmentLike k = h.isFragmentLike k :=
  isFragmentLike_of_data? (by rw [cleared.data?, if_neg stays])

theorem Cleared.foremost (cleared : Cleared ks h h') (foremost : Foremost h root k)
    (stays : k ∉ ks) : Foremost h' root k := by
  induction foremost with
  | self => exact .self
  | @nested k p placed container last _ ih =>
    have outer : p ∉ ks := by
      intro gone
      simp [cleared.childless p gone] at last
    refine .nested ?_ ?_ (cleared.getLast? last stays) (ih outer)
    · rw [cleared.parent?, if_neg stays, placed]
    · exact (cleared.isFragmentLike outer).trans container

theorem AtFront.cleared (front : AtFront h display root k) (cleared : Cleared ks h h')
    (stays : k ∉ ks) (displays : h'.displays = h.displays) : AtFront h' display root k := by
  obtain ⟨container, foremost, ⟨area, placeable, onDisplay, under, last⟩, top⟩ := front
  have low := foremost.stays cleared.childless stays
  have high : area ∉ ks := by
    intro gone
    simp [cleared.childless area gone] at last
  refine ⟨(cleared.isFragmentLike stays).trans container, cleared.foremost foremost stays,
    ⟨area, ?_, ?_, ?_, cleared.getLast? last low⟩, ?_⟩
  · rw [area?, cleared.data?, if_neg high]
    exact placeable
  · rw [cleared.parent?, if_neg high, onDisplay]
  · rw [cleared.parent?, if_neg low, under]
  · rw [topFocusedDisplay?, displays]
    exact top

theorem isFragmentLike_modifyActivity (h : Hierarchy) (k : NodeId)
    (f : ActivityRecord → ActivityRecord) (j : NodeId) :
    (h.modifyActivity k f).isFragmentLike j = h.isFragmentLike j := by
  rw [isFragmentLike, modifyActivity, data?_modifyData, isFragmentLike]
  split
  · cases h.data? j with
    | none => rfl
    | some d => cases d <;> rfl
  · rfl

theorem bind_data?_modifyActivity {α : Type} {g : NodeData → Option α}
    (blind : ∀ f d, g (NodeData.mapActivity f d) = g d) (h : Hierarchy) (k : NodeId)
    (f : ActivityRecord → ActivityRecord) (j : NodeId) :
    ((h.modifyActivity k f).data? j).bind g = (h.data? j).bind g := by
  rw [modifyActivity, data?_modifyData]
  split
  · cases h.data? j with
    | none => rfl
    | some d => exact blind f d
  · rfl

theorem area?_modifyActivity (h : Hierarchy) (k : NodeId) (f : ActivityRecord → ActivityRecord)
    (j : NodeId) : (h.modifyActivity k f).area? j = h.area? j :=
  bind_data?_modifyActivity (fun _ d => by cases d <;> rfl) h k f j

theorem displayOf?_modifyActivity (h : Hierarchy) (k : NodeId)
    (f : ActivityRecord → ActivityRecord) (j : NodeId) :
    (h.modifyActivity k f).displayOf? j = h.displayOf? j := by
  have frame := sameFrame_modifyActivity (h := h) k f
  have shown : ∀ i, (h.modifyActivity k f).display? i = h.display? i :=
    bind_data?_modifyActivity (fun _ d => by cases d <;> rfl) h k f
  simp only [displayOf?, lineage, contains_eq_isSome_tag?, frame.tag, shown,
    ancestors_congr (Arena.next_modify ..) frame.parent]

theorem AtFront.modifyActivity (front : AtFront h display root k) (j : NodeId)
    (f : ActivityRecord → ActivityRecord) : AtFront (h.modifyActivity j f) display root k := by
  have frame := sameFrame_modifyActivity (h := h) j f
  obtain ⟨container, foremost, ⟨area, placeable, onDisplay, under, last⟩, top⟩ := front
  refine ⟨?_, ?_, ⟨area, ?_, ?_, ?_, ?_⟩, top⟩
  · rw [isFragmentLike_modifyActivity, container]
  · exact foremost.congr frame.parent frame.children (isFragmentLike_modifyActivity h j f)
  · rw [area?_modifyActivity, placeable]
  · rw [frame.parent, onDisplay]
  · rw [frame.parent, under]
  · rw [frame.children, last]

theorem isRunning_modifyActivity {f : ActivityRecord → ActivityRecord}
    (keeps : ∀ r, h.activity? j = some r → (f r).isRunning = r.isRunning) (k : NodeId) :
    (h.modifyActivity j f).activityHas ActivityRecord.isRunning k =
      h.activityHas ActivityRecord.isRunning k := by
  rw [activityHas, activityHas, activity?_modifyActivity]
  split
  · rename_i same
    subst same
    cases held : h.activity? k with
    | none => rfl
    | some r => exact keeps r held
  · rfl

/-- Who runs is all that matters to the top of a container. -/
theorem topRunningActivity?_modifyActivity {f : ActivityRecord → ActivityRecord}
    (keeps : ∀ r, h.activity? j = some r → (f r).isRunning = r.isRunning) (k : NodeId) :
    (h.modifyActivity j f).topRunningActivity? k = h.topRunningActivity? k := by
  have frame := sameFrame_modifyActivity (h := h) j f
  have contains : (h.modifyActivity j f).contains k = h.contains k := by
    rw [contains_eq_isSome_tag?, contains_eq_isSome_tag?, frame.tag]
  have activity : (h.modifyActivity j f).isActivity = h.isActivity :=
    funext fun i => isActivity_congr (frame.tag i)
  have runs : (h.modifyActivity j f).activityHas ActivityRecord.isRunning =
      h.activityHas ActivityRecord.isRunning :=
    funext (isRunning_modifyActivity keeps)
  simp only [topRunningActivity?, activities, subtree, contains, activity, runs,
    contents_congr (Arena.next_modify ..) frame.children k]

section
variable {r : ActivityRecord} (made : h.addActivity p r .top = .ok (h', k))
include made

theorem parent?_addActivity : h'.parent? k = some p := by
  obtain ⟨added, rfl⟩ := addActivity_eq_ok_iff.mp made
  exact parent?_new_insertUnder added

theorem getLast?_children_addActivity : (h'.children p).getLast? = some k := by
  obtain ⟨added, rfl⟩ := addActivity_eq_ok_iff.mp made
  obtain ⟨outer, found, _, _, _, rfl⟩ := insertUnder_eq_ok_iff.mp added
  have live : (h.insert (.activity r)).contains p = true :=
    contains_insert_of_contains (contains_of_data? found)
  rw [children_link, if_pos ⟨rfl, live⟩]
  simp [Position.place]

theorem isFragmentLike_of_addActivity : h'.isFragmentLike p = true := by
  obtain ⟨added, fresh⟩ := addActivity_eq_ok_iff.mp made
  obtain ⟨outer, found, allowed, _⟩ := insertUnder_eq_ok_iff.mp added
  have old : p ≠ k := fresh ▸ ne_nextId_of_contains (contains_of_data? found)
  rw [isFragmentLike, data?_addActivity made, if_neg old, found]
  cases outer <;> simp_all [NodeData.canContain, NodeData.isFragmentLike]

end

/-- Moving to the front reorders what the ancestors hold, and nothing else. -/
theorem children_moveTaskToFront_of_not_mem (forest : Forest (h.moveTaskToFront k).1)
    (aside : j ∉ h.ancestors k) : (h.moveTaskToFront k).1.children j = h.children j := by
  have raised := children_raiseWithin (climb_moveTaskToFront forest).2 aside
  unfold moveTaskToFront
  dsimp only
  split
  · exact raised
  · exact (children_moveDisplayToTop ..).trans raised

theorem children_moveTaskToFront (forest : Forest (h.moveTaskToFront k).1) :
    (h.moveTaskToFront k).1.children k = h.children k := by
  refine children_moveTaskToFront_of_not_mem forest ?_
  rw [(climb_moveTaskToFront forest).1, forest.mem_ancestors]
  exact forest.not_inside_self k

/-- What lies on top of a node comes first in it. -/
theorem Forest.contents_of_last (forest : Forest h) (last : (h.children p).getLast? = some k) :
    ∃ below, h.contents p = .node k (h.contents k) below := by
  obtain ⟨lower, shown⟩ := List.getLast?_eq_some_iff.mp last
  obtain ⟨tops, faithful⟩ := forest.faithful_contents p
  rw [shown, List.reverse_append] at tops
  cases held : h.contents p with
  | nil => simp [held, Layers.tops] at tops
  | node j inside below =>
    rw [held] at tops faithful
    obtain rfl : j = k := (List.cons.inj tops).1
    obtain ⟨within, deep⟩ := forest.faithful_contents j
    have same : inside = h.contents j := faithful.2.1.unique deep (faithful.1.trans within.symm)
    exact ⟨below, by rw [same]⟩

/-- What runs on top of a container that is itself on top runs on top of all around it. -/
theorem Foremost.topRunningActivity? (foremost : Foremost h root k) (forest : Forest h)
    (container : h.isFragmentLike k = true) (top : h.topRunningActivity? k = some x) :
    h.topRunningActivity? root = some x := by
  induction foremost with
  | self => exact top
  | nested placed outer last _ ih =>
    refine ih outer ?_
    obtain ⟨below, shown⟩ := forest.contents_of_last last
    rw [topRunningActivity?_of_isFragmentLike container] at top
    rw [topRunningActivity?_of_isFragmentLike outer, shown, Layers.ids, List.find?_cons_of_neg,
      List.find?_append, top, Option.some_or]
    simp [activityHas, activity?_of_isFragmentLike container]

theorem Forest.topRunningActivity?_of_last (forest : Forest h)
    (container : h.isFragmentLike p = true) (last : (h.children p).getLast? = some k)
    (runs : h.activityHas ActivityRecord.isRunning k = true) :
    h.topRunningActivity? p = some k := by
  obtain ⟨below, shown⟩ := forest.contents_of_last last
  rw [topRunningActivity?_of_isFragmentLike container, shown, Layers.ids,
    List.find?_cons_of_pos runs]

theorem Forest.inside_of_topRunningActivity? (forest : Forest h)
    (container : h.isFragmentLike k = true) (top : h.topRunningActivity? k = some x) :
    Inside h x k := by
  rw [topRunningActivity?_of_isFragmentLike container] at top
  exact forest.mem_ids_contents.mp (List.mem_of_find?_eq_some top)

/-- A root task is the one of all that lies in it. -/
theorem Forest.rootTaskOf?_of_inside (forest : Forest h) (task : h.isRootTask root = true)
    (inside : Inside h x root) : h.rootTaskOf? x = some root := by
  have step : ∀ {k p}, h.parent? k = some p → h.area? p = none →
      h.rootTaskOf? k = h.rootTaskOf? p := by
    intro k p placed plain
    rw [rootTaskOf?, rootTaskOf?, forest.lineage_of_parent placed,
      List.find?_cons_of_neg (by simp [isRootTask, placed, plain])]
  have plain : h.area? root = none :=
    area?_of_isFragmentLike (isFragmentLike_of_isTask (Bool.and_eq_true_iff.mp task).1)
  induction inside with
  | child placed =>
    rw [step placed plain, rootTaskOf?, lineage, if_pos (forest.contains_parent placed)]
    exact List.find?_cons_of_pos task
  | deeper placed further ih =>
    have container := isFragmentLike_of_isTask (Bool.and_eq_true_iff.mp task).1
    exact (step placed (forest.area?_of_inside further container)).trans (ih task plain)

/-- On a display with one area, the root task at the front is the topmost one. -/
theorem AtFront.rootTasks (front : AtFront h display root k) (forest : Forest h)
    (single : ∃ area, h.children display = [area]) :
    h.isRootTask root = true ∧ ∃ lower, h.rootTasks display = root :: lower := by
  obtain ⟨_, _, ⟨area, placeable, onDisplay, under, last⟩, _⟩ := front
  have task : h.isTask root = true := forest.isTask_of_parent under placeable
  refine ⟨by simp [isRootTask, task, under, placeable], ?_⟩
  obtain ⟨only, alone⟩ := single
  have member := forest.mem_children_iff.mpr onDisplay
  rw [alone, List.mem_singleton] at member
  obtain ⟨lower, shown⟩ := List.getLast?_eq_some_iff.mp last
  rw [Hierarchy.rootTasks, alone, ← member]
  simp [shown, task]

/-- Who runs at the front of a display is the top of its focused root task. -/
theorem AtFront.focus (front : AtFront h display root k) (forest : Forest h)
    (single : ∃ area, h.children display = [area]) (top : h.topRunningActivity? k = some x)
    (floats : ∀ r, h.rootTaskOf? x = some r → h.mode r ≠ .pinned) :
    h.rootTaskOf? x = some root ∧ h.focusedRootTask? display = some root ∧
      h.topRunningActivity? root = some x := by
  obtain ⟨task, lower, shown⟩ := front.rootTasks forest single
  have here := front.foremost.topRunningActivity? forest front.container top
  have container := isFragmentLike_of_isTask (Bool.and_eq_true_iff.mp task).1
  have inside := forest.inside_of_topRunningActivity? container here
  have around := forest.rootTaskOf?_of_inside task inside
  refine ⟨around, ?_, here⟩
  have counts : (h.mode root != .pinned) = true := bne_iff_ne.mpr (floats root around)
  have runs : h.hasRunningActivity root = true := by rw [hasRunningActivity, here]; rfl
  simp [focusedRootTask?, shown, counts, runs]

end WindowHost.Hierarchy
