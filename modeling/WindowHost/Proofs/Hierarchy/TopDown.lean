import WindowHost.Proofs.Hierarchy.TopFirst

/-! The traversals of what a node encloses, topmost first. A search with a test that takes notes and
passes nothing lists every activity once, one that stops at the first running activity stops at
the first of that list, and the lists of a display, of its root tasks and of their leaf tasks fit
together. -/
namespace WindowHost.Hierarchy
variable {h : Hierarchy} {a k t u x display root : NodeId} {L : Layers} {σ : Type}
  {test : NodeId → ActivityRecord → σ → Bool × σ}

/-- Puts a test to the activities of a list, one after the other, until one passes. -/
def askEach (h : Hierarchy) (test : NodeId → ActivityRecord → σ → Bool × σ) :
    List NodeId → σ → Option NodeId × σ
  | [], notes => (none, notes)
  | k :: ks, notes =>
    match h.activity? k with
    | none => h.askEach test ks notes
    | some record =>
      match test k record notes with
      | (true, notes) => (some k, notes)
      | (false, notes) => h.askEach test ks notes

theorem askEach_append (above below : List NodeId) (notes : σ) :
    h.askEach test (above ++ below) notes =
      match h.askEach test above notes with
      | (some found, notes) => (some found, notes)
      | (none, notes) => h.askEach test below notes := by
  induction above generalizing notes with
  | nil => rfl
  | cons k above ih =>
    rw [List.cons_append, askEach, askEach]
    cases h.activity? k with
    | none => exact ih notes
    | some record =>
      rcases answer : test k record notes with ⟨passed, notes⟩
      cases passed with
      | true => simp [answer]
      | false => simpa [answer] using ih notes

namespace Forest
variable (forest : Forest h)
include forest

theorem inside_eq_nil {inside : Layers} (leaf : h.isActivity k = true)
    (shown : inside.tops = (h.children k).reverse) : inside = .nil := by
  have childless := forest.childless_of_activity (isActivity_eq_true_iff.mp leaf)
  exact Layers.eq_nil_of_tops (by rw [shown, childless, List.reverse_nil])

/-- Going down into what a node holds is going on in the list of all nodes. -/
theorem searchFromTop_eq_askEach (faithful : L.Faithful h) (notes : σ) :
    h.searchFromTop test L notes = h.askEach test L.ids notes := by
  induction L generalizing notes with
  | nil => rfl
  | node k inside below inner rest =>
    obtain ⟨shown, deep, further⟩ := faithful
    rw [searchFromTop, Layers.ids, askEach]
    cases held : h.activity? k with
    | none =>
      dsimp only
      rw [askEach_append, inner deep]
      split <;> simp_all
    | some record =>
      have alone : inside = .nil := forest.inside_eq_nil (isActivity_of_activity? held) shown
      subst alone
      rcases answer : test k record notes with ⟨passed, notes⟩
      cases passed with
      | true => simp [answer]
      | false => simpa [answer, Layers.ids] using rest further notes

end Forest

/-- A test that writes down what it is asked about and passes nothing. -/
def noteDown (k : NodeId) (_ : ActivityRecord) (seen : List NodeId) : Bool × List NodeId :=
  (false, seen ++ [k])

/-- A test without notes. -/
def plainly (q : ActivityRecord → Bool) (_ : NodeId) (record : ActivityRecord) (_ : Unit) :
    Bool × Unit :=
  (q record, ())

theorem askEach_noteDown (ks seen : List NodeId) :
    h.askEach noteDown ks seen = (none, seen ++ ks.filter h.isActivity) := by
  induction ks generalizing seen with
  | nil => simp [askEach]
  | cons k ks ih =>
    rw [askEach]
    cases held : h.activity? k with
    | none => simp [ih, isActivity, held]
    | some record => simp [noteDown, ih, isActivity, held]

theorem askEach_plainly (q : ActivityRecord → Bool) (ks : List NodeId) :
    h.askEach (plainly q) ks () = (ks.find? (h.activityHas q), ()) := by
  induction ks with
  | nil => rfl
  | cons k ks ih =>
    rw [askEach, List.find?_cons]
    cases held : h.activity? k with
    | none => simp [ih, activityHas, held]
    | some record => cases fits : q record <;> simp [plainly, fits, ih, activityHas, held]

theorem isActivity_of_outer
    (outer : (h.display? k).isSome = true ∨ (h.area? k).isSome = true) :
    h.isActivity k = false := by
  cases found : h.data? k with
  | none => simp [display?, area?, found] at outer
  | some d =>
    cases d <;> simp_all [isActivity, activity?, display?, area?, NodeData.activity?,
      NodeData.display?, NodeData.area?]

namespace Forest
variable (forest : Forest h)
include forest

/-- A stack lists its own nodes, each followed by what lies in it. -/
theorem ids_eq_flatMap (faithful : L.Faithful h) :
    L.ids = L.tops.flatMap fun t => t :: (h.contents t).ids := by
  induction L with
  | nil => rfl
  | node t inside below _ rest =>
    obtain ⟨shown, deep, further⟩ := faithful
    obtain ⟨shown', faithful'⟩ := forest.faithful_contents t
    have whole : inside = h.contents t := deep.unique faithful' (shown.trans shown'.symm)
    rw [Layers.ids, Layers.tops, List.flatMap_cons, ← rest further, whole, List.cons_append]

/-- A container has the activities of its children, those of the highest child first. -/
theorem activities_eq_flatMap (container : h.isActivity k = false) :
    h.activities k = (h.children k).reverse.flatMap h.activities := by
  have each : ∀ c ∈ (h.children k).reverse,
      (c :: (h.contents c).ids).filter h.isActivity = h.activities c := by
    intro c listed
    have live := (forest.child (List.mem_reverse.mp listed)).1
    rw [activities, subtree, if_pos live, Layers.ids, Layers.ids, List.append_nil]
  cases live : h.contains k with
  | false => simp [activities, subtree, live, Layers.ids, children_of_not_contains live]
  | true =>
    obtain ⟨shown, faithful⟩ := forest.faithful_contents k
    rw [activities, subtree, if_pos live, Layers.ids, Layers.ids, List.append_nil,
      List.filter_cons_of_neg (by simp [container]), forest.ids_eq_flatMap faithful, shown,
      List.filter_flatMap]
    exact List.flatMap_congr each

theorem activities_display (shown : (h.display? display).isSome = true) :
    h.activities display = (h.rootTasks display).flatMap h.activities := by
  rw [forest.activities_eq_flatMap (isActivity_of_outer (.inl shown)), rootTasks,
    List.flatMap_assoc]
  refine List.flatMap_congr fun area onDisplay => ?_
  have placed := (forest.child (List.mem_reverse.mp onDisplay)).2
  have isArea := (forest.isSome_area?_of_parent placed).trans shown
  have tasks : (h.children area).reverse.filter h.isTask = (h.children area).reverse := by
    rw [List.filter_eq_self]
    intro root inArea
    exact forest.isTask_of_parent (forest.child (List.mem_reverse.mp inArea)).2 isArea
  rw [forest.activities_eq_flatMap (isActivity_of_outer (.inr isArea)), tasks]

theorem mem_activities : a ∈ h.activities k ↔ h.isActivity a = true ∧ a ∈ h.part k := by
  rw [activities, List.mem_filter, forest.mem_ids_subtree_iff, and_comm]

theorem pairwise_activitiesOf (faithful : L.Faithful h) (order : L.tops.Pairwise (Higher h)) :
    (L.ids.filter h.isActivity).Pairwise (Before h) := by
  induction L with
  | nil => exact .nil
  | node t inside below inner rest =>
    obtain ⟨shown, deep, further⟩ := faithful
    obtain ⟨top, order⟩ := List.pairwise_cons.mp order
    have within : ∀ x ∈ t :: inside.ids, x = t ∨ Inside h x t := by
      intro x member
      refine (List.mem_cons.mp member).imp_right fun deeper => ?_
      rw [forest.mem_ids deep, shown] at deeper
      simpa only [List.mem_reverse] using forest.inside_iff_child.mpr (by simpa using deeper)
    have here : ((t :: inside.ids).filter h.isActivity).Pairwise (Before h) := by
      cases leaf : h.isActivity t with
      | true => simp [forest.inside_eq_nil leaf shown, Layers.ids, leaf]
      | false =>
        rw [List.filter_cons_of_neg (by simp [leaf])]
        exact inner deep (shown ▸ pairwise_reverse .child)
    rw [Layers.ids, ← List.cons_append, List.filter_append]
    refine List.pairwise_append.mpr ⟨here, rest further order, ?_⟩
    intro a upper b lower
    obtain ⟨u, listed, within'⟩ := (forest.mem_ids further).mp (List.mem_filter.mp lower).1
    exact (top u listed).before.within (within a (List.mem_filter.mp upper).1) within'

theorem pairwise_activities (k : NodeId) : (h.activities k).Pairwise (Before h) := by
  refine forest.pairwise_activitiesOf (forest.faithful_subtree k) ?_
  rw [subtree]
  split <;> simp [Layers.tops]

end Forest

/-- Of the tasks around `a`, `t` is the innermost one. -/
structure NearestTask (h : Hierarchy) (a t : NodeId) : Prop where
  task : h.isTask t = true
  around : Inside h a t
  nearest : ∀ u, h.isTask u = true → Inside h a u → u = t ∨ Inside h t u

/-- On the way up, each node lies in all that come after it. -/
theorem Climb.pairwise_inside {l : List NodeId} (climb : Climb h k l) : l.Pairwise (Inside h) := by
  induction l generalizing k with
  | nil => exact .nil
  | cons p l ih =>
    refine List.pairwise_cons.mpr ⟨fun a above => ?_, ih climb.2⟩
    exact climb.2.mem_iff.mp above

theorem Forest.taskAround?_eq_some_iff (forest : Forest h) :
    h.taskAround? a = some t ↔ NearestTask h a t := by
  have way : h.taskAround? a = (h.ancestors a).find? h.isTask := by
    cases placed : h.parent? a with
    | none =>
      have top : h.ancestors a = [] := (forest.climb_ancestors a).unique placed
      rw [taskAround?, placed, top]
      rfl
    | some p =>
      rw [taskAround?, placed, Option.bind_some, taskOf?, lineage,
        if_pos (forest.contains_parent placed), ← forest.ancestors_of_parent placed]
  have asymm : ∀ {a b}, Inside h a b → ¬ Inside h b a :=
    fun inner outer => forest.not_inside_self _ (inner.trans outer)
  rw [way, find?_eq_some_iff_first asymm (forest.climb_ancestors a).pairwise_inside]
  simp only [forest.mem_ancestors]
  constructor
  · rintro ⟨⟨around, task⟩, first⟩
    refine ⟨task, around, fun u other inside => ?_⟩
    by_cases same : u = t
    · exact .inl same
    · exact .inr (first u ⟨inside, other⟩ same)
  · rintro ⟨task, around, nearest⟩
    exact ⟨⟨around, task⟩, fun u other apart => (nearest u other.2 other.1).resolve_left apart⟩

theorem Forest.isRootOfTask_iff (forest : Forest h) :
    h.isRootOfTask a = true ↔ ∃ t, NearestTask h a t ∧
      ((h.activities t).filter (h.activityHas ActivityRecord.isRunning)).getLast? = some a := by
  simp only [← forest.taskAround?_eq_some_iff, isRootOfTask]
  cases h.taskAround? a with
  | none => simp
  | some t =>
    simp only [Option.some.injEq, exists_eq_left', beq_iff_eq]
    rw [← List.head?_reverse, ← List.filter_reverse, List.head?_filter]

theorem WellFormed.nodup_leafTasks (formed : h.WellFormed) (root : NodeId) :
    (h.leafTasks root).Nodup := by
  refine (formed.forest.pairwise_leafTasks root).imp ?_
  rintro a _ before rfl
  exact formed.before_asymm before before

theorem Forest.mem_leafTasks_iff (forest : Forest h) (task : h.isTask root = true) :
    k ∈ h.leafTasks root ↔
      k ∈ h.part root ∧ h.isTask k = true ∧ ∀ c ∈ h.children k, h.isTask c = false := by
  rw [forest.mem_leafTasks task]
  constructor
  · rintro ⟨leaf, within⟩
    exact ⟨⟨contains_of_isTask leaf.1, within⟩, leaf.1, (forest.leafTask_iff leaf.1).mp leaf⟩
  · rintro ⟨⟨-, within⟩, small, bare⟩
    exact ⟨(forest.leafTask_iff small).mpr bare, within⟩

/-- What is listed top first misses nothing and repeats nothing: the activities of a node, which the
search for a running one goes through in the same order, those of a display, one root task after
the other, and the leaf tasks of a task. The root of a task is its last running activity. -/
theorem traversals_complete (formed : h.WellFormed) :
    (∀ k, (h.activities k).Nodup ∧ (h.activities k).Pairwise (Before h) ∧
      (∀ a, a ∈ h.activities k ↔ h.isActivity a = true ∧ a ∈ h.part k) ∧
        h.searchFromTop noteDown (h.subtree k) [] = (none, h.activities k)) ∧
    (∀ k, h.topRunningActivity? k =
        ((h.activities k).filter (h.activityHas ActivityRecord.isRunning)).head? ∧
      h.searchFromTop (plainly ActivityRecord.isRunning) (h.subtree k) () =
        (h.topRunningActivity? k, ())) ∧
    (∀ display ∈ h.displays, h.activities display = (h.rootTasks display).flatMap h.activities) ∧
    (∀ root, h.isTask root = true → (h.leafTasks root).Nodup ∧
      (h.leafTasks root).Pairwise (Before h) ∧ ∀ k, k ∈ h.leafTasks root ↔
        k ∈ h.part root ∧ h.isTask k = true ∧ ∀ c ∈ h.children k, h.isTask c = false) ∧
    ∀ a, h.isRootOfTask a = true ↔ ∃ t, NearestTask h a t ∧
      ((h.activities t).filter (h.activityHas ActivityRecord.isRunning)).getLast? = some a := by
  have forest := formed.forest
  refine ⟨fun k => ⟨?_, forest.pairwise_activities k, fun a => forest.mem_activities, ?_⟩,
    fun k => ⟨?_, ?_⟩, fun display listed => ?_, fun root task => ⟨formed.nodup_leafTasks root,
      forest.pairwise_leafTasks root, fun k => forest.mem_leafTasks_iff task⟩,
    fun a => forest.isRootOfTask_iff⟩
  · exact (forest.nodup_ids_subtree k).filter _
  · rw [forest.searchFromTop_eq_askEach (forest.faithful_subtree k), askEach_noteDown,
      List.nil_append, activities]
  · rw [topRunningActivity?, List.head?_filter]
  · rw [forest.searchFromTop_eq_askEach (forest.faithful_subtree k), askEach_plainly,
      topRunningActivity?, activities, List.find?_filter]
    have only : ∀ j, h.activityHas ActivityRecord.isRunning j =
        decide (h.isActivity j = true ∧ h.activityHas ActivityRecord.isRunning j = true) := by
      intro j
      rw [Bool.eq_iff_iff, decide_eq_true_eq]
      exact (and_iff_right_of_imp isActivity_of_activityHas).symm
    exact congrArg (List.find? · _, ()) (funext only)
  · exact forest.activities_display (Option.isSome_iff_exists.mpr (formed.listed.mp listed))

/-- On a display with two root tasks, the lower one holds a nested task with an activity and, above
it, a fragment with another. The lower activity is the root of the nested task. -/
theorem traversals_of_nested :
    let record := ActivityRecord.create { component := ⟨"mail", "Inbox"⟩, uid := ⟨10010⟩ } {}
    let h := afterCalls [.addDisplay ⟨0⟩ ⟨0, 0, 1920, 1080⟩, .createTask ⟨2⟩ {} .top,
      .createTask ⟨3⟩ {} .top, .addActivity ⟨4⟩ record .top, .createFragment ⟨4⟩ none .top,
      .addActivity ⟨6⟩ record .top, .createTask ⟨2⟩ {} .top, .addActivity ⟨8⟩ record .top]
    h.WellFormed ∧
      h.searchFromTop noteDown (h.subtree ⟨1⟩) [] = (none, [⟨9⟩, ⟨7⟩, ⟨5⟩]) ∧
        ([⟨8⟩, ⟨3⟩] : List NodeId).flatMap h.activities = [⟨9⟩, ⟨7⟩, ⟨5⟩] ∧
          ∃ t, NearestTask h ⟨5⟩ t ∧
            ((h.activities t).filter (h.activityHas ActivityRecord.isRunning)).getLast? =
              some ⟨5⟩ := by
  intro record h
  have formed : h.WellFormed := wellFormed_afterCalls _
  have order : h.activities ⟨1⟩ = [⟨9⟩, ⟨7⟩, ⟨5⟩] := by decide +kernel
  have shown : ⟨1⟩ ∈ h.displays := by decide +kernel
  have roots : h.rootTasks ⟨1⟩ = [⟨8⟩, ⟨3⟩] := by decide +kernel
  have root : h.isRootOfTask ⟨5⟩ = true := by decide +kernel
  clear_value h
  obtain ⟨listed, -, display, -, lowest⟩ := traversals_complete formed
  refine ⟨formed, ?_, ?_, (lowest ⟨5⟩).mp root⟩
  · rw [(listed ⟨1⟩).2.2.2, order]
  · rw [← roots, ← display ⟨1⟩ shown, order]

end WindowHost.Hierarchy
