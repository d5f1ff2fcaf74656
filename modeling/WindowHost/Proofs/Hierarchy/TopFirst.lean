import WindowHost.Proofs.Hierarchy.Searches
import WindowHost.Proofs.Hierarchy.SplitPair

/-! Top first. Of two nodes, neither of which encloses the other, the one comes first that lies on
the higher side of where the ways up to them part, be it among the children of a node or among the
displays. That orders the tasks which a launch may reuse, and the search for one finds exactly the
first that fits. -/
namespace WindowHost.Hierarchy
variable {h : Hierarchy} {a b c j k p s s' t t' x : NodeId} {ks : List NodeId} {L : Layers}
  {component : ComponentName} {affinity : String} {user : UserId}

/-- `s` and `t` are children of one node, or displays, and `s` is the higher one. -/
inductive Higher (h : Hierarchy) (s t : NodeId) : Prop where
  | child {p : NodeId} (order : [t, s].Sublist (h.children p))
  | display (order : [t, s].Sublist h.displays)

/-- `a` comes before `b`, top first: the ways up to them part at two nodes of which the one around
`a` is the higher. -/
def Before (h : Hierarchy) (a b : NodeId) : Prop :=
  ∃ s t, Higher h s t ∧ (a = s ∨ Inside h a s) ∧ (b = t ∨ Inside h b t)

/-- Of the nodes with a property, `k` comes first. -/
def First (h : Hierarchy) (P : NodeId → Prop) (k : NodeId) : Prop :=
  P k ∧ ∀ j, P j → j ≠ k → Before h k j

theorem Higher.before (higher : Higher h s t) : Before h s t :=
  ⟨s, t, higher, .inl rfl, .inl rfl⟩

theorem within_trans (inner : x = a ∨ Inside h x a) (outer : a = b ∨ Inside h a b) :
    x = b ∨ Inside h x b := by
  rcases inner with rfl | inner
  · exact outer
  · rcases outer with rfl | outer
    · exact .inr inner
    · exact .inr (inner.trans outer)

/-- What lies in a node stands where the node does. -/
theorem Before.within (before : Before h s t) (left : a = s ∨ Inside h a s)
    (right : b = t ∨ Inside h b t) : Before h a b := by
  obtain ⟨s', t', higher, left', right'⟩ := before
  exact ⟨s', t', higher, within_trans left left', within_trans right right'⟩

theorem pairwise_reverse (higher : ∀ {s t}, [t, s].Sublist ks → Higher h s t) :
    ks.reverse.Pairwise (Higher h) := by
  rw [List.pairwise_iff_forall_sublist]
  intro s t order
  exact higher (List.reverse_sublist.mp (by simpa using order))

theorem pairwise_flatMap_before {f : NodeId → List NodeId} (order : ks.Pairwise (Before h))
    (within : ∀ k ∈ ks, ∀ x ∈ f k, x = k ∨ Inside h x k)
    (each : ∀ k ∈ ks, (f k).Pairwise (Before h)) : (ks.flatMap f).Pairwise (Before h) := by
  refine List.pairwise_flatMap.mpr ⟨each, order.imp_of_mem ?_⟩
  intro s t upper lower before a left b right
  exact before.within (within s upper a left) (within t lower b right)

theorem comparable_of_within (left : x = a ∨ Inside h x a) (right : x = b ∨ Inside h x b) :
    a = b ∨ Inside h a b ∨ Inside h b a := by
  rcases left with rfl | left <;> rcases right with rfl | right
  · exact .inl rfl
  · exact .inr (.inl right)
  · exact .inr (.inr left)
  · exact left.comparable right

theorem not_sublist_swap (nodup : ks.Nodup) (apart : s ≠ t) (order : [t, s].Sublist ks) :
    ¬ [s, t].Sublist ks := by
  induction ks with
  | nil => cases order
  | cons k ks ih =>
    obtain ⟨fresh, nodup⟩ := List.nodup_cons.mp nodup
    rw [List.cons_sublist_cons'] at order ⊢
    rintro (later' | ⟨rfl, later'⟩) <;> rcases order with later | ⟨rfl, later⟩
    · exact ih nodup later later'
    · exact fresh (later'.subset (by simp))
    · exact fresh (later.subset (by simp))
    · exact apart rfl

namespace WellFormed
variable (formed : h.WellFormed)
include formed

theorem ne_of_higher (higher : Higher h s t) : s ≠ t := by
  rintro rfl
  cases higher with
  | @child p order => simpa using order.nodup (formed.forest.nodup_children p)
  | display order => simpa using order.nodup formed.displays_nodup

/-- The same nodes enclose two siblings. -/
theorem inside_iff_of_higher (higher : Higher h s t) : Inside h s x ↔ Inside h t x := by
  cases higher with
  | @child p order =>
    have lower : t ∈ h.children p := order.subset List.mem_cons_self
    have upper : s ∈ h.children p := order.subset (by simp)
    rw [inside_iff_of_parent (formed.forest.child upper).2,
      inside_iff_of_parent (formed.forest.child lower).2]
  | display order =>
    have lower : t ∈ h.displays := order.subset List.mem_cons_self
    have upper : s ∈ h.displays := order.subset (by simp)
    exact iff_of_false (not_inside_of_root (formed.display_parentless upper))
      (not_inside_of_root (formed.display_parentless lower))

/-- Nothing lies in both of two siblings. -/
theorem disjoint_of_higher (higher : Higher h s t) (left : x = s ∨ Inside h x s) :
    ¬ (x = t ∨ Inside h x t) := by
  intro right
  rcases comparable_of_within left right with same | inner | outer
  · exact formed.ne_of_higher higher same
  · exact formed.forest.not_inside_self t ((formed.inside_iff_of_higher higher).mp inner)
  · exact formed.forest.not_inside_self s ((formed.inside_iff_of_higher higher).mpr outer)

theorem higher_asymm (higher : Higher h s t) : ¬ Higher h t s := by
  have apart := formed.ne_of_higher higher
  intro back
  cases higher with
  | @child p order =>
    have placed := (formed.forest.child (order.subset List.mem_cons_self)).2
    cases back with
    | @child q order' =>
      have placed' := (formed.forest.child (order'.subset (by simp : t ∈ [s, t]))).2
      obtain rfl := Option.some.inj (placed.symm.trans placed')
      exact not_sublist_swap (formed.forest.nodup_children p) apart order order'
    | display order' =>
      have alone := formed.display_parentless (order'.subset (by simp : t ∈ [s, t]))
      rw [alone] at placed
      contradiction
  | display order =>
    have alone := formed.display_parentless (order.subset List.mem_cons_self)
    cases back with
    | @child q order' =>
      have placed := (formed.forest.child (order'.subset (by simp : t ∈ [s, t]))).2
      rw [alone] at placed
      contradiction
    | display order' => exact not_sublist_swap formed.displays_nodup apart order order'

/-- The ways up to two nodes part in one place only. -/
theorem before_asymm (before : Before h a b) : ¬ Before h b a := by
  rintro ⟨s', t', higher', inS', inT'⟩
  obtain ⟨s, t, higher, inS, inT⟩ := before
  have same := fun {x} => formed.inside_iff_of_higher (x := x) higher
  have same' := fun {x} => formed.inside_iff_of_higher (x := x) higher'
  rcases comparable_of_within inS inT' with rfl | inner | outer
  · rcases comparable_of_within inT inS' with rfl | inner | outer
    · exact formed.higher_asymm higher higher'
    · exact formed.forest.not_inside_self s' (same'.mpr (same.mpr inner))
    · exact formed.forest.not_inside_self t (same.mp (same'.mp outer))
  · exact formed.disjoint_of_higher higher' inS' (within_trans inT (.inr (same.mp inner)))
  · exact formed.disjoint_of_higher higher (within_trans inS' (.inr (same'.mpr outer))) inT

end WellFormed

/-- A search in a list goes by the order that the list is in. -/
theorem find?_eq_some_iff_first {q : NodeId → Bool} {before : NodeId → NodeId → Prop}
    (asymm : ∀ {a b}, before a b → ¬ before b a) (order : ks.Pairwise before) :
    ks.find? q = some k ↔
      (k ∈ ks ∧ q k = true) ∧ ∀ j, j ∈ ks ∧ q j = true → j ≠ k → before k j := by
  have first : ∀ {k}, ks.find? q = some k → ∀ j, j ∈ ks ∧ q j = true → j ≠ k → before k j := by
    rintro k found j ⟨listed, fits⟩ other
    obtain ⟨_, above, below, rfl, passed⟩ := List.find?_eq_some_iff_append.mp found
    have later : j ∈ below := by
      rcases List.mem_append.mp listed with earlier | later
      · have misfit := passed j earlier
        rw [fits] at misfit
        contradiction
      · exact (List.mem_cons.mp later).resolve_left other
    exact (List.pairwise_cons.mp (List.pairwise_append.mp order).2.1).1 j later
  constructor
  · exact fun found => ⟨⟨List.mem_of_find?_eq_some found, List.find?_some found⟩, first found⟩
  · rintro ⟨⟨listed, fits⟩, before⟩
    cases found : ks.find? q with
    | none =>
      exact absurd fits (List.find?_eq_none.mp found k listed)
    | some j =>
      by_contra other
      have apart : j ≠ k := fun same => other (congrArg some same)
      have chosen := And.intro (List.mem_of_find?_eq_some found) (List.find?_some found)
      exact asymm (before j chosen apart) (first found k ⟨listed, fits⟩ apart.symm)

/-- `k` is a task that holds no task. -/
def LeafTask (h : Hierarchy) (k : NodeId) : Prop :=
  h.isTask k = true ∧ ∀ j, Inside h j k → h.isTask j = false

/-- `k` is a task that a launch for a user may reuse: it holds no task, is, or lies in, a root task
on some display that is not pinned, belongs to the user and holds a running activity. -/
structure Reusable (h : Hierarchy) (user : UserId) (k : NodeId) : Prop where
  leaf : LeafTask h k
  placed : ∃ display ∈ h.displays, ∃ area root, h.parent? area = some display ∧
    h.parent? root = some area ∧ h.isTask root = true ∧ h.mode root ≠ .pinned ∧
    (k = root ∨ Inside h k root)
  owned : ∃ t, h.task? k = some t ∧ t.userId = user
  runs : ∃ j r, Inside h j k ∧ h.activity? j = some r ∧ r.isRunning = true

/-- `k` was made for an activity of the component. -/
def MadeFor (h : Hierarchy) (component : ComponentName) (k : NodeId) : Prop :=
  ∃ t, h.task? k = some t ∧ t.rootComponent = some component

/-- `k` has the affinity. -/
def Akin (h : Hierarchy) (affinity : String) (k : NodeId) : Prop :=
  ∃ t, h.task? k = some t ∧ t.affinity = some affinity

/-- `k` may be reused and fits a launch, by the component it was made for or by its affinity. -/
def Eligible (h : Hierarchy) (component : ComponentName) (affinity : String) (user : UserId)
    (k : NodeId) : Prop :=
  Reusable h user k ∧ (MadeFor h component k ∨ Akin h affinity k)

theorem leavesOf_node (inside below : Layers) (task : h.isTask t = true) :
    h.leavesOf (.node t inside below) =
      (if h.leavesOf inside = [] then [t] else h.leavesOf inside) ++ h.leavesOf below := by
  rw [leavesOf, if_pos task]
  cases h.leavesOf inside <;> rfl

theorem leavesOf_node_of_not_isTask (inside below : Layers) (other : h.isTask t = false) :
    h.leavesOf (.node t inside below) = h.leavesOf below := by
  simp [leavesOf, other]

theorem leavesOf_eq_nil_iff : h.leavesOf L = [] ↔ ∀ t ∈ L.tops, h.isTask t = false := by
  induction L with
  | nil => simp [leavesOf, Layers.tops]
  | node t inside below _ rest =>
    rw [Layers.tops, List.forall_mem_cons]
    cases task : h.isTask t with
    | false => simp [leavesOf_node_of_not_isTask _ _ task, rest]
    | true =>
      rw [leavesOf_node _ _ task]
      split
      · simp
      · rename_i full
        simp [full]

namespace Forest
variable (forest : Forest h)
include forest

/-- A task inside a task lies in, or is, a task among the children of the outer one. -/
theorem exists_child_of_isTask (outer : h.isTask t = true) (inner : h.isTask j = true)
    (inside : Inside h j t) :
    ∃ c ∈ h.children t, h.isTask c = true ∧ (j = c ∨ Inside h j c) := by
  induction inside with
  | child placed => exact ⟨_, forest.mem_children_iff.mpr placed, inner, .inl rfl⟩
  | @deeper j p t placed further ih =>
    have task : h.isTask p = true := by
      obtain ⟨holder, held, known, here, kinds⟩ := forest.kinds placed
      cases held <;> simp only [isTask, task?, here, Option.bind_some, NodeData.task?] at inner
      case task i =>
        refine ((canContain_task_iff known).mp kinds).resolve_right fun area => ?_
        rw [forest.area?_of_inside further (isFragmentLike_of_isTask outer)] at area
        contradiction
      all_goals contradiction
    obtain ⟨c, listed, nested, within⟩ := ih outer task
    exact ⟨c, listed, nested, within_trans (.inr (.child placed)) within⟩

theorem leafTask_iff (task : h.isTask t = true) :
    LeafTask h t ↔ ∀ c ∈ h.children t, h.isTask c = false := by
  constructor
  · exact fun leaf c listed => leaf.2 c (.child (forest.child listed).2)
  · intro bare
    refine ⟨task, fun j inside => Bool.eq_false_iff.mpr fun inner => ?_⟩
    obtain ⟨c, listed, nested, _⟩ := forest.exists_child_of_isTask task inner inside
    rw [bare c listed] at nested
    contradiction

/-- A task is a leaf itself, or its leaves are those of the stack inside it. -/
theorem mem_leaves_of_task {inside : Layers} (task : h.isTask t = true)
    (shown : inside.tops = (h.children t).reverse)
    (deep : k ∈ h.leavesOf inside ↔
      LeafTask h k ∧ ∃ c ∈ inside.tops, h.isTask c = true ∧ (k = c ∨ Inside h k c)) :
    k ∈ (if h.leavesOf inside = [] then [t] else h.leavesOf inside) ↔
      LeafTask h k ∧ (k = t ∨ Inside h k t) := by
  have leaf : h.leavesOf inside = [] ↔ LeafTask h t := by
    simp [leavesOf_eq_nil_iff, shown, forest.leafTask_iff task]
  split
  · rename_i bare
    have alone := leaf.mp bare
    rw [List.mem_singleton]
    constructor
    · rintro rfl
      exact ⟨alone, .inl rfl⟩
    · rintro ⟨⟨nested, _⟩, same | deeper⟩
      · exact same
      · rw [alone.2 k deeper] at nested
        contradiction
  · rename_i full
    rw [deep]
    refine and_congr_right fun bottom => ?_
    simp only [shown, List.mem_reverse]
    constructor
    · rintro ⟨c, listed, _, within⟩
      exact .inr (forest.inside_iff_child.mpr ⟨c, listed, within⟩)
    · rintro (rfl | deeper)
      · exact absurd (leaf.mpr bottom) full
      · exact forest.exists_child_of_isTask task bottom.1 deeper

theorem mem_leavesOf (faithful : L.Faithful h) : k ∈ h.leavesOf L ↔
    LeafTask h k ∧ ∃ t ∈ L.tops, h.isTask t = true ∧ (k = t ∨ Inside h k t) := by
  induction L with
  | nil => simp [leavesOf, Layers.tops]
  | node t inside below inner rest =>
    obtain ⟨shown, deep, further⟩ := faithful
    cases task : h.isTask t with
    | false => simp [leavesOf_node_of_not_isTask _ _ task, rest further, Layers.tops, task]
    | true =>
      rw [leavesOf_node _ _ task, List.mem_append,
        forest.mem_leaves_of_task task shown (inner deep), rest further, Layers.tops]
      simp only [List.mem_cons, or_and_right, exists_or, exists_eq_left, task, true_and]
      exact and_or_left.symm

/-- The leaf tasks of a stack come top first. -/
theorem pairwise_leavesOf (faithful : L.Faithful h) (order : L.tops.Pairwise (Higher h)) :
    (h.leavesOf L).Pairwise (Before h) := by
  induction L with
  | nil => exact .nil
  | node t inside below inner rest =>
    obtain ⟨shown, deep, further⟩ := faithful
    obtain ⟨top, order⟩ := List.pairwise_cons.mp order
    cases task : h.isTask t with
    | false =>
      rw [leavesOf_node_of_not_isTask _ _ task]
      exact rest further order
    | true =>
      have inside_order : (h.leavesOf inside).Pairwise (Before h) :=
        inner deep (shown ▸ pairwise_reverse .child)
      rw [leavesOf_node _ _ task]
      refine List.pairwise_append.mpr ⟨?_, rest further order, ?_⟩
      · split
        · exact List.pairwise_singleton ..
        · exact inside_order
      · intro a upper b lower
        have within : a = t ∨ Inside h a t :=
          ((forest.mem_leaves_of_task task shown (forest.mem_leavesOf deep)).mp upper).2
        obtain ⟨_, u, listed, _, within'⟩ := (forest.mem_leavesOf further).mp lower
        exact (top u listed).before.within within within'

theorem mem_leafTasks (root : h.isTask t = true) :
    k ∈ h.leafTasks t ↔ LeafTask h k ∧ (k = t ∨ Inside h k t) := by
  rw [leafTasks, forest.mem_leavesOf (forest.faithful_subtree t), subtree,
    if_pos (contains_of_isTask root)]
  simp [Layers.tops, root]

theorem pairwise_leafTasks (t : NodeId) : (h.leafTasks t).Pairwise (Before h) := by
  refine forest.pairwise_leavesOf (forest.faithful_subtree t) ?_
  rw [subtree]
  split <;> simp [Layers.tops]

end Forest

namespace WellFormed
variable (formed : h.WellFormed)
include formed

/-- The root tasks of all displays come top first. -/
theorem pairwise_allRootTasks : h.allRootTasks.Pairwise (Before h) := by
  have children : ∀ p, (h.children p).reverse.Pairwise (Before h) := fun p =>
    (pairwise_reverse .child).imp Higher.before
  refine pairwise_flatMap_before ((pairwise_reverse .display).imp Higher.before) ?_ ?_
  · exact fun display _ root member => .inr (formed.forest.inside_of_mem_rootTasks member)
  · intro display _
    refine pairwise_flatMap_before (children display) ?_ fun area _ => (children area).filter _
    intro area _ root member
    have listed := List.mem_reverse.mp (List.mem_filter.mp member).1
    exact .inr (.child (formed.forest.child listed).2)

theorem hasRunningActivity_iff_of_isTask (task : h.isTask k = true) :
    h.hasRunningActivity k = true ↔
      ∃ j r, Inside h j k ∧ h.activity? j = some r ∧ r.isRunning = true := by
  constructor
  · intro runs
    obtain ⟨j, inside, held⟩ := formed.forest.exists_running_of_isTask task runs
    obtain ⟨r, record, running⟩ := exists_of_activityHas held
    exact ⟨j, r, inside, record, running⟩
  · rintro ⟨j, r, inside, record, running⟩
    refine formed.forest.hasRunningActivity_iff.mpr ⟨j, .inr inside, ?_⟩
    rw [activityHas, record, Option.any_some, running]

theorem mem_reusableTasks : k ∈ h.reusableTasks user ↔ Reusable h user k := by
  have owned : (h.task? k).any (·.userId == user) = true ↔
      ∃ t, h.task? k = some t ∧ t.userId = user := by simp [Option.any_eq_true]
  rw [reusableTasks, List.mem_filter, List.mem_flatMap, Bool.and_eq_true, owned]
  simp only [List.mem_filter, mem_allRootTasks, mem_rootTasks, formed.forest.mem_children_iff,
    bne_iff_ne]
  constructor
  · rintro ⟨⟨root, ⟨⟨display, shown, isRoot, area, onDisplay, inArea⟩, unpinned⟩, member⟩,
      owner, runs⟩
    obtain ⟨leaf, within⟩ := (formed.forest.mem_leafTasks isRoot).mp member
    exact ⟨leaf, ⟨display, shown, area, root, onDisplay, inArea, isRoot, unpinned, within⟩, owner,
      (formed.hasRunningActivity_iff_of_isTask leaf.1).mp runs⟩
  · rintro ⟨leaf, ⟨display, shown, area, root, onDisplay, inArea, isRoot, unpinned, within⟩, owner,
      runs⟩
    exact ⟨⟨root, ⟨⟨display, shown, isRoot, area, onDisplay, inArea⟩, unpinned⟩,
      (formed.forest.mem_leafTasks isRoot).mpr ⟨leaf, within⟩⟩, owner,
      (formed.hasRunningActivity_iff_of_isTask leaf.1).mpr runs⟩

theorem pairwise_reusableTasks (user : UserId) :
    (h.reusableTasks user).Pairwise (Before h) := by
  refine (pairwise_flatMap_before (formed.pairwise_allRootTasks.filter _) ?_ ?_).filter _
  · intro root member k leaf
    have isRoot := (List.mem_filter.mp member).1
    obtain ⟨display, _, member⟩ := mem_allRootTasks.mp isRoot
    exact ((formed.forest.mem_leafTasks (mem_rootTasks.mp member).1).mp leaf).2
  · exact fun root _ => formed.forest.pairwise_leafTasks root

section
variable {q : NodeId → Bool} {P : NodeId → Prop} (decides : ∀ k, q k = true ↔ P k)
include decides

theorem find?_reusableTasks_eq_some_iff : (h.reusableTasks user).find? q = some k ↔
    First h (fun j => Reusable h user j ∧ P j) k := by
  rw [find?_eq_some_iff_first formed.before_asymm (formed.pairwise_reusableTasks user)]
  simp only [First, formed.mem_reusableTasks, decides]

theorem find?_reusableTasks_eq_none_iff : (h.reusableTasks user).find? q = none ↔
    ∀ j, ¬ (Reusable h user j ∧ P j) := by
  simp only [List.find?_eq_none, formed.mem_reusableTasks, decides, not_and]

end

/-- The search for a task to reuse is exact: it finds nothing when nothing fits, else the first of
the tasks made for the component, and where there are none, the first that fits at all. -/
theorem findTask?_eq_first (component : ComponentName) (affinity : String) (user : UserId) :
    (h.findTask? component affinity user = none ↔ ∀ k, ¬ Eligible h component affinity user k) ∧
      ∀ k, h.findTask? component affinity user = some k ↔
        First h (fun j => Reusable h user j ∧ MadeFor h component j) k ∨
          (∀ j, ¬ (Reusable h user j ∧ MadeFor h component j)) ∧
            First h (Eligible h component affinity user) k := by
  have made : ∀ k, (h.task? k).any (·.rootComponent == some component) = true ↔
      MadeFor h component k := fun k => by simp [MadeFor, Option.any_eq_true]
  have akin : ∀ k, (h.task? k).any (·.affinity == some affinity) = true ↔
      Akin h affinity k := fun k => by simp [Akin, Option.any_eq_true]
  have noneMade : (h.reusableTasks user).find?
      (fun k => (h.task? k).any (·.rootComponent == some component)) = none ↔
        ∀ j, ¬ (Reusable h user j ∧ MadeFor h component j) :=
    formed.find?_reusableTasks_eq_none_iff made
  constructor
  · rw [findTask?_eq_or, Option.or_eq_none_iff, noneMade,
      formed.find?_reusableTasks_eq_none_iff akin]
    simp only [Eligible, and_or_left, not_or, forall_and]
  · intro k
    rw [findTask?_eq_or, Option.or_eq_some_iff, noneMade,
      formed.find?_reusableTasks_eq_some_iff made, formed.find?_reusableTasks_eq_some_iff akin]
    refine or_congr_right (and_congr_right fun others => ?_)
    have only : ∀ j, Eligible h component affinity user j ↔
        Reusable h user j ∧ Akin h affinity j := by
      intro j
      rw [Eligible, and_or_left]
      exact or_iff_right (others j)
    simp only [First, only]

end WellFormed

/-- The task made for the inbox is taken although it is on the lower display. Settings, that no
task was made for, goes to the upper one of two nested tasks on the upper display. A task of another
affinity is not there. -/
theorem first_of_nested :
    let inbox : ComponentName := ⟨"mail", "Inbox"⟩
    let settings : ComponentName := ⟨"mail", "Settings"⟩
    let record := ActivityRecord.create { component := inbox, uid := ⟨10010⟩ } {}
    let h := afterCalls [.addDisplay ⟨0⟩ ⟨0, 0, 1920, 1080⟩,
      .createTask ⟨2⟩ { rootComponent := some inbox, affinity := some "mail" } .top,
      .addActivity ⟨3⟩ record .top, .addDisplay ⟨1⟩ ⟨0, 0, 1280, 720⟩, .createTask ⟨6⟩ {} .top,
      .createTask ⟨7⟩ { affinity := some "mail" } .top, .addActivity ⟨8⟩ record .top,
      .createTask ⟨7⟩ { affinity := some "mail" } .top, .addActivity ⟨10⟩ record .top]
    h.WellFormed ∧ h.reusableTasks default = [⟨10⟩, ⟨8⟩, ⟨3⟩] ∧
      First h (fun j => Reusable h default j ∧ MadeFor h inbox j) ⟨3⟩ ∧
      First h (Eligible h settings "mail" default) ⟨10⟩ ∧
      ∀ k, ¬ Eligible h settings "web" default k := by
  intro inbox settings record h
  have formed : h.WellFormed := wellFormed_afterCalls _
  have order : h.reusableTasks default = [⟨10⟩, ⟨8⟩, ⟨3⟩] := by decide +kernel
  have forInbox : h.findTask? inbox "mail" default = some ⟨3⟩ := by decide +kernel
  have forSettings : h.findTask? settings "mail" default = some ⟨10⟩ := by decide +kernel
  have elsewhere : h.findTask? settings "web" default = none := by decide +kernel
  have made : (h.task? ⟨3⟩).any (·.rootComponent == some inbox) = true := by decide +kernel
  have unmade : (h.task? ⟨10⟩).any (·.rootComponent == some settings) = false := by decide +kernel
  clear_value h
  refine ⟨formed, order, ?_, ?_, (formed.findTask?_eq_first settings "web" default).1.mp elsewhere⟩
  · refine (((formed.findTask?_eq_first inbox "mail" default).2 ⟨3⟩).mp forInbox).resolve_right ?_
    rintro ⟨noneMade, _⟩
    have reusable : Reusable h default ⟨3⟩ := formed.mem_reusableTasks.mp (by simp [order])
    exact noneMade ⟨3⟩ ⟨reusable, by simpa [MadeFor, Option.any_eq_true] using made⟩
  · refine ((((formed.findTask?_eq_first settings "mail" default).2 ⟨10⟩).mp
      forSettings).resolve_left ?_).2
    rintro ⟨⟨_, t, held, same⟩, _⟩
    simp [held, same] at unmade
end WindowHost.Hierarchy
