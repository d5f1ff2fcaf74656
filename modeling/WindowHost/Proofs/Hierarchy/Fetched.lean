import Mathlib.Data.List.TakeWhile
import WindowHost.Proofs.Hierarchy.Intact
import WindowHost.Proofs.Hierarchy.Undisturbed

/-! A task is brought to the front, where it lies or in another place, with all that lies in it. The
root task that had the focus keeps it if the task ends up in it, for what lay above that root task
lies below it now, or is as it was. -/
namespace WindowHost

/-- What comes before the first element of one of the parts comes before it also where that part
begins with others. -/
theorem mem_takeWhile_flatMap {α β : Type} [DecidableEq β] {l : List α} {f f' : α → List β}
    {a : α} {b first : β} (starts : (f' a).head? = some first)
    (only : ∀ c ∈ l, first ∈ f c → c = a) (kept : ∀ c ∈ l, b ∈ f' c → b ∈ f c)
    (before : b ∈ (l.flatMap f').takeWhile (· != first)) :
    b ∈ (l.flatMap f).takeWhile (· != first) := by
  induction l with
  | nil => exact before
  | cons c l ih =>
    obtain ⟨onlyHere, only⟩ := List.forall_mem_cons.mp only
    obtain ⟨keptHere, kept⟩ := List.forall_mem_cons.mp kept
    rw [List.flatMap_cons] at before ⊢
    by_cases same : c = a
    · obtain ⟨rest, shown⟩ := List.head?_eq_some_iff.mp (same ▸ starts)
      simp [shown] at before
    · have apart : ∀ d ∈ f c, (d != first) = true := by
        intro d member
        rw [bne_iff_ne]
        rintro rfl
        exact same (onlyHere member)
      rw [List.takeWhile_append_of_pos apart, List.mem_append]
      rw [List.takeWhile_append] at before
      split at before
      · rcases List.mem_append.mp before with here | later
        · exact .inl (keptHere here)
        · exact .inr (ih only kept later)
      · exact .inl (keptHere (List.takeWhile_subset _ before))

namespace Hierarchy
variable {b h h' h'' : Hierarchy} {c display k p root root' x : NodeId} {above : List NodeId}
  {position : Position}

theorem Forest.not_inside_of_isRootTask (forest : Forest h) (task : h.isRootTask root = true)
    (container : h.isFragmentLike p = true) : ¬ Inside h root p := by
  obtain ⟨area, under, isArea⟩ := exists_area_of_isRootTask task
  exact fun inside =>
    forest.not_inside_of_area isArea container ((inside_iff_of_parent under).mp inside)

/-- No node lies in two root tasks. -/
theorem Forest.isRootTask_unique (forest : Forest h) (task : h.isRootTask root = true)
    (task' : h.isRootTask root' = true) (here : x = root ∨ Inside h x root)
    (here' : x = root' ∨ Inside h x root') : root = root' := by
  have outer := fun {k} (task : h.isRootTask k = true) =>
    isFragmentLike_of_isTask (Bool.and_eq_true_iff.mp task).1
  rcases here with rfl | inside <;> rcases here' with rfl | inside'
  · rfl
  · exact absurd inside' (forest.not_inside_of_isRootTask task (outer task'))
  · exact absurd inside (forest.not_inside_of_isRootTask task' (outer task))
  · rcases inside.comparable inside' with same | around | within
    · exact same
    · exact absurd around (forest.not_inside_of_isRootTask task (outer task'))
    · exact absurd within (forest.not_inside_of_isRootTask task' (outer task))

theorem Forest.inside_of_rootTaskOf? (forest : Forest h) (known : h.rootTaskOf? k = some root) :
    h.isRootTask root = true ∧ (k = root ∨ Inside h k root) := by
  have listed := List.mem_of_find?_eq_some known
  rw [lineage] at listed
  split at listed
  · refine ⟨List.find?_some known, ?_⟩
    exact (List.mem_cons.mp listed).imp Eq.symm forest.mem_ancestors.mp
  · contradiction

/-- A task around a node is the root task around it, or lies in that. -/
theorem Forest.inside_of_isRootTask (forest : Forest h) (isRoot : h.isRootTask root = true)
    (task : h.isTask x = true) (inside : Inside h k x) (around : k = root ∨ Inside h k root) :
    x = root ∨ Inside h x root := by
  have outer := forest.not_inside_of_isRootTask isRoot (isFragmentLike_of_isTask task)
  rcases around with rfl | around
  · exact absurd inside outer
  · rcases inside.comparable around with same | within | back
    · exact .inl same
    · exact .inr within
    · exact absurd back outer

/-- Raising a task reorders no areas. -/
theorem children_raiseWithin_of_aside (container : h.isFragmentLike k = true)
    (aside : ∀ j, h.parent? j = some p → h.isFragmentLike j = false) :
    (h.raiseWithin k above).1.children p = h.children p := by
  induction above generalizing h k with
  | nil => rfl
  | cons q above ih =>
    have raised : (h.raise k).1.children p = h.children p := by
      cases placed : h.parent? k with
      | none =>
        rw [raise, placed]
      | some outer =>
        refine children_raise_of_ne placed ?_
        rintro rfl
        rw [aside k placed] at container
        contradiction
    rw [raiseWithin]
    dsimp only
    split
    · rename_i outer
      refine (ih outer fun j placed => ?_).trans raised
      rw [parent?_raise] at placed
      exact (isFragmentLike_of_data? (data?_raise h k j)).trans (aside j placed)
    · exact raised

theorem Forest.isFragmentLike_of_parent (forest : Forest h)
    (shown : (h.display? display).isSome = true) (placed : h.parent? k = some display) :
    h.isFragmentLike k = false := by
  rw [Bool.eq_false_iff]
  intro container
  have area := (forest.isSome_area?_of_parent placed).trans shown
  rw [area?_of_isFragmentLike container] at area
  contradiction

/-- A task has been moved with all that lies in it, not out of an area or into one, and the areas
are in order. At most, tasks have been added. -/
structure Fetched (x : NodeId) (h h' : Hierarchy) : Prop where
  carried : Carried x h h'
  areas : ∀ display, (h.display? display).isSome = true → h'.children display = h.children display
  place : h'.parent? x = h.parent? x ∨ ∃ p, h'.parent? x = some p ∧ h'.isTask p = true

namespace Fetched

theorem refl (x : NodeId) (h : Hierarchy) : Fetched x h h :=
  ⟨.refl x h, fun _ _ => rfl, .inl rfl⟩

theorem display? (fetched : Fetched x h h') (shown : (h.display? display).isSome = true) :
    (h'.display? display).isSome = true := by
  have live : h.contains display = true := by
    rw [contains_eq_isSome_data?]
    cases held : h.data? display <;> simp_all [Hierarchy.display?]
  rwa [Hierarchy.display?, fetched.carried.data display live, ← Hierarchy.display?]

theorem trans (first : Fetched x h h') (second : Fetched x h' h'') : Fetched x h h'' where
  carried := first.carried.trans second.carried
  areas display shown := (second.areas display (first.display? shown)).trans
    (first.areas display shown)
  place := by
    rcases second.place with same | place
    · rcases first.place with before | ⟨p, under, task⟩
      · exact .inl (same.trans before)
      · refine .inr ⟨p, same.trans under, ?_⟩
        exact isTask_of_data? (second.carried.data p (contains_of_isTask task)) task
    · exact .inr place

theorem createTask {spec : TaskSpec} (live : h.contains x = true)
    (made : h.createTask p spec position = .ok (h', c)) : Fetched x h h' := by
  have carried : Carried x h h' := .createTask x made
  obtain ⟨grown, added, rfl, _⟩ := createTask_eq_ok_iff.mp made
  refine ⟨carried, fun display shown => ?_, .inl ?_⟩
  · have kept : grown.children display = h.children display := by
      refine children_insertUnder added ?_
      rintro rfl
      obtain ⟨outer, found, allowed, _⟩ := insertUnder_eq_ok_iff.mp added
      cases outer <;> simp_all [Hierarchy.display?, NodeData.display?, NodeData.canContain]
    exact kept
  · have kept : grown.parent? x = h.parent? x :=
      parent?_insertUnder added (ne_nextId_of_contains live)
    exact kept

variable (forest : Forest h) (task : h.isTask x = true)
include forest task

theorem moveTaskToFront : Fetched x h (h.moveTaskToFront x).1 := by
  refine ⟨.moveTaskToFront x h x, fun display shown => ?_, .inl (parent?_moveTaskToFront h x x)⟩
  have raised : (h.raiseWithin x (h.ancestors x)).1.children display = h.children display :=
    children_raiseWithin_of_aside (isFragmentLike_of_isTask task)
      fun j placed => forest.isFragmentLike_of_parent shown placed
  unfold Hierarchy.moveTaskToFront
  dsimp only
  split
  · exact raised
  · exact (children_moveDisplayToTop ..).trans raised

theorem reparent (moved : h.reparent x p position = .ok h') (outer : h.isTask p = true) :
    Fetched x h h' := by
  refine ⟨.reparent moved, fun display shown => ?_, .inr ⟨p, ?_, ?_⟩⟩
  · have old : h.parent? x ≠ some display := by
      intro placed
      have plain := forest.isFragmentLike_of_parent shown placed
      rw [isFragmentLike_of_isTask task] at plain
      contradiction
    have new : display ≠ p := by
      rintro rfl
      rw [display?_of_isFragmentLike (isFragmentLike_of_isTask outer)] at shown
      contradiction
    obtain ⟨_, placed⟩ := reparent_eq_ok_iff.mp moved
    obtain ⟨_, _, _, _, _, _, _, _, _, _, rfl⟩ := attach_eq_ok_iff.mp placed
    rw [children_link, if_neg (fun here => new here.1), children_unlink, if_neg old]
  · obtain ⟨live, placed⟩ := reparent_eq_ok_iff.mp moved
    obtain ⟨_, _, found, _, _, _, _, _, _, _, rfl⟩ := attach_eq_ok_iff.mp placed
    rw [parent?_link, if_pos ⟨rfl, by rwa [contains_unlink]⟩]
  · exact isTask_of_data? (data?_reparent moved p) outer

end Fetched

namespace Carried
variable (carried : Carried x h h') (forest : Forest h)
include carried forest

/-- What lies in a node that does not hold the task lay in it before. -/
theorem inside_of_aside (aside : ¬ Inside h' x p) (inside : Inside h' k p)
    (live : h.contains k = true) : Inside h k p := by
  induction inside with
  | @child k p placed =>
    have other : k ≠ x := fun same => aside (.child (same ▸ placed))
    exact .child ((carried.parent k live other).symm.trans placed)
  | @deeper k q p placed further ih =>
    have other : k ≠ x := fun same => aside (.deeper (same ▸ placed) further)
    have placed := (carried.parent k live other).symm.trans placed
    exact .deeper placed (ih aside (forest.contains_parent placed))

/-- What lay in a node still does if the task is that node or has come to lie in it. -/
theorem inside_of_here (here : x = p ∨ Inside h' x p) (inside : Inside h k p) :
    Inside h' k p := by
  have moved : Inside h x p → Inside h' x p := fun inside =>
    here.resolve_left fun same => forest.not_inside_self p (same ▸ inside)
  induction inside with
  | @child k p placed =>
    by_cases same : k = x
    · exact same ▸ moved (same ▸ .child placed)
    · exact .child ((carried.parent k (contains_of_parent? placed) same).trans placed)
  | @deeper k q p placed further ih =>
    by_cases same : k = x
    · exact same ▸ moved (same ▸ .deeper placed further)
    · exact .deeper ((carried.parent k (contains_of_parent? placed) same).trans placed)
        (ih here moved)

end Carried

/-- The root task that the task ends up in has not moved. -/
theorem Fetched.parent?_root (fetched : Fetched x h h') (isRoot : h'.isRootTask root = true)
    (live : h.contains root = true) : h'.parent? root = h.parent? root := by
  by_cases same : root = x
  · subst same
    refine fetched.place.resolve_right ?_
    rintro ⟨p, under, task⟩
    obtain ⟨area, under', isArea⟩ := exists_area_of_isRootTask isRoot
    obtain rfl : p = area := Option.some.inj (under.symm.trans under')
    rw [area?_of_isFragmentLike (isFragmentLike_of_isTask task)] at isArea
    contradiction
  · exact fetched.carried.parent root live same

section
variable (fetched : Fetched x h h') (forest : Forest h) (forest' : Forest h')
include fetched forest forest'

theorem Fetched.mode_eq_pinned_iff (isRoot : h'.isRootTask k = true) (live : h.contains k = true)
    (placed : h'.parent? k = h.parent? k) : h'.mode k = .pinned ↔ h.mode k = .pinned := by
  obtain ⟨area, under', isArea'⟩ := exists_area_of_isRootTask isRoot
  have under := placed.symm.trans under'
  have isArea : (h.area? area).isSome = true := by
    rwa [area?, ← fetched.carried.data area (forest.contains_parent under), ← area?]
  rw [forest'.mode_eq_pinned_iff under' isArea', forest.mode_eq_pinned_iff under isArea, ownMode?,
    ownMode?, fetched.carried.data k live]

/-- Nothing new runs in a task but in the one that holds what has been moved. -/
theorem Fetched.hasRunningActivity_of_aside (task : h'.isTask k = true)
    (aside : ¬ Inside h' x k) (runs : h'.hasRunningActivity k = true) :
    h.contains k = true ∧ h.hasRunningActivity k = true := by
  obtain ⟨z, inside, held⟩ := forest'.exists_running_of_isTask task runs
  have leaf := (fetched.carried.isActivity z).symm.trans (isActivity_of_activityHas held)
  obtain ⟨a, known⟩ := Option.isSome_iff_exists.mp leaf
  have live := contains_of_activity? known
  have inside := fetched.carried.inside_of_aside forest aside inside live
  refine ⟨forest.contains_of_inside inside, forest.hasRunningActivity_iff.mpr ⟨z, .inr inside, ?_⟩⟩
  rwa [activityHas, ← activity?_of_data? (fetched.carried.data z live), ← activityHas]

/-- What has not been moved lies above a root task if it does when that is the topmost one of its
area. -/
theorem Fetched.mem_rootsAbove {area : NodeId} (shown : (h.display? display).isSome = true)
    (under : h.parent? root = some area) (isRoot : h'.isRootTask root = true)
    (last : (h'.children area).getLast? = some root) (task : h.isTask k = true) (other : k ≠ x)
    (higher : k ∈ h'.rootsAbove display root) : k ∈ h.rootsAbove display root := by
  unfold rootsAbove rootTasks at higher ⊢
  rw [fetched.areas display shown] at higher
  refine mem_takeWhile_flatMap (a := area) ?_ (fun c _ within => ?_) (fun c _ within => ?_) higher
  · obtain ⟨lower, shown⟩ := List.getLast?_eq_some_iff.mp last
    simp [shown, (Bool.and_eq_true_iff.mp isRoot).1]
  · have placed := (forest.child (List.mem_reverse.mp (List.mem_filter.mp within).1)).2
    exact Option.some.inj (placed.symm.trans under)
  · have placed := (forest'.child (List.mem_reverse.mp (List.mem_filter.mp within).1)).2
    rw [fetched.carried.parent k (contains_of_isTask task) other] at placed
    exact List.mem_filter.mpr
      ⟨List.mem_reverse.mpr (forest.mem_children_iff.mpr placed), task⟩

theorem Fetched.hasRunningActivity_of_here (task : h.isTask k = true)
    (here : x = k ∨ Inside h' x k) (runs : h.hasRunningActivity k = true) :
    h'.hasRunningActivity k = true := by
  obtain ⟨z, inside, held⟩ := forest.exists_running_of_isTask task runs
  have live := contains_of_activityHas held
  refine forest'.hasRunningActivity_iff.mpr
    ⟨z, .inr (fetched.carried.inside_of_here forest here inside), ?_⟩
  rwa [activityHas, activity?_of_data? (fetched.carried.data z live), ← activityHas]

section
variable (shown : (h.display? display).isSome = true) (member : root ∈ h.rootTasks display)
  (isRoot : h'.isRootTask root = true) (here : x = root ∨ Inside h' x root)
include shown member isRoot

theorem Fetched.mem_rootTasks : root ∈ h'.rootTasks display := by
  obtain ⟨task, area, onDisplay, inArea⟩ := Hierarchy.mem_rootTasks.mp member
  have placed := fetched.parent?_root isRoot (contains_of_isTask task)
  exact Hierarchy.mem_rootTasks.mpr ⟨(Bool.and_eq_true_iff.mp isRoot).1, area,
    fetched.areas display shown ▸ onDisplay,
    forest'.mem_children_iff.mpr (placed.trans (forest.child inArea).2)⟩

include here

/-- A task that has just been moved to the front is in the topmost root task of an area, and on the
top display. -/
theorem Fetched.front (formed' : h'.WellFormed) (container : h'.isFragmentLike x = true)
    (raised : h' = (b.moveTaskToFront x).1) : h'.topFocusedDisplay? = some display ∧
      ∃ area, h.parent? root = some area ∧ (h'.children area).getLast? = some root := by
  have deep := forest'.inside_of_mem_rootTasks
    (fetched.mem_rootTasks forest forest' shown member isRoot)
  have onTop : h'.displayOf? x = some display := by
    have shown' := fetched.display? shown
    rcases here with rfl | inside
    · exact forest'.displayOf?_of_inside shown' deep
    · exact forest'.displayOf?_of_inside shown' (inside.trans deep)
  subst raised
  obtain ⟨root', front⟩ := exists_atFront_moveTaskToFront formed' container onTop
  obtain ⟨area, isArea, _, under, last⟩ := front.exists_area
  obtain rfl : root' = root := by
    refine forest'.isRootTask_unique ?_ isRoot front.foremost.inside here
    rw [isRootTask, forest'.isTask_of_parent under isArea, under, Option.bind_some, isArea]
    rfl
  have live := contains_of_isTask (Hierarchy.mem_rootTasks.mp member).1
  exact ⟨front.top, area, (fetched.parent?_root isRoot live).symm.trans under, last⟩

end

/-- A root task that had the focus of a display has the focus, on the top display, when a task in it
has just been moved to the front. -/
theorem Fetched.focus (formed' : h'.WellFormed) (container : h'.isFragmentLike x = true)
    (raised : h' = (b.moveTaskToFront x).1) (shown : (h.display? display).isSome = true)
    (focus : h.focusedRootTask? display = some root) (runs : h.hasRunningActivity root = true)
    (isRoot : h'.isRootTask root = true) (here : x = root ∨ Inside h' x root) :
    h'.topFocusedDisplay? = some display ∧ h'.focusedRootTask? display = some root ∧
      h'.hasRunningActivity root = true := by
  obtain ⟨plain, member, order⟩ := (focusedRootTask?_eq_some_iff runs).mp focus
  have task : h.isTask root = true := (Hierarchy.mem_rootTasks.mp member).1
  have live := contains_of_isTask task
  have placed := fetched.parent?_root isRoot live
  have still := fetched.hasRunningActivity_of_here forest forest' task here runs
  obtain ⟨top, area, under, last⟩ :=
    fetched.front forest forest' shown member isRoot here formed' container raised
  refine ⟨top, (focusedRootTask?_eq_some_iff still).mpr
    ⟨?_, fetched.mem_rootTasks forest forest' shown member isRoot, fun above higher free => ?_⟩,
    still⟩
  · rwa [Ne, fetched.mode_eq_pinned_iff forest forest' isRoot live placed]
  · rw [Bool.eq_false_iff]
    intro ran
    have listed : above ∈ h'.rootTasks display := List.takeWhile_subset _ higher
    have isRootAbove := forest'.isRootTask_of_mem_rootTasks (fetched.display? shown) listed
    have task' : h'.isTask above = true := (Hierarchy.mem_rootTasks.mp listed).1
    have apart : ¬ (x = above ∨ Inside h' x above) := fun around => by
      have same := forest'.isRootTask_unique isRootAbove isRoot around here
      simpa [same] using List.mem_takeWhile_imp higher
    obtain ⟨live, ran⟩ := fetched.hasRunningActivity_of_aside forest forest' task'
      (fun deep => apart (.inr deep)) ran
    have other : above ≠ x := fun same => apart (.inl same.symm)
    have task : h.isTask above = true := by
      rwa [isTask, task?, ← fetched.carried.data above live]
    have before := fetched.mem_rootsAbove forest forest' shown under isRoot last task other higher
    rw [order above before ?_] at ran
    · contradiction
    · rwa [Ne, ← fetched.mode_eq_pinned_iff forest forest' isRootAbove live
        (fetched.carried.parent above live other)]

end

end Hierarchy
end WindowHost
