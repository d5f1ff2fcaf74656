import WindowHost.Proofs.Hierarchy.Pinned
import WindowHost.Proofs.Hierarchy.Reachable

/-! Split pairs. The halves tile their parent whatever its width, and the pair is added as a whole
or not at all, with one exception: a pinned root task that hosts nothing takes one task, so it
takes the secondary half and refuses the primary one. -/
namespace WindowHost

/-- Two rectangles side by side that make up a third one. -/
structure Rect.Tiles (whole left right : Rect) : Prop where
  start : left.x = whole.x
  middle : right.x.toInt = left.x.toInt + left.width.toInt
  total : left.width.toInt + right.width.toInt = whole.width.toInt
  left_wide : 0 ≤ left.width.toInt
  right_wide : 0 ≤ right.width.toInt
  y : left.y = whole.y ∧ right.y = whole.y
  height : left.height = whole.height ∧ right.height = whole.height

/-- An odd column goes to the right half. The halves meet between the edges of the whole, so the
place where they meet is a word if both edges are. -/
theorem Rect.tiles_halves {r : Rect} (wide : 0 ≤ r.width.toInt)
    (fits : r.x.toInt + r.width.toInt < 2147483648) :
    ∃ right, r.rightHalf = .ok right ∧ r.Tiles r.leftHalf right := by
  have low := Int32.le_toInt r.x
  have high := Int32.toInt_lt r.width
  have half : (r.width / 2).toInt = r.width.toInt / 2 := by
    have proper : r.width ≠ Int32.minValue := by
      intro least
      rw [least] at wide
      exact absurd wide (by decide)
    rw [Int32.toInt_div_of_ne_left _ _ proper]
    exact Int.tdiv_eq_ediv_of_nonneg wide
  have rest : (r.width - r.width / 2).toInt = r.width.toInt - r.width.toInt / 2 := by
    rw [Int32.toInt_sub, half]
    exact Int.bmod_eq_of_le (by omega) (by omega)
  have meets : Checked.addSigned r.x (r.width / 2) =
      .ok (Int32.ofInt (r.x.toInt + r.width.toInt / 2)) := by
    unfold Checked.addSigned
    rw [half]
    exact if_pos ⟨by omega, by omega⟩
  have middle : (Int32.ofInt (r.x.toInt + r.width.toInt / 2)).toInt =
      r.x.toInt + r.width.toInt / 2 := Int32.toInt_ofInt_of_le (by omega) (by omega)
  refine ⟨{ r with x := Int32.ofInt (r.x.toInt + r.width.toInt / 2),
                   width := r.width - r.width / 2 }, ?_, ?_⟩
  · rw [rightHalf, meets]
    rfl
  · refine ⟨rfl, ?_, ?_, ?_, ?_, ⟨rfl, rfl⟩, rfl, rfl⟩
    · rw [leftHalf, half]
      exact middle
    · rw [leftHalf, half, rest]
      omega
    · rw [leftHalf, half]
      omega
    · rw [rest]
      omega

theorem NodeData.withAdjacent_none {d : NodeData} (alone : d.adjacent? = none) :
    d.withAdjacent none = d := by
  cases d with
  | task t =>
    cases t
    simp_all [withAdjacent, adjacent?]
  | fragment f =>
    cases f
    simp_all [withAdjacent, adjacent?]
  | _ => rfl

namespace Hierarchy
variable {h h' g : Hierarchy} {a b c j k p : NodeId} {spec : TaskSpec} {position : Position}

theorem checkPinnedRoot_of_mode {t : Task} (free : t.mode ≠ .pinned) :
    h.checkPinnedRoot p (.task t) = .ok () := by
  simp [checkPinnedRoot, NodeData.task?, free]

theorem checkPinnedGuest_task_eq_ok_iff {t : Task} : h.checkPinnedGuest p (.task t) = .ok () ↔
    (h.isRootTask p = true → h.mode p = .pinned → h.guests p = []) := by
  have empty : (h.children p).any h.isTask = true ↔ h.guests p ≠ [] := by
    rw [guests, ne_eq, List.filter_eq_nil_iff, List.any_eq_true]
    simp only [not_forall, exists_prop, not_not]
  rw [checkPinnedGuest]
  split
  · rename_i full
    simp only [NodeData.task?, Option.isSome_some, Bool.true_and, Bool.and_eq_true, beq_iff_eq,
      empty] at full
    simp [full]
  · rename_i roomy
    simp only [NodeData.task?, Option.isSome_some, Bool.true_and, Bool.and_eq_true, beq_iff_eq,
      empty] at roomy
    simp only [true_iff]
    intro root pinned
    by_contra guest
    exact roomy ⟨⟨root, pinned⟩, guest⟩

theorem canContain_task_iff {outer : NodeData} {t : Task} (held : h.data? p = some outer) :
    outer.canContain (.task t) = true ↔ h.isTask p = true ∨ (h.area? p).isSome = true := by
  rw [isTask, task?, area?, held]
  cases outer <;> simp [NodeData.canContain, NodeData.task?, NodeData.area?]

/-- A task that is not pinned on its own account is taken by tasks and areas, but not by a pinned
root task that hosts one. -/
theorem exists_createTask_iff (free : spec.mode ≠ .pinned) :
    (∃ g k, h.createTask p spec position = .ok (g, k)) ↔
      (h.isTask p = true ∨ (h.area? p).isSome = true) ∧
        (h.isRootTask p = true → h.mode p = .pinned → h.guests p = []) := by
  let t : Task := { spec with id := h.nextTaskId }
  have unpinned : h.checkPinnedRoot p (.task t) = .ok () := checkPinnedRoot_of_mode free
  have added : (∃ g k, h.createTask p spec position = .ok (g, k)) ↔
      ∃ grown, h.insertUnder p (.task t) position = .ok grown := by
    simp only [createTask_eq_ok_iff]
    grind
  rw [added]
  simp only [insertUnder_eq_ok_iff, unpinned, checkPinnedGuest_task_eq_ok_iff, true_and]
  constructor
  · rintro ⟨_, outer, held, kinds, room, _⟩
    exact ⟨(canContain_task_iff held).mp kinds, room⟩
  · rintro ⟨kinds, room⟩
    cases held : h.data? p with
    | none => simp [isTask, task?, area?, held] at kinds
    | some outer => exact ⟨_, outer, rfl, (canContain_task_iff held).mpr kinds, room, rfl⟩

theorem createTask_of_full (free : spec.mode ≠ .pinned) (root : h.isRootTask p = true)
    (pinned : h.mode p = .pinned) (full : h.guests p ≠ []) :
    h.createTask p spec position = .error .pinnedRootTaskFull := by
  let t : Task := { spec with id := h.nextTaskId }
  have unpinned : h.checkPinnedRoot p (.task t) = .ok () := checkPinnedRoot_of_mode free
  have refused : h.checkPinnedGuest p (.task t) = .error .pinnedRootTaskFull := by
    have blocked : ¬ h.checkPinnedGuest p (.task t) = .ok () :=
      fun ok => full (checkPinnedGuest_task_eq_ok_iff.mp ok root pinned)
    unfold checkPinnedGuest at blocked ⊢
    split at blocked
    · rw [if_pos ‹_›]
    · contradiction
  obtain ⟨task, _⟩ := Bool.and_eq_true_iff.mp root
  cases held : h.node? p with
  | none => simp [isTask, task?, data?, held] at task
  | some n =>
    have allowed : n.data.canContain (.task t) = true :=
      (canContain_task_iff (by rw [data?, held]; rfl)).mpr (.inl task)
    have added : h.insertUnder p (.task t) position = .error .pinnedRootTaskFull := by
      simp [insertUnder, require, held, checkKinds, allowed, unpinned, refused, bind, Except.bind]
    rw [createTask, added]
    rfl

section
variable (made : h.createTask p spec .top = .ok (g, k))
include made

theorem key_createTask : k = h.nextId := by
  obtain ⟨_, _, _, rfl⟩ := createTask_eq_ok_iff.mp made
  rfl

theorem contains_of_createTask : h.contains p = true := by
  obtain ⟨_, added, _, _⟩ := createTask_eq_ok_iff.mp made
  obtain ⟨_, held, _⟩ := insertUnder_eq_ok_iff.mp added
  exact contains_of_data? held

theorem fresh_createTask : h.contains k = false := by
  rw [key_createTask made]
  exact contains_nextId h

theorem children_createTask (j : NodeId) :
    g.children j = if j = p then h.children p ++ [k] else h.children j := by
  have live := contains_of_createTask made
  obtain ⟨grown, added, rfl, rfl⟩ := createTask_eq_ok_iff.mp made
  obtain ⟨_, _, _, _, _, rfl⟩ := insertUnder_eq_ok_iff.mp added
  refine (children_link ..).trans ?_
  simp only [contains_insert_of_contains live, and_true, children_insert]
  rfl

theorem parent?_createTask (j : NodeId) :
    g.parent? j = if j = k then some p else h.parent? j := by
  split
  · rename_i same
    exact same ▸ parent?_new_createTask made
  · rename_i other
    obtain ⟨grown, added, rfl, rfl⟩ := createTask_eq_ok_iff.mp made
    have kept : grown.parent? j = h.parent? j := parent?_insertUnder added other
    exact kept

theorem displays_createTask : g.displays = h.displays := by
  obtain ⟨_, added, rfl, rfl⟩ := createTask_eq_ok_iff.mp made
  obtain ⟨_, _, _, _, _, rfl⟩ := insertUnder_eq_ok_iff.mp added
  rfl

theorem nextTaskId_createTask : g.nextTaskId = h.nextTaskId.next := by
  obtain ⟨_, _, rfl, _⟩ := createTask_eq_ok_iff.mp made
  rfl

theorem ne_of_contains_createTask (live : h.contains j = true) : j ≠ k := by
  rintro rfl
  rw [fresh_createTask made] at live
  contradiction

theorem data?_createTask_of_contains (live : h.contains j = true) : g.data? j = h.data? j := by
  rw [data?_createTask made, if_neg (ne_of_contains_createTask made live)]

variable (formed : h.WellFormed)
include formed

/-- A pinned root task stays one while it takes a task, and nothing becomes one. -/
theorem pinned_createTask_iff : (g.isRootTask p = true ∧ g.mode p = .pinned) ↔
    h.isRootTask p = true ∧ h.mode p = .pinned := by
  have data : ∀ {j}, h.contains j = true → g.data? j = h.data? j :=
    data?_createTask_of_contains made
  have live := contains_of_createTask made
  have placed : g.parent? p = h.parent? p := by
    rw [parent?_createTask made, if_neg (ne_of_contains_createTask made live)]
  have root : g.isRootTask p = h.isRootTask p := by
    rw [isRootTask, isRootTask, isTask, isTask, task?, task?, data live, placed]
    cases above : h.parent? p with
    | none => rfl
    | some area =>
      rw [Option.bind_some, Option.bind_some, area?, area?,
        data (formed.forest.contains_parent above)]
  rw [root]
  refine and_congr_right fun isRoot => ?_
  obtain ⟨area, under, isArea⟩ := exists_area_of_isRootTask isRoot
  obtain ⟨area', under', isArea'⟩ := exists_area_of_isRootTask (root.trans isRoot)
  rw [formed.forest.mode_eq_pinned_iff under isArea,
    (formed.createTask made).forest.mode_eq_pinned_iff under' isArea', ownMode?, ownMode?,
    data live]

theorem guests_createTask : g.guests p ≠ [] := by
  have task : g.isTask k = true := by
    rw [isTask, task?, data?_createTask made, if_pos rfl]
    rfl
  exact List.ne_nil_of_mem
    ((formed.createTask made).forest.mem_guests.mpr ⟨task, parent?_new_createTask made⟩)

/-- A task that has taken one takes a second one unless it is a pinned root task. -/
theorem exists_createTask_again_iff {spec' : TaskSpec} (free : spec'.mode ≠ .pinned) :
    (∃ g' j, g.createTask p spec' .top = .ok (g', j)) ↔
      ¬ (h.isRootTask p = true ∧ h.mode p = .pinned) := by
  have kinds : g.isTask p = true ∨ (g.area? p).isSome = true := by
    obtain ⟨_, added, _, _⟩ := createTask_eq_ok_iff.mp made
    obtain ⟨outer, held, allowed, _⟩ := insertUnder_eq_ok_iff.mp added
    rw [← data?_createTask_of_contains made (contains_of_createTask made)] at held
    exact (canContain_task_iff held).mp allowed
  rw [exists_createTask_iff free, ← pinned_createTask_iff made formed]
  simp [kinds, guests_createTask made formed]

end

theorem data?_clearAdjacent_of_alone (alone : h.adjacent? k = none) (j : NodeId) :
    (h.clearAdjacent k).data? j = h.data? j := by
  rw [clearAdjacent, alone]
  dsimp only
  rw [data?_modifyData]
  split
  · rename_i same
    subst same
    cases held : h.data? j with
    | none => rfl
    | some d =>
      rw [adjacent?, held, Option.bind_some] at alone
      rw [Option.map_some, NodeData.withAdjacent_none alone]
  · rfl

/-- Nodes without partners only get each other. -/
theorem data?_setAdjacent_of_alone (joined : h.setAdjacent a b = .ok h')
    (left : h.adjacent? a = none) (right : h.adjacent? b = none) (j : NodeId) :
    h'.data? j =
      if j = b then (h.data? j).map (NodeData.withAdjacent (some a))
      else if j = a then (h.data? j).map (NodeData.withAdjacent (some b)) else h.data? j := by
  obtain ⟨apart, _, _, rfl⟩ := setAdjacent_eq_ok_iff.mp joined
  have right' : (h.clearAdjacent a).adjacent? b = none := by
    rw [adjacent?, data?_clearAdjacent_of_alone left, ← adjacent?, right]
  rw [data?_modifyData, data?_modifyData, data?_clearAdjacent_of_alone right',
    data?_clearAdjacent_of_alone left]
  split
  · rename_i same
    rw [if_neg (by rintro rfl; exact apart same)]
  · rfl

theorem mode_of_task? {t : Task} {mode : WindowingMode} (held : h.task? k = some t)
    (own : t.mode.explicit? = some mode) : h.mode k = mode := by
  obtain ⟨d, data, _⟩ := Option.bind_eq_some_iff.mp held
  rw [Hierarchy.mode, lineage, if_pos (contains_of_data? data), List.findSome?_cons, held,
    Option.bind_some, own]
  rfl

theorem bounds_of_task? {t : Task} {bounds : Rect} (held : h.task? k = some t)
    (own : t.bounds = some bounds) : h.bounds k = bounds := by
  obtain ⟨d, data, same⟩ := Option.bind_eq_some_iff.mp held
  have shown : d.ownBounds? = some bounds := by
    cases d <;> simp_all [NodeData.task?, NodeData.ownBounds?]
  rw [Hierarchy.bounds, lineage, if_pos (contains_of_data? data), List.findSome?_cons, data,
    Option.bind_some, shown]
  rfl

/-- A split pair has come on top of what `p` held, and nothing else has changed. -/
structure SplitPair (h h' : Hierarchy) (p primary secondary : NodeId) : Prop where
  fresh : h.contains primary = false ∧ h.contains secondary = false
  apart : primary ≠ secondary
  children : h'.children p = h.children p ++ [secondary, primary]
  parents : h'.parent? primary = some p ∧ h'.parent? secondary = some p
  empty : h'.children primary = [] ∧ h'.children secondary = []
  primaryTask : h'.task? primary = some
    { mode := .splitPrimary, bounds := some (h'.bounds primary), id := h.nextTaskId.next
      adjacent := some secondary }
  secondaryTask : h'.task? secondary = some
    { mode := .splitSecondary, bounds := some (h'.bounds secondary), id := h.nextTaskId
      adjacent := some primary }
  adjacent : h'.adjacent? primary = some secondary ∧ h'.adjacent? secondary = some primary
  modes : h'.mode primary = .splitPrimary ∧ h'.mode secondary = .splitSecondary
  tiles : (h.bounds p).Tiles (h'.bounds primary) (h'.bounds secondary)
  host : h'.parent? p = h.parent? p ∧ h'.data? p = h.data? p
  others : ∀ k, k ≠ p → k ≠ primary → k ≠ secondary → h'.node? k = h.node? k
  displays : h'.displays = h.displays
  nextTaskId : h'.nextTaskId = h.nextTaskId.next.next

/-- The half of a pair with this mode and bounds, before it has a partner. -/
def halfSpec (mode : WindowingMode) (bounds : Rect) : TaskSpec :=
  { mode := mode, bounds := some bounds }

theorem mode_halfSpec (mode : WindowingMode) (bounds : Rect) : (halfSpec mode bounds).mode = mode :=
  rfl

section
variable {right : Rect} {g' : Hierarchy}
  (lower : h.createTask p (halfSpec .splitSecondary right) .top = .ok (g, b))
  (upper : g.createTask p (halfSpec .splitPrimary (h.bounds p).leftHalf) .top = .ok (g', a))
include lower upper

theorem keys_of_halves : h.contains a = false ∧ a ≠ b ∧ p ≠ a ∧ p ≠ b := by
  have live := contains_of_createTask lower
  have made : g.data? b = _ := (data?_createTask lower b).trans (if_pos rfl)
  have apart : a ≠ b := (ne_of_contains_createTask upper (contains_of_data? made)).symm
  have fresh : h.contains a = false := by
    have still := fresh_createTask upper
    rwa [contains_congr ((data?_createTask lower a).trans (if_neg apart))] at still
  refine ⟨fresh, apart, ?_, ne_of_contains_createTask lower live⟩
  rintro rfl
  rw [fresh] at live
  contradiction

theorem data?_of_halves (j : NodeId) : g'.data? j =
    if j = a then some (.task { halfSpec .splitPrimary (h.bounds p).leftHalf with
      id := h.nextTaskId.next })
    else if j = b then some (.task { halfSpec .splitSecondary right with id := h.nextTaskId })
    else h.data? j := by
  rw [data?_createTask upper, data?_createTask lower, nextTaskId_createTask lower]

theorem exists_setAdjacent_of_halves : ∃ h', g'.setAdjacent a b = .ok h' := by
  obtain ⟨_, apart, _⟩ := keys_of_halves lower upper
  have data := data?_of_halves lower upper
  refine ⟨_, setAdjacent_eq_ok_iff.mpr ⟨apart, ?_, ?_, rfl⟩⟩
  · rw [isFragmentLike, data, if_pos rfl]
    rfl
  · rw [isFragmentLike, data, if_neg apart.symm, if_pos rfl]
    rfl

variable (joined : g'.setAdjacent a b = .ok h')
include joined

theorem data?_of_joined (j : NodeId) : h'.data? j =
    if j = a then some (.task { halfSpec .splitPrimary (h.bounds p).leftHalf with
      id := h.nextTaskId.next, adjacent := some b })
    else if j = b then some (.task { halfSpec .splitSecondary right with
      id := h.nextTaskId, adjacent := some a })
    else h.data? j := by
  obtain ⟨_, apart, _⟩ := keys_of_halves lower upper
  have data := data?_of_halves lower upper
  have dataA : g'.data? a = _ := (data a).trans (if_pos rfl)
  have dataB : g'.data? b = _ := (data b).trans ((if_neg apart.symm).trans (if_pos rfl))
  rw [data?_setAdjacent_of_alone joined (by rw [adjacent?, dataA]; rfl)
    (by rw [adjacent?, dataB]; rfl)]
  by_cases isA : j = a
  · subst isA
    rw [if_neg apart, if_pos rfl, if_pos rfl, dataA]
    rfl
  by_cases isB : j = b
  · subst isB
    rw [if_pos rfl, if_neg isA, if_pos rfl, dataB]
    rfl
  · rw [if_neg isA, if_neg isA, if_neg isB, if_neg isB, data, if_neg isA, if_neg isB]

theorem parent?_of_joined (j : NodeId) :
    h'.parent? j = if j = a then some p else if j = b then some p else h.parent? j := by
  rw [(sameFrame_setAdjacent joined).parent, parent?_createTask upper, parent?_createTask lower]

theorem children_of_joined (j : NodeId) :
    h'.children j = if j = p then h.children p ++ [b, a] else h.children j := by
  rw [(sameFrame_setAdjacent joined).children, children_createTask upper,
    children_createTask lower, children_createTask lower]
  split <;> simp

theorem splitPair_of_joined (tiles : (h.bounds p).Tiles (h.bounds p).leftHalf right) :
    SplitPair h h' p a b := by
  obtain ⟨fresh, apart, hostA, hostB⟩ := keys_of_halves lower upper
  have data := data?_of_joined lower upper joined
  have parent := parent?_of_joined lower upper joined
  have children := children_of_joined lower upper joined
  have frame := sameFrame_setAdjacent joined
  have dataA : h'.data? a = _ := (data a).trans (if_pos rfl)
  have dataB : h'.data? b = _ := (data b).trans ((if_neg apart.symm).trans (if_pos rfl))
  have taskA : h'.task? a = _ := congrArg (Option.bind · NodeData.task?) dataA
  have taskB : h'.task? b = _ := congrArg (Option.bind · NodeData.task?) dataB
  have boundsA : h'.bounds a = (h.bounds p).leftHalf := bounds_of_task? taskA rfl
  have boundsB : h'.bounds b = right := bounds_of_task? taskB rfl
  refine ⟨⟨fresh, fresh_createTask lower⟩, apart, ?children, ?parents, ?empty, ?primaryTask,
    ?secondaryTask, ⟨?adjacentA, ?adjacentB⟩, ⟨mode_of_task? taskA rfl, mode_of_task? taskB rfl⟩,
    ?tiles, ?host, ?others, ?displays, ?nextTaskId⟩
  case children => rw [children, if_pos rfl]
  case parents =>
    rw [parent, parent, if_pos rfl, if_neg apart.symm, if_pos rfl]
    exact ⟨rfl, rfl⟩
  case empty =>
    rw [children, children, if_neg hostA.symm, if_neg hostB.symm]
    exact ⟨children_of_not_contains fresh, children_of_not_contains (fresh_createTask lower)⟩
  case primaryTask =>
    rw [taskA, boundsA]
    rfl
  case secondaryTask =>
    rw [taskB, boundsB]
    rfl
  case adjacentA => exact congrArg (Option.bind · NodeData.adjacent?) dataA
  case adjacentB => exact congrArg (Option.bind · NodeData.adjacent?) dataB
  case tiles =>
    rw [boundsA, boundsB]
    exact tiles
  case host =>
    rw [parent, data, if_neg hostA, if_neg hostA, if_neg hostB, if_neg hostB]
    exact ⟨rfl, rfl⟩
  case others =>
    intro k notHost notA notB
    refine node?_congr ?_ ?_ ?_
    · rw [parent, if_neg notA, if_neg notB]
    · rw [children, if_neg notHost]
    · rw [data, if_neg notA, if_neg notB]
  case displays => rw [frame.displays, displays_createTask upper, displays_createTask lower]
  case nextTaskId => rw [frame.nextTaskId, nextTaskId_createTask upper, nextTaskId_createTask lower]

end

/-- A pair is refused at the first half, at the second one, or not at all. -/
theorem createSplitPair_cases {right : Rect} (halved : (h.bounds p).rightHalf = .ok right) :
    (∃ e, h.createTask p (halfSpec .splitSecondary right) .top = .error e ∧
      h.createSplitPair p = .ok (h, .error e)) ∨
    ∃ g b, h.createTask p (halfSpec .splitSecondary right) .top = .ok (g, b) ∧
      ((∃ e, g.createTask p (halfSpec .splitPrimary (h.bounds p).leftHalf) .top = .error e ∧
        h.createSplitPair p = .ok (g, .error e)) ∨
      ∃ g' a, g.createTask p (halfSpec .splitPrimary (h.bounds p).leftHalf) .top = .ok (g', a) ∧
        ∃ h', g'.setAdjacent a b = .ok h' ∧ h.createSplitPair p = .ok (h', .ok (a, b))) := by
  cases lower : h.createTask p (halfSpec .splitSecondary right) .top with
  | error e =>
    refine .inl ⟨e, rfl, ?_⟩
    unfold createSplitPair
    unfold halfSpec at lower
    simp only [halved, lower, bind, Except.bind]
    rfl
  | ok made =>
    obtain ⟨g, b⟩ := made
    refine .inr ⟨g, b, rfl, ?_⟩
    cases upper : g.createTask p (halfSpec .splitPrimary (h.bounds p).leftHalf) .top with
    | error e =>
      refine .inl ⟨e, rfl, ?_⟩
      unfold createSplitPair
      unfold halfSpec at lower upper
      simp only [halved, lower, upper, bind, Except.bind]
      rfl
    | ok made =>
      obtain ⟨g', a⟩ := made
      obtain ⟨h', joined⟩ := exists_setAdjacent_of_halves lower upper
      refine .inr ⟨g', a, rfl, h', joined, ?_⟩
      unfold createSplitPair
      unfold halfSpec at lower upper
      simp only [halved, lower, upper, joined, bind, Except.bind]
      rfl

/-- A pair that fits into words is added as a whole, in two halves that tile its parent, or not at
all. The parent may be any key, but not a pinned root task that hosts no task. -/
theorem createSplitPair_spec (formed : h.WellFormed) (wide : 0 ≤ (h.bounds p).width.toInt)
    (fits : (h.bounds p).x.toInt + (h.bounds p).width.toInt < 2147483648)
    (roomy : h.isRootTask p = true → h.mode p = .pinned → h.guests p ≠ []) :
    ∃ h' answer, h.createSplitPair p = .ok (h', answer) ∧
      match answer with
      | .error _ => h' = h
      | .ok (primary, secondary) => SplitPair h h' p primary secondary := by
  obtain ⟨right, halved, tiles⟩ := Rect.tiles_halves wide fits
  rcases createSplitPair_cases halved with ⟨e, _, result⟩ | ⟨g, b, lower, further⟩
  · exact ⟨h, .error e, result, rfl⟩
  · -- a pinned root task had no room for the first half, and any other has room for both
    have room := ((exists_createTask_iff (by simp [mode_halfSpec])).mp ⟨g, b, lower⟩).2
    have plain : ¬ (h.isRootTask p = true ∧ h.mode p = .pinned) :=
      fun pinned => roomy pinned.1 pinned.2 (room pinned.1 pinned.2)
    have free : (halfSpec .splitPrimary (h.bounds p).leftHalf).mode ≠ .pinned := by
      simp [mode_halfSpec]
    obtain ⟨g', a, upper⟩ := (exists_createTask_again_iff lower formed free).mpr plain
    rcases further with ⟨e, refused, _⟩ | ⟨g'', a', upper', h', joined, result⟩
    · rw [upper] at refused
      contradiction
    · exact ⟨h', .ok (a', b), result, splitPair_of_joined lower upper' joined tiles⟩

/-- An odd width, and a right edge that is the last word. -/
theorem createSplitPair_of_odd :
    let before := afterCalls [.addDisplay ⟨0⟩ ⟨2147481726, -10, 1921, 1080⟩]
    ∃ h', before.createSplitPair ⟨2⟩ = .ok (h', .ok (⟨4⟩, ⟨3⟩)) ∧
      SplitPair before h' ⟨2⟩ ⟨4⟩ ⟨3⟩ ∧ h'.bounds ⟨4⟩ = ⟨2147481726, -10, 960, 1080⟩ ∧
      h'.bounds ⟨3⟩ = ⟨2147482686, -10, 961, 1080⟩ := by
  intro before
  have formed : before.WellFormed := wellFormed_afterCalls _
  have bounds : before.bounds ⟨2⟩ = ⟨2147481726, -10, 1921, 1080⟩ := by decide +kernel
  have area : before.isRootTask ⟨2⟩ = false := by decide +kernel
  have found : (match before.createSplitPair ⟨2⟩ with
      | .ok (h', .ok pair) => pair = (⟨4⟩, ⟨3⟩) && h'.bounds ⟨4⟩ = ⟨2147481726, -10, 960, 1080⟩ &&
        h'.bounds ⟨3⟩ = ⟨2147482686, -10, 961, 1080⟩
      | _ => false) = true := by decide +kernel
  clear_value before
  obtain ⟨h', answer, result, spec⟩ := createSplitPair_spec formed (by rw [bounds]; decide)
    (by rw [bounds]; decide) fun root => by rw [area] at root; contradiction
  rw [result] at found
  cases answer with
  | error e => contradiction
  | ok pair =>
    simp only [Bool.and_eq_true, decide_eq_true_eq] at found
    obtain ⟨⟨rfl, left⟩, right⟩ := found
    exact ⟨h', result, spec, left, right⟩

/-- The exception: the secondary half stays, though the primary one is refused. -/
theorem createSplitPair_of_lone (formed : h.WellFormed) (wide : 0 ≤ (h.bounds p).width.toInt)
    (fits : (h.bounds p).x.toInt + (h.bounds p).width.toInt < 2147483648)
    (root : h.isRootTask p = true) (pinned : h.mode p = .pinned) (lone : h.guests p = []) :
    ∃ g b, h.createSplitPair p = .ok (g, .error .pinnedRootTaskFull) ∧ h.contains b = false ∧
      g.children p = h.children p ++ [b] ∧ g.nextTaskId = h.nextTaskId.next := by
  obtain ⟨right, halved, _⟩ := Rect.tiles_halves wide fits
  have task : h.isTask p = true := (Bool.and_eq_true_iff.mp root).1
  have room : ∃ g b, h.createTask p (halfSpec .splitSecondary right) .top = .ok (g, b) :=
    (exists_createTask_iff (by simp [mode_halfSpec])).mpr ⟨.inl task, fun _ _ => lone⟩
  rcases createSplitPair_cases halved with ⟨e, refused, _⟩ | ⟨g, b, lower, further⟩
  · obtain ⟨g, b, lower⟩ := room
    rw [lower] at refused
    contradiction
  · obtain ⟨root', pinned'⟩ := (pinned_createTask_iff lower formed).mpr ⟨root, pinned⟩
    have full : g.createTask p (halfSpec .splitPrimary (h.bounds p).leftHalf) .top = _ :=
      createTask_of_full (by simp [mode_halfSpec]) root' pinned' (guests_createTask lower formed)
    rcases further with ⟨e, refused, result⟩ | ⟨g', a, upper, _⟩
    · rw [full, Except.error.injEq] at refused
      subst refused
      exact ⟨g, b, result, fresh_createTask lower, by rw [children_createTask lower, if_pos rfl],
        nextTaskId_createTask lower⟩
    · rw [full] at upper
      contradiction

/-- A call for a pinned root task that hosts nothing fails and still leaves a task in it. -/
theorem not_allOrNothing_of_lone :
    let before := afterCalls
      [.addDisplay ⟨0⟩ ⟨0, 0, 1920, 1080⟩, .createRootTask ⟨2⟩ .pinned .standard .top]
    before.WellFormed ∧ before.bounds ⟨3⟩ = ⟨0, 0, 1920, 1080⟩ ∧ before.children ⟨3⟩ = [] ∧
      ∃ after b, before.createSplitPair ⟨3⟩ = .ok (after, .error .pinnedRootTaskFull) ∧
        after.children ⟨3⟩ = [b] ∧ after ≠ before := by
  intro before
  have formed : before.WellFormed := wellFormed_afterCalls _
  have bounds : before.bounds ⟨3⟩ = ⟨0, 0, 1920, 1080⟩ := by decide +kernel
  have root : before.isRootTask ⟨3⟩ = true := by decide +kernel
  have pinned : before.mode ⟨3⟩ = .pinned := by decide +kernel
  have empty : before.children ⟨3⟩ = [] := by decide +kernel
  clear_value before
  obtain ⟨after, b, result, _, children, _⟩ := createSplitPair_of_lone formed
    (by rw [bounds]; decide) (by rw [bounds]; decide) root pinned (by rw [guests, empty]; rfl)
  rw [empty, List.nil_append] at children
  refine ⟨formed, bounds, empty, after, b, result, children, ?_⟩
  rintro rfl
  rw [empty] at children
  contradiction

end Hierarchy
end WindowHost
