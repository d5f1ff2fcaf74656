import Mathlib.Data.Finset.Card
import WindowHost.Proofs.Hierarchy.Cover
import WindowHost.Proofs.Hierarchy.Places
import WindowHost.Proofs.Hierarchy.Roots

/-! Pinned root tasks: a display has room for one, and each has room for one task. A call checks the
room for a task that it puts into an area or into a pinned root task. It checks nothing for an area
that comes to a display with its root tasks, nor for the tasks that come along in a pinned one, so
these are the conditions under which a run keeps to the rule. -/
namespace WindowHost

theorem WindowingMode.orFullscreen_eq_pinned_iff {m : WindowingMode} :
    m.orFullscreen = .pinned ↔ m = .pinned := by
  cases m <;> decide

theorem length_le_one_iff_of_nodup {α : Type} [DecidableEq α] {l : List α} (nodup : l.Nodup) :
    l.length ≤ 1 ↔ ∀ a ∈ l, ∀ b ∈ l, a = b := by
  simp only [← List.toFinset_card_of_nodup nodup, Finset.card_le_one, List.mem_toFinset]

theorem eq_of_length_le_one {α : Type} {l : List α} {a b : α} (short : l.length ≤ 1)
    (left : a ∈ l) (right : b ∈ l) : a = b := by
  match l with
  | [x] => rw [List.mem_singleton.mp left, List.mem_singleton.mp right]

namespace Hierarchy
variable {h h' h'' : Hierarchy} {area c display j k p root : NodeId} {data : NodeData}
  {position : Position} {call : Mutation}

/-- The pinned root tasks of a display, over all its areas. -/
def pinnedRoots (h : Hierarchy) (display : NodeId) : List NodeId :=
  (h.rootTasks display).filter (h.mode · == .pinned)

/-- The pinned root tasks of one area. -/
def pinnedIn (h : Hierarchy) (area : NodeId) : List NodeId :=
  (h.children area).filter (h.mode · == .pinned)

/-- The tasks that lie directly in a node. -/
def guests (h : Hierarchy) (k : NodeId) : List NodeId := (h.children k).filter h.isTask

/-- A pinned root task and its area, which may be on no display. -/
structure PinnedIn (h : Hierarchy) (root area : NodeId) : Prop where
  pinned : h.ownMode? root = some .pinned
  placed : h.parent? root = some area
  isArea : (h.area? area).isSome = true

theorem PinnedIn.isRootTask (pinned : PinnedIn h root area) : h.isRootTask root = true := by
  simp [Hierarchy.isRootTask, isTask_of_ownMode? pinned.pinned, pinned.placed, pinned.isArea]

theorem exists_area_of_isRootTask (isRoot : h.isRootTask root = true) :
    ∃ area, h.parent? root = some area ∧ (h.area? area).isSome = true := by
  rw [isRootTask, Bool.and_eq_true] at isRoot
  cases placed : h.parent? root with
  | none => simp [placed] at isRoot
  | some area => exact ⟨area, rfl, by simpa [placed] using isRoot.2⟩

namespace Forest
variable (forest : Forest h)
include forest

/-- No task lies around an area. -/
theorem task?_of_mem_lineage (isArea : (h.area? area).isSome = true) (member : j ∈ h.lineage area) :
    h.task? j = none := by
  cases held : h.task? j with
  | none => rfl
  | some t =>
    have container : h.isFragmentLike j = true :=
      isFragmentLike_of_isTask (by rw [isTask, held, Option.isSome_some])
    refine absurd ?_ (forest.not_inside_of_area isArea container)
    rw [lineage] at member
    split at member
    · rcases List.mem_cons.mp member with same | above
      · exact .inl same.symm
      · exact .inr (forest.mem_ancestors.mp above)
    · contradiction

/-- A root task has the mode that it has on its own account, for there is no task around it. -/
theorem mode_of_area {mode : WindowingMode} (placed : h.parent? k = some area)
    (isArea : (h.area? area).isSome = true) (own : h.ownMode? k = some mode) :
    h.mode k = mode.orFullscreen := by
  have above : (h.lineage area).findSome? (fun j => (h.task? j).bind (·.mode.explicit?)) = none :=
    List.findSome?_eq_none_iff.mpr fun j member => by
      rw [forest.task?_of_mem_lineage isArea member, Option.bind_none]
  rw [ownMode?_eq_map, Option.map_eq_some_iff] at own
  obtain ⟨t, held, rfl⟩ := own
  rw [Hierarchy.mode, forest.lineage_of_parent placed, List.findSome?_cons, held,
    Option.bind_some, above, WindowingMode.orFullscreen]
  cases t.mode.explicit? <;> rfl

theorem mode_eq_pinned_iff (placed : h.parent? k = some area)
    (isArea : (h.area? area).isSome = true) : h.mode k = .pinned ↔ h.ownMode? k = some .pinned := by
  obtain ⟨t, held⟩ := Option.isSome_iff_exists.mp (forest.isTask_of_parent placed isArea)
  have own : h.ownMode? k = some t.mode := by rw [ownMode?_eq_map, held, Option.map_some]
  simp [forest.mode_of_area placed isArea own, WindowingMode.orFullscreen_eq_pinned_iff, own]

theorem mem_pinnedIn (isArea : (h.area? area).isSome = true) :
    k ∈ h.pinnedIn area ↔ PinnedIn h k area := by
  rw [pinnedIn, List.mem_filter, forest.mem_children_iff, beq_iff_eq]
  constructor
  · rintro ⟨placed, mode⟩
    exact ⟨(forest.mode_eq_pinned_iff placed isArea).mp mode, placed, isArea⟩
  · rintro ⟨pinned, placed, _⟩
    exact ⟨placed, (forest.mode_eq_pinned_iff placed isArea).mpr pinned⟩

theorem mem_pinnedRoots (shown : (h.display? display).isSome = true) :
    k ∈ h.pinnedRoots display ↔ ∃ area, PinnedIn h k area ∧ h.parent? area = some display := by
  rw [pinnedRoots, List.mem_filter, mem_rootTasks, beq_iff_eq]
  constructor
  · rintro ⟨⟨_, area, onDisplay, inArea⟩, mode⟩
    have placed := forest.mem_children_iff.mp onDisplay
    have isArea := (forest.isSome_area?_of_parent placed).trans shown
    have under := forest.mem_children_iff.mp inArea
    exact ⟨area, ⟨(forest.mode_eq_pinned_iff under isArea).mp mode, under, isArea⟩, placed⟩
  · rintro ⟨area, ⟨pinned, under, isArea⟩, placed⟩
    exact ⟨⟨isTask_of_ownMode? pinned, area, forest.mem_children_iff.mpr placed,
      forest.mem_children_iff.mpr under⟩, (forest.mode_eq_pinned_iff under isArea).mpr pinned⟩

theorem mem_guests : j ∈ h.guests k ↔ h.isTask j = true ∧ h.parent? j = some k := by
  rw [guests, List.mem_filter, forest.mem_children_iff, and_comm]

end Forest

/-- No display has two pinned root tasks. -/
def PinnedOnce (h : Hierarchy) : Prop :=
  ∀ i j a b display, PinnedIn h i a → PinnedIn h j b → h.parent? a = some display →
    h.parent? b = some display → i = j

theorem PinnedIn.of_thins (pinned : PinnedIn h' root area) (thins : Thins h h') :
    PinnedIn h root area where
  pinned := (thins.ownMode pinned.placed).symm.trans pinned.pinned
  placed := thins.parent pinned.placed
  isArea := (isSome_area?_congr (thins.parent_tag pinned.placed)).symm.trans pinned.isArea

/-- A node that takes a place makes no other root task than itself. -/
theorem PinnedIn.of_link (fits : Fits h p c) (alone : h.parent? c = none)
    (pinned : PinnedIn (h.link p c position) root area) :
    (root = c ∧ area = p ∧ h.ownMode? c = some .pinned ∧ (h.area? p).isSome = true) ∨
      PinnedIn h root area := by
  obtain ⟨own, placed, isArea⟩ := pinned
  rw [ownMode?, data?_link] at own
  rw [isSome_area?_congr (tag?_link ..)] at isArea
  rcases (parent?_link_eq_some_iff fits alone).mp placed with ⟨rfl, rfl⟩ | kept
  · exact .inl ⟨rfl, rfl, own, isArea⟩
  · exact .inr ⟨own, kept, isArea⟩

theorem not_area_of_ownMode? {mode : WindowingMode} (own : h.ownMode? k = some mode) :
    (h.area? k).isSome = false := by
  obtain ⟨i, tag⟩ := isTask_eq_true_iff.mp (isTask_of_ownMode? own)
  simp [Bool.eq_false_iff, isSome_area?_iff, tag]

/-- A pinned task that comes to an area has to find its display free, and an area that comes to a
display has to find room there for the root tasks that it brings along. -/
theorem PinnedOnce.link (once : PinnedOnce h) (fits : Fits h p c) (alone : h.parent? c = none)
    (free : h.ownMode? c = some .pinned → (h.area? p).isSome = true →
      ∀ root area display, PinnedIn h root area → h.parent? area = some display →
        h.parent? p ≠ some display)
    (room : (h.area? c).isSome = true → ∀ i j a b, PinnedIn h i a → PinnedIn h j b →
      (a = c ∨ h.parent? a = some p) → (b = c ∨ h.parent? b = some p) → i = j) :
    PinnedOnce (h.link p c position) := by
  have shown : ∀ {a display}, (h.link p c position).parent? a = some display →
      a = c ∧ display = p ∨ h.parent? a = some display :=
    (parent?_link_eq_some_iff fits alone).mp
  -- a pinned task that arrives and a root task that was there do not share a display
  have apart : ∀ {root area display}, h.ownMode? c = some .pinned → (h.area? p).isSome = true →
      PinnedIn h root area → (h.link p c position).parent? p = some display →
      (h.link p c position).parent? area ≠ some display := by
    intro root area display own isArea pinned above beside
    have small := not_area_of_ownMode? own
    rcases shown above with ⟨rfl, _⟩ | above
    · simp [isArea] at small
    · rcases shown beside with ⟨rfl, _⟩ | beside
      · simp [pinned.isArea] at small
      · exact free own isArea root area display pinned beside above
  intro i j a b display left right shownA shownB
  rcases left.of_link fits alone with ⟨rfl, rfl, own, isArea⟩ | wasI
  · rcases right.of_link fits alone with ⟨rfl, _⟩ | wasJ
    · rfl
    · exact absurd shownB (apart own isArea wasJ shownA)
  rcases right.of_link fits alone with ⟨rfl, rfl, own, isArea⟩ | wasJ
  · exact absurd shownA (apart own isArea wasI shownB)
  rcases shown shownA with ⟨rfl, rfl⟩ | wasA
  · exact room wasI.isArea i j a b wasI wasJ (.inl rfl) ((shown shownB).imp And.left id)
  rcases shown shownB with ⟨rfl, rfl⟩ | wasB
  · exact room wasJ.isArea i j a b wasI wasJ (.inr wasA) (.inl rfl)
  · exact once i j a b display wasI wasJ wasA wasB

theorem PinnedOnce.thin (once : PinnedOnce h) (thins : Thins h h') : PinnedOnce h' :=
  fun i j a b display left right shownA shownB =>
    once i j a b display (left.of_thins thins) (right.of_thins thins) (thins.parent shownA)
      (thins.parent shownB)

/-- What the check for a pinned task has found when it lets it into an area. -/
theorem Forest.free_of_checkPinnedRoot (forest : Forest h)
    (passed : h.checkPinnedRoot p data = .ok ())
    (own : data.task?.map (·.mode) = some .pinned) (isArea : (h.area? p).isSome = true)
    (pinned : PinnedIn h root area) (onDisplay : h.parent? area = some display) :
    h.parent? p ≠ some display := by
  intro same
  have shown := (forest.isSome_area?_of_parent onDisplay).symm.trans pinned.isArea
  have above : h.displayOf? p = some display := forest.displayOf?_of_inside shown (.child same)
  have listed := forest.mem_pinnedRoots shown |>.mpr ⟨area, pinned, onDisplay⟩
  rw [pinnedRoots, List.mem_filter] at listed
  have taken : (h.rootTasks display).any (fun root => h.mode root == .pinned) = true :=
    List.any_eq_true.mpr ⟨root, listed⟩
  obtain ⟨t, held, mode⟩ := Option.map_eq_some_iff.mp own
  simp [checkPinnedRoot, held, mode, isArea, above, taken] at passed

theorem PinnedOnce.insertUnder (once : PinnedOnce h) (forest : Forest h)
    (added : h.insertUnder p data position = .ok h') : PinnedOnce h' := by
  obtain ⟨outer, found, allowed, passed, _, rfl⟩ := insertUnder_eq_ok_iff.mp added
  have thins := forest.thins_insert data
  have new : (h.insert data).ownMode? h.nextId = data.task?.map (·.mode) := by
    rw [ownMode?, data?_insert, if_pos rfl, Option.bind_some]
  have outside : (h.insert data).tag? p = h.tag? p :=
    tag?_insert_of_contains (contains_of_data? found)
  refine (once.thin thins).link (fits_nextId found allowed) (parent?_insert_nextId h data) ?_ ?_
  · intro own isArea root area display pinned onDisplay
    rw [parent?_insert] at onDisplay ⊢
    exact forest.free_of_checkPinnedRoot passed (new.symm.trans own)
      ((isSome_area?_congr outside).symm.trans isArea) (pinned.of_thins thins) onDisplay
  · -- nothing lies in the new node yet
    have beside : ∀ {root a}, PinnedIn (h.insert data) root a →
        (a = h.nextId ∨ (h.insert data).parent? a = some p) → h.parent? a = some p := by
      rintro root a pinned (rfl | placed)
      · exact absurd (.child (thins.parent pinned.placed)) forest.not_inside_nextId
      · exact thins.parent placed
    exact fun _ i j a b left right placedA placedB =>
      once i j a b p (left.of_thins thins) (right.of_thins thins) (beside left placedA)
        (beside right placedB)

/-- Every area that comes to a display finds room there: it and the display have at most one
pinned root task between them. -/
def DocksWithRoom (h h' : Hierarchy) : Prop :=
  ∀ area, (h.area? area).isSome = true → ∀ display ∈ h'.parent? area,
    h.parent? area ≠ some display → (h.pinnedIn area ++ h.pinnedRoots display).length ≤ 1

instance (h h' : Hierarchy) : Decidable (DocksWithRoom h h') :=
  decidable_of_iff (∀ i < h.nodes.next, (h.area? ⟨i⟩).isSome = true → ∀ display ∈ h'.parent? ⟨i⟩,
      h.parent? ⟨i⟩ ≠ some display → (h.pinnedIn ⟨i⟩ ++ h.pinnedRoots display).length ≤ 1)
    ⟨fun tried => forall_of_lt_next
      (fun k stale isArea => by simp [area?, data?_of_not_contains stale] at isArea) tried,
      fun all i _ => all ⟨i⟩⟩

theorem PinnedOnce.mutate (once : PinnedOnce h) (formed : h.WellFormed)
    (docks : DocksWithRoom h (h.mutate call)) : PinnedOnce (h.mutate call) := by
  refine mutate_induct formed call once PinnedOnce.thin
    (fun forest once added => once.insertUnder forest added) ?_
  intro p c position placed
  obtain ⟨outer, inner, foundOuter, foundInner, alone, allowed, _, _, passed, _, linked⟩ :=
    attach_eq_ok_iff.mp placed
  have fits : Fits (h.unlink c) p c := ⟨outer, inner, foundOuter, foundInner, allowed⟩
  have thins := thins_unlink h c
  have forest := formed.forest
  have arrives : (h.mutate call).parent? c = some p := by
    rw [← linked, parent?_link, if_pos ⟨rfl, fits.contains_child⟩]
  rw [← linked]
  refine (once.thin thins).link fits alone (fun own isArea root area display pinned => ?_) ?_
  · rw [ownMode?, foundInner, Option.bind_some] at own
    exact (forest.unlink c).free_of_checkPinnedRoot passed own isArea pinned
  · intro isArea i j a b left right besideA besideB
    have areaBefore := (isSome_area?_congr (tag?_unlink h c c)).symm.trans isArea
    by_cases stays : h.parent? c = some p
    · have beside : ∀ {a}, (a = c ∨ (h.unlink c).parent? a = some p) → h.parent? a = some p := by
        rintro a (rfl | placed)
        · exact stays
        · exact thins.parent placed
      exact once i j a b p (left.of_thins thins) (right.of_thins thins) (beside besideA)
        (beside besideB)
    · have shown : (h.display? p).isSome = true := by
        rwa [fits.isSome_area?, display?, data?_unlink] at isArea
      have listed : ∀ {root a}, PinnedIn (h.unlink c) root a →
          (a = c ∨ (h.unlink c).parent? a = some p) → root ∈ h.pinnedIn c ++ h.pinnedRoots p := by
        intro root a pinned beside
        have was := pinned.of_thins thins
        rw [List.mem_append, forest.mem_pinnedIn areaBefore, forest.mem_pinnedRoots shown]
        refine beside.imp ?_ fun placed => ⟨a, was, thins.parent placed⟩
        rintro rfl
        exact was
      exact eq_of_length_le_one (docks c areaBefore p arrives stays) (listed left besideA)
        (listed right besideB)

theorem pinnedOnce_empty : PinnedOnce empty := by
  rintro i j a b display ⟨own, _⟩
  simp [ownMode?, data?, node?_empty] at own

/-- Along any run, failing calls and stale keys included, in which every area that comes to a
display finds room there, each display has at most one pinned root task. -/
theorem pinnedRoots_afterCalls (calls : List Mutation)
    (docks : ∀ i < calls.length,
      DocksWithRoom (afterCalls (calls.take i)) (afterCalls (calls.take (i + 1)))) :
    ∀ display ∈ (afterCalls calls).displays,
      ((afterCalls calls).pinnedRoots display).length ≤ 1 := by
  intro display listed
  have formed := wellFormed_afterCalls calls
  have once : PinnedOnce (afterCalls calls) := afterCalls_induct pinnedOnce_empty
    (fun formed once docks => once.mutate formed docks) calls docks
  have shown := Option.isSome_iff_exists.mpr (formed.listed.mp listed)
  refine (length_le_one_iff_of_nodup ((formed.forest.nodup_rootTasks display).filter _)).mpr ?_
  intro i left j right
  obtain ⟨a, pinnedI, placedA⟩ := (formed.forest.mem_pinnedRoots shown).mp left
  obtain ⟨b, pinnedJ, placedB⟩ := (formed.forest.mem_pinnedRoots shown).mp right
  exact once i j a b display pinnedI pinnedJ placedA placedB

/-- An area moves with its pinned root task to a display that has none, and only then is a second
one refused there. -/
theorem pinnedRoots_of_roomy :
    let calls : List Mutation := [.addDisplay ⟨0⟩ ⟨0, 0, 1920, 1080⟩,
      .addDisplay ⟨1⟩ ⟨0, 0, 1280, 720⟩, .createRootTask ⟨4⟩ .pinned .standard .top,
      .reparent ⟨4⟩ ⟨1⟩ .top, .createRootTask ⟨2⟩ .pinned .standard .top]
    let h := afterCalls calls
    (∀ i < calls.length,
      DocksWithRoom (afterCalls (calls.take i)) (afterCalls (calls.take (i + 1)))) ∧
      ⟨1⟩ ∈ h.displays ∧ h.pinnedRoots ⟨1⟩ = [⟨5⟩] ∧ (h.pinnedRoots ⟨1⟩).length ≤ 1 := by
  intro calls h
  have docks : ∀ i < calls.length,
      DocksWithRoom (afterCalls (calls.take i)) (afterCalls (calls.take (i + 1))) := by
    decide +kernel
  have listed : ⟨1⟩ ∈ h.displays := by decide +kernel
  exact ⟨docks, listed, by decide +kernel, pinnedRoots_afterCalls calls docks ⟨1⟩ listed⟩

/-- An area that moves with its pinned root task to a display with one is let in. -/
theorem two_pinnedRoots_of_full :
    let h := afterCalls [.addDisplay ⟨0⟩ ⟨0, 0, 1920, 1080⟩, .addDisplay ⟨1⟩ ⟨0, 0, 1280, 720⟩,
      .createRootTask ⟨2⟩ .pinned .standard .top, .createRootTask ⟨4⟩ .pinned .standard .top,
      .reparent ⟨4⟩ ⟨1⟩ .top]
    ⟨1⟩ ∈ h.displays ∧ h.pinnedRoots ⟨1⟩ = [⟨6⟩, ⟨5⟩] ∧ ¬ (h.pinnedRoots ⟨1⟩).length ≤ 1 := by
  decide +kernel

/-- No pinned root task holds two tasks. -/
def GuestOnce (h : Hierarchy) : Prop :=
  ∀ root area i j, PinnedIn h root area → h.isTask i = true → h.isTask j = true →
    h.parent? i = some root → h.parent? j = some root → i = j

theorem GuestOnce.thin (once : GuestOnce h) (thins : Thins h h') : GuestOnce h' := by
  intro root area i j pinned taskI taskJ placedI placedJ
  rw [isTask_congr (thins.tag placedI)] at taskI
  rw [isTask_congr (thins.tag placedJ)] at taskJ
  exact once root area i j (pinned.of_thins thins) taskI taskJ (thins.parent placedI)
    (thins.parent placedJ)

/-- A task that comes to a pinned root task has to find it without one, and a pinned task that comes
to an area may bring one along. -/
theorem GuestOnce.link (once : GuestOnce h) (fits : Fits h p c) (alone : h.parent? c = none)
    (free : h.isTask c = true → ∀ area, PinnedIn h p area → ∀ j, h.isTask j = true →
      h.parent? j ≠ some p)
    (light : h.ownMode? c = some .pinned → (h.area? p).isSome = true → ∀ i j,
      h.isTask i = true → h.isTask j = true → h.parent? i = some c → h.parent? j = some c →
        i = j) :
    GuestOnce (h.link p c position) := by
  have held : ∀ {j root}, (h.link p c position).parent? j = some root →
      j = c ∧ root = p ∨ h.parent? j = some root :=
    (parent?_link_eq_some_iff fits alone).mp
  intro root area i j pinned taskI taskJ placedI placedJ
  rw [isTask_congr (tag?_link ..)] at taskI taskJ
  rcases pinned.of_link fits alone with ⟨rfl, rfl, own, isArea⟩ | was
  · have small := not_area_of_ownMode? own
    have kept : ∀ {j}, (h.link area root position).parent? j = some root →
        h.parent? j = some root := by
      intro j placed
      rcases held placed with ⟨_, rfl⟩ | placed
      · simp [isArea] at small
      · exact placed
    exact light own isArea i j taskI taskJ (kept placedI) (kept placedJ)
  · rcases held placedI with ⟨rfl, rfl⟩ | wasI
    · rcases held placedJ with ⟨rfl, _⟩ | wasJ
      · rfl
      · exact absurd wasJ (free taskI area was j taskJ)
    rcases held placedJ with ⟨rfl, rfl⟩ | wasJ
    · exact absurd wasI (free taskJ area was i taskI)
    · exact once root area i j was taskI taskJ wasI wasJ

/-- What the check for a task has found when it lets it into a pinned root task. -/
theorem Forest.free_of_checkPinnedGuest (forest : Forest h)
    (passed : h.checkPinnedGuest p data = .ok ()) (task : data.task?.isSome = true)
    (pinned : PinnedIn h p area) (guest : h.isTask j = true) : h.parent? j ≠ some p := by
  intro placed
  have mode := (forest.mode_eq_pinned_iff pinned.placed pinned.isArea).mpr pinned.pinned
  have full : (h.children p).any h.isTask = true :=
    List.any_eq_true.mpr ⟨j, forest.mem_children_iff.mpr placed, guest⟩
  simp [checkPinnedGuest, task, pinned.isRootTask, mode, full] at passed

theorem GuestOnce.insertUnder (once : GuestOnce h) (forest : Forest h)
    (added : h.insertUnder p data position = .ok h') : GuestOnce h' := by
  obtain ⟨outer, found, allowed, _, passed, rfl⟩ := insertUnder_eq_ok_iff.mp added
  have thins := forest.thins_insert data
  refine (once.thin thins).link (fits_nextId found allowed) (parent?_insert_nextId h data) ?_ ?_
  · intro task area pinned j guest placed
    have taskData : data.task?.isSome = true := by
      rwa [isTask, task?, data?_insert, if_pos rfl, Option.bind_some] at task
    rw [isTask_congr (thins.tag placed)] at guest
    exact forest.free_of_checkPinnedGuest passed taskData (pinned.of_thins thins) guest
      (thins.parent placed)
  · -- nothing lies in the new node yet
    intro _ _ i j _ _ placed
    exact absurd (.child (thins.parent placed)) forest.not_inside_nextId

/-- Every task that becomes a pinned root task holds at most one task when it does. -/
def PinsWithRoom (h h' : Hierarchy) : Prop :=
  ∀ root, h'.isRootTask root = true → h'.mode root = .pinned → h.isRootTask root = false →
    (h.guests root).length ≤ 1

instance (h h' : Hierarchy) : Decidable (PinsWithRoom h h') :=
  decidable_of_iff (∀ i < h'.nodes.next, h'.isRootTask ⟨i⟩ = true → h'.mode ⟨i⟩ = .pinned →
      h.isRootTask ⟨i⟩ = false → (h.guests ⟨i⟩).length ≤ 1)
    ⟨fun tried => forall_of_lt_next
      (fun k stale isRoot => by
        simp [isRootTask, isTask, task?, data?_of_not_contains stale] at isRoot) tried,
      fun all i _ => all ⟨i⟩⟩

theorem GuestOnce.mutate (once : GuestOnce h) (formed : h.WellFormed)
    (pins : PinsWithRoom h (h.mutate call)) : GuestOnce (h.mutate call) := by
  refine mutate_induct formed call once GuestOnce.thin
    (fun forest once added => once.insertUnder forest added) ?_
  intro p c position placed
  obtain ⟨outer, inner, foundOuter, foundInner, alone, allowed, _, _, _, passed, linked⟩ :=
    attach_eq_ok_iff.mp placed
  have fits : Fits (h.unlink c) p c := ⟨outer, inner, foundOuter, foundInner, allowed⟩
  have thins := thins_unlink h c
  have forest := formed.forest
  have arrives : (h.mutate call).parent? c = some p := by
    rw [← linked, parent?_link, if_pos ⟨rfl, fits.contains_child⟩]
  refine linked ▸ (once.thin thins).link fits alone ?_ ?_
  · intro task area pinned j guest
    rw [isTask, task?, foundInner, Option.bind_some] at task
    exact (forest.unlink c).free_of_checkPinnedGuest passed task pinned guest
  · intro own isArea i j taskI taskJ placedI placedJ
    rw [isTask_congr (tag?_unlink ..)] at taskI taskJ
    have before : ∀ {k}, (h.unlink c).parent? k = some c → h.parent? k = some c := thins.parent
    cases wasRoot : h.isRootTask c with
    | true =>
      rw [ownMode?, data?_unlink] at own
      obtain ⟨area, above, isArea⟩ := exists_area_of_isRootTask wasRoot
      exact once c area i j ⟨own, above, isArea⟩ taskI taskJ (before placedI) (before placedJ)
    | false =>
      have pinned : PinnedIn (h.mutate call) c p := by
        refine ⟨?_, arrives, ?_⟩
        · rwa [← linked, ownMode?, data?_link]
        · rwa [← linked, isSome_area?_congr (tag?_link ..)]
      have mode := ((formed.mutate call).forest.mode_eq_pinned_iff arrives pinned.isArea).mpr
        pinned.pinned
      exact eq_of_length_le_one (pins c pinned.isRootTask mode wasRoot)
        (forest.mem_guests.mpr ⟨taskI, before placedI⟩)
        (forest.mem_guests.mpr ⟨taskJ, before placedJ⟩)

theorem guestOnce_empty : GuestOnce empty := by
  rintro root area i j ⟨own, _⟩
  simp [ownMode?, data?, node?_empty] at own

/-- Along any run, failing calls and stale keys included, in which every task that becomes a pinned
root task holds at most one task by then, no pinned root task holds two. -/
theorem guests_afterCalls (calls : List Mutation)
    (pins : ∀ i < calls.length,
      PinsWithRoom (afterCalls (calls.take i)) (afterCalls (calls.take (i + 1)))) :
    ∀ root, (afterCalls calls).isRootTask root = true → (afterCalls calls).mode root = .pinned →
      ((afterCalls calls).guests root).length ≤ 1 := by
  intro root isRoot mode
  have forest := (wellFormed_afterCalls calls).forest
  have once : GuestOnce (afterCalls calls) := afterCalls_induct guestOnce_empty
    (fun formed once pins => once.mutate formed pins) calls pins
  obtain ⟨area, placed, isArea⟩ := exists_area_of_isRootTask isRoot
  have own := (forest.mode_eq_pinned_iff placed isArea).mp mode
  refine (length_le_one_iff_of_nodup ((forest.nodup_children root).filter _)).mpr ?_
  intro i left j right
  obtain ⟨taskI, placedI⟩ := forest.mem_guests.mp left
  obtain ⟨taskJ, placedJ⟩ := forest.mem_guests.mp right
  exact once root area i j ⟨own, placed, isArea⟩ taskI taskJ placedI placedJ

/-- A pinned task that lies in a task takes the list, becomes a root task, and takes no more. -/
theorem guests_of_light :
    let calls : List Mutation := [.addDisplay ⟨0⟩ ⟨0, 0, 1920, 1080⟩,
      .createRootTask ⟨2⟩ .fullscreen .standard .top, .createTask ⟨3⟩ { mode := .pinned } .top,
      .createTask ⟨4⟩ {} .top, .reparent ⟨4⟩ ⟨2⟩ .top, .createTask ⟨4⟩ {} .top]
    let h := afterCalls calls
    (∀ i < calls.length,
      PinsWithRoom (afterCalls (calls.take i)) (afterCalls (calls.take (i + 1)))) ∧
      h.isRootTask ⟨4⟩ = true ∧ h.mode ⟨4⟩ = .pinned ∧ h.guests ⟨4⟩ = [⟨5⟩] ∧
      (h.guests ⟨4⟩).length ≤ 1 := by
  intro calls h
  have pins : ∀ i < calls.length,
      PinsWithRoom (afterCalls (calls.take i)) (afterCalls (calls.take (i + 1))) := by
    decide +kernel
  have isRoot : h.isRootTask ⟨4⟩ = true := by decide +kernel
  have mode : h.mode ⟨4⟩ = .pinned := by decide +kernel
  exact ⟨pins, isRoot, mode, by decide +kernel, guests_afterCalls calls pins ⟨4⟩ isRoot mode⟩

/-- A pinned root task that is taken off its area takes two tasks, and comes back with them. -/
theorem two_guests_of_detached :
    let h := afterCalls [.addDisplay ⟨0⟩ ⟨0, 0, 1920, 1080⟩,
      .createRootTask ⟨2⟩ .pinned .standard .top, .detach ⟨3⟩, .createTask ⟨3⟩ {} .top,
      .createTask ⟨3⟩ {} .top, .attach ⟨2⟩ ⟨3⟩ .top]
    h.isRootTask ⟨3⟩ = true ∧ h.mode ⟨3⟩ = .pinned ∧ h.guests ⟨3⟩ = [⟨4⟩, ⟨5⟩] ∧
      ¬ (h.guests ⟨3⟩).length ≤ 1 := by
  decide +kernel

end Hierarchy
end WindowHost
