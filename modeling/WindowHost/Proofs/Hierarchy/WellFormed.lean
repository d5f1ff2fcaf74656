import WindowHost.Proofs.Hierarchy.Forest

/-! Well-formed hierarchies, and the primitive changes that keep them so. Besides the links, the
rules look at little of a node's data: its kind, the id of a display and the id of a task. -/
namespace WindowHost

/-- What the rules of a hierarchy look at in the data of a node. -/
inductive Tag where
  | display (id : DisplayId)
  | area
  | task (id : TaskId)
  | fragment
  | activity
  deriving DecidableEq

def NodeData.tag : NodeData → Tag
  | .display d => .display d.id
  | .area _ => .area
  | .task t => .task t.id
  | .fragment _ => .fragment
  | .activity _ => .activity

/-- Which kinds hold which, read off the tags. -/
def Tag.holds : Tag → Tag → Bool
  | .display _, .area => true
  | .area, .task _ => true
  | .task _, .task _ => true
  | .task _, .fragment => true
  | .task _, .activity => true
  | .fragment, .activity => true
  | _, _ => false

theorem NodeData.canContain_eq_holds (outer inner : NodeData) :
    outer.canContain inner = outer.tag.holds inner.tag := by
  cases outer <;> cases inner <;> rfl

theorem NodeData.tag_withAdjacent (partner : Option NodeId) (d : NodeData) :
    (d.withAdjacent partner).tag = d.tag := by
  cases d <;> rfl

theorem NodeData.tag_mapActivity (f : ActivityRecord → ActivityRecord) (d : NodeData) :
    (d.mapActivity f).tag = d.tag := by
  cases d <;> rfl

theorem NodeData.tag_mapTask {f : Task → Task} (keeps : ∀ t, (f t).id = t.id) (d : NodeData) :
    (d.mapTask f).tag = d.tag := by
  cases d <;> simp [mapTask, tag, keeps]

namespace Hierarchy
variable {h h' : Hierarchy} {j k p c : NodeId} {d : NodeData}

def tag? (h : Hierarchy) (k : NodeId) : Option Tag := (h.data? k).map NodeData.tag

structure WellFormed (h : Hierarchy) : Prop where
  forest : Forest h
  listed : ∀ {k}, k ∈ h.displays ↔ ∃ d, h.display? k = some d
  displays_nodup : h.displays.Nodup
  display_parentless : ∀ {k}, k ∈ h.displays → h.parent? k = none
  display_id_unique : ∀ {j k d e},
    h.display? j = some d → h.display? k = some e → d.id = e.id → j = k
  task_id_unique : ∀ {j k s t}, h.task? j = some s → h.task? k = some t → s.id = t.id → j = k
  task_id_below : ∀ {k t}, h.task? k = some t → t.id.value < h.nextTaskId.value

theorem tag?_eq_display_iff {i : DisplayId} :
    h.tag? k = some (.display i) ↔ ∃ d, h.display? k = some d ∧ d.id = i := by
  cases found : h.data? k with
  | none => simp [tag?, display?, found]
  | some data => cases data <;> simp [tag?, display?, found, NodeData.tag, NodeData.display?]

theorem tag?_eq_task_iff {i : TaskId} :
    h.tag? k = some (.task i) ↔ ∃ t, h.task? k = some t ∧ t.id = i := by
  cases found : h.data? k with
  | none => simp [tag?, task?, found]
  | some data => cases data <;> simp [tag?, task?, found, NodeData.tag, NodeData.task?]

theorem contains_eq_isSome_tag? (h : Hierarchy) (k : NodeId) :
    h.contains k = (h.tag? k).isSome := by
  simp [contains_eq_isSome_data?, tag?]

theorem Fits.of_tag? (fits : Fits h p c) (outside : h'.tag? p = h.tag? p)
    (within : h'.tag? c = h.tag? c) : Fits h' p c := by
  obtain ⟨outer, inner, foundOuter, foundInner, allowed⟩ := fits
  rw [tag?, tag?, foundOuter, Option.map_some, Option.map_eq_some_iff] at outside
  rw [tag?, tag?, foundInner, Option.map_some, Option.map_eq_some_iff] at within
  obtain ⟨outer', foundOuter', sameOuter⟩ := outside
  obtain ⟨inner', foundInner', sameInner⟩ := within
  refine ⟨outer', inner', foundOuter', foundInner', ?_⟩
  rwa [NodeData.canContain_eq_holds, sameOuter, sameInner, ← NodeData.canContain_eq_holds]

/-- A display fits nowhere. -/
theorem Fits.tag?_ne_display (fits : Fits h p c) (i : DisplayId) :
    h.tag? c ≠ some (.display i) := by
  obtain ⟨outer, inner, _, foundInner, allowed⟩ := fits
  intro shown
  rw [tag?, foundInner] at shown
  cases outer <;> cases inner <;> simp_all [NodeData.canContain, NodeData.tag]

/-- Two hierarchies that differ at most in data that the rules do not look at. -/
structure SameFrame (h h' : Hierarchy) : Prop where
  parent : ∀ k, h'.parent? k = h.parent? k
  children : ∀ k, h'.children k = h.children k
  tag : ∀ k, h'.tag? k = h.tag? k
  displays : h'.displays = h.displays
  nextTaskId : h'.nextTaskId = h.nextTaskId

theorem SameFrame.refl (h : Hierarchy) : SameFrame h h :=
  ⟨fun _ => rfl, fun _ => rfl, fun _ => rfl, rfl, rfl⟩

theorem SameFrame.trans {h'' : Hierarchy} (first : SameFrame h h') (second : SameFrame h' h'') :
    SameFrame h h'' where
  parent k := (second.parent k).trans (first.parent k)
  children k := (second.children k).trans (first.children k)
  tag k := (second.tag k).trans (first.tag k)
  displays := second.displays.trans first.displays
  nextTaskId := second.nextTaskId.trans first.nextTaskId

theorem sameFrame_modifyData (k : NodeId) {f : NodeData → NodeData}
    (keeps : ∀ d, (f d).tag = d.tag) : SameFrame h (h.modifyData k f) where
  parent := parent?_modifyData h k f
  children := children_modifyData h k f
  tag j := by
    have same : NodeData.tag ∘ f = NodeData.tag := funext keeps
    rw [tag?, tag?, data?_modifyData]
    split <;> simp [same]
  displays := rfl
  nextTaskId := rfl

theorem sameFrame_modifyActivity (k : NodeId) (f : ActivityRecord → ActivityRecord) :
    SameFrame h (h.modifyActivity k f) :=
  sameFrame_modifyData k (NodeData.tag_mapActivity f)

theorem sameFrame_modifyTask (k : NodeId) {f : Task → Task} (keeps : ∀ t, (f t).id = t.id) :
    SameFrame h (h.modifyTask k f) :=
  sameFrame_modifyData k (NodeData.tag_mapTask keeps)

theorem sameFrame_clearAdjacent (h : Hierarchy) (k : NodeId) :
    SameFrame h (h.clearAdjacent k) := by
  have parted : ∀ (h : Hierarchy) j,
      SameFrame h (h.modifyData j (NodeData.withAdjacent none)) :=
    fun _ j => sameFrame_modifyData j (NodeData.tag_withAdjacent none)
  unfold clearAdjacent
  cases h.adjacent? k with
  | none => exact parted h k
  | some partner => exact (parted h partner).trans (parted _ k)

theorem Rooted.of_parent (same : ∀ j, h'.parent? j = h.parent? j) (rooted : Rooted h k) :
    Rooted h' k := by
  induction rooted with
  | top alone => exact .top ((same _).trans alone)
  | under placed _ ih => exact .under ((same _).trans placed) ih

theorem Forest.congr (forest : Forest h) (parent : ∀ k, h'.parent? k = h.parent? k)
    (children : ∀ k, h'.children k = h.children k) (tag : ∀ k, h'.tag? k = h.tag? k) :
    Forest h' where
  child member := by
    rw [children] at member
    rw [contains_eq_isSome_tag?, tag, ← contains_eq_isSome_tag?, parent]
    exact forest.child member
  once placed := by
    rw [parent] at placed
    rw [children]
    exact forest.once placed
  kinds placed := by
    rw [parent] at placed
    exact (forest.kinds placed).of_tag? (tag _) (tag _)
  rooted k := (forest.rooted k).of_parent parent

/-- The part of well-formedness that is about names: the list of displays, the ids of displays and
the ids of tasks, all read off the tags. -/
structure Named (h : Hierarchy) : Prop where
  listed : ∀ {k}, k ∈ h.displays ↔ ∃ i, h.tag? k = some (.display i)
  displays_nodup : h.displays.Nodup
  display_unique : ∀ {j k i}, h.tag? j = some (.display i) → h.tag? k = some (.display i) → j = k
  task_unique : ∀ {j k i}, h.tag? j = some (.task i) → h.tag? k = some (.task i) → j = k
  task_below : ∀ {k i}, h.tag? k = some (.task i) → i.value < h.nextTaskId.value

theorem exists_display?_iff : (∃ d, h.display? k = some d) ↔ ∃ i, h.tag? k = some (.display i) := by
  constructor
  · rintro ⟨d, shown⟩
    exact ⟨d.id, tag?_eq_display_iff.mpr ⟨d, shown, rfl⟩⟩
  · rintro ⟨i, shown⟩
    obtain ⟨d, shown, _⟩ := tag?_eq_display_iff.mp shown
    exact ⟨d, shown⟩

theorem wellFormed_iff : h.WellFormed ↔ Forest h ∧ Named h := by
  constructor
  · intro formed
    refine ⟨formed.forest, ⟨formed.listed.trans exists_display?_iff, formed.displays_nodup,
      ?_, ?_, ?_⟩⟩
    · intro j k i left right
      obtain ⟨d, foundLeft, idLeft⟩ := tag?_eq_display_iff.mp left
      obtain ⟨e, foundRight, idRight⟩ := tag?_eq_display_iff.mp right
      exact formed.display_id_unique foundLeft foundRight (idLeft.trans idRight.symm)
    · intro j k i left right
      obtain ⟨s, foundLeft, idLeft⟩ := tag?_eq_task_iff.mp left
      obtain ⟨t, foundRight, idRight⟩ := tag?_eq_task_iff.mp right
      exact formed.task_id_unique foundLeft foundRight (idLeft.trans idRight.symm)
    · intro k i found
      obtain ⟨t, holds, rfl⟩ := tag?_eq_task_iff.mp found
      exact formed.task_id_below holds
  · rintro ⟨forest, named⟩
    refine ⟨forest, named.listed.trans exists_display?_iff.symm, named.displays_nodup,
      ?_, ?_, ?_, ?_⟩
    · intro k member
      obtain ⟨i, shown⟩ := named.listed.mp member
      cases placed : h.parent? k with
      | none => rfl
      | some p => exact absurd shown ((forest.kinds placed).tag?_ne_display i)
    · intro j k d e left right same
      exact named.display_unique (tag?_eq_display_iff.mpr ⟨d, left, same⟩)
        (tag?_eq_display_iff.mpr ⟨e, right, rfl⟩)
    · intro j k s t left right same
      exact named.task_unique (tag?_eq_task_iff.mpr ⟨s, left, same⟩)
        (tag?_eq_task_iff.mpr ⟨t, right, rfl⟩)
    · intro k t found
      exact named.task_below (tag?_eq_task_iff.mpr ⟨t, found, rfl⟩)

theorem Named.congr (named : Named h) (tag : ∀ k, h'.tag? k = h.tag? k)
    (displays : h'.displays = h.displays) (nextTaskId : h'.nextTaskId = h.nextTaskId) :
    Named h' where
  listed := by simp only [displays, tag, named.listed, implies_true]
  displays_nodup := displays ▸ named.displays_nodup
  display_unique left right := named.display_unique (tag _ ▸ left) (tag _ ▸ right)
  task_unique left right := named.task_unique (tag _ ▸ left) (tag _ ▸ right)
  task_below found := nextTaskId ▸ named.task_below (tag _ ▸ found)

theorem WellFormed.of_sameFrame (formed : h.WellFormed) (same : SameFrame h h') :
    h'.WellFormed := by
  obtain ⟨forest, named⟩ := wellFormed_iff.mp formed
  exact wellFormed_iff.mpr
    ⟨forest.congr same.parent same.children same.tag,
      named.congr same.tag same.displays same.nextTaskId⟩

theorem tag?_link (h : Hierarchy) (p c : NodeId) (position : Position) (j : NodeId) :
    (h.link p c position).tag? j = h.tag? j := by
  rw [tag?, tag?, data?_link]

theorem tag?_unlink (h : Hierarchy) (c j : NodeId) : (h.unlink c).tag? j = h.tag? j := by
  rw [tag?, tag?, data?_unlink]

theorem contains_link (h : Hierarchy) (p c : NodeId) (position : Position) (j : NodeId) :
    (h.link p c position).contains j = h.contains j := by
  rw [contains_eq_isSome_tag?, tag?_link, ← contains_eq_isSome_tag?]

theorem contains_unlink (h : Hierarchy) (c j : NodeId) :
    (h.unlink c).contains j = h.contains j := by
  rw [contains_eq_isSome_tag?, tag?_unlink, ← contains_eq_isSome_tag?]

theorem parent?_unlink_eq_some_iff {q : NodeId} :
    (h.unlink c).parent? j = some q ↔ j ≠ c ∧ h.parent? j = some q := by
  rw [parent?_unlink]
  split <;> simp_all

theorem Rooted.unlink (rooted : Rooted h k) (c : NodeId) : Rooted (h.unlink c) k := by
  induction rooted with
  | top alone => exact .top (by rw [parent?_unlink]; split <;> simp_all)
  | @under k p placed _ ih =>
    by_cases taken : k = c
    · exact .top (by rw [parent?_unlink, if_pos taken])
    · exact .under (parent?_unlink_eq_some_iff.mpr ⟨taken, placed⟩) ih

theorem Forest.unlink (forest : Forest h) (c : NodeId) : Forest (h.unlink c) where
  child := by
    intro q j member
    rw [children_unlink] at member
    rw [contains_unlink, parent?_unlink_eq_some_iff]
    split at member
    · obtain ⟨member, apart⟩ := List.mem_filter.mp member
      exact ⟨(forest.child member).1, by simpa using apart, (forest.child member).2⟩
    · refine ⟨(forest.child member).1, ?_, (forest.child member).2⟩
      rintro rfl
      exact absurd (forest.child member).2 ‹_›
  once := by
    intro q j placed
    obtain ⟨apart, placed⟩ := parent?_unlink_eq_some_iff.mp placed
    rw [children_unlink]
    split
    · rw [List.count_filter (by simpa using apart)]
      exact forest.once placed
    · exact forest.once placed
  kinds placed :=
    (forest.kinds (parent?_unlink_eq_some_iff.mp placed).2).of_tag? (tag?_unlink ..)
      (tag?_unlink ..)
  rooted k := (forest.rooted k).unlink c

theorem WellFormed.unlink (formed : h.WellFormed) (c : NodeId) : (h.unlink c).WellFormed := by
  obtain ⟨forest, named⟩ := wellFormed_iff.mp formed
  exact wellFormed_iff.mpr ⟨forest.unlink c,
    named.congr (tag?_unlink h c) (displays_unlink h c) (nextTaskId_unlink h c)⟩

section link
variable {position : Position} (fits : Fits h p c) (alone : h.parent? c = none)
include fits alone

theorem parent?_link_eq_some_iff {q : NodeId} :
    (h.link p c position).parent? j = some q ↔ j = c ∧ q = p ∨ h.parent? j = some q := by
  rw [parent?_link, fits.contains_child]
  by_cases child : j = c
  · subst child
    simp [alone, eq_comm]
  · simp [child]

/-- Nodes outside of `c` climb as they did. -/
theorem Rooted.link_of_outside (rooted : Rooted h j) (apart : j ≠ c) (outside : ¬ Inside h j c) :
    Rooted (h.link p c position) j := by
  induction rooted with
  | top top => exact .top (by rw [parent?_link, if_neg (by simp [apart]), top])
  | @under k q placed _ ih =>
    refine .under ((parent?_link_eq_some_iff fits alone).mpr (.inr placed)) (ih ?_ ?_)
    · rintro rfl
      exact outside (.child placed)
    · exact fun further => outside (.deeper placed further)

theorem Rooted.link (rooted : Rooted h j) (above : Rooted (h.link p c position) p) :
    Rooted (h.link p c position) j := by
  induction rooted with
  | @top k top =>
    by_cases child : k = c
    · exact .under ((parent?_link_eq_some_iff fits alone).mpr (.inl ⟨child, rfl⟩)) above
    · exact .top (by rw [parent?_link, if_neg (by simp [child]), top])
  | under placed _ ih => exact .under ((parent?_link_eq_some_iff fits alone).mpr (.inr placed)) ih

theorem Forest.link (forest : Forest h) (apart : p ≠ c) (outside : ¬ Inside h p c) :
    Forest (h.link p c position) where
  child := by
    intro q j member
    rw [children_link, fits.contains_parent] at member
    rw [contains_link, parent?_link_eq_some_iff fits alone]
    split at member
    · obtain ⟨rfl, _⟩ := ‹q = p ∧ _›
      rcases (position.mem_place c j _).mp member with rfl | member
      · exact ⟨fits.contains_child, .inl ⟨rfl, rfl⟩⟩
      · exact ⟨(forest.child member).1, .inr (forest.child member).2⟩
    · exact ⟨(forest.child member).1, .inr (forest.child member).2⟩
  once := by
    intro q j placed
    rw [children_link, fits.contains_parent]
    rcases (parent?_link_eq_some_iff fits alone).mp placed with ⟨rfl, rfl⟩ | kept
    · have fresh : j ∉ h.children q := by
        intro member
        rw [(forest.child member).2] at alone
        contradiction
      rw [if_pos ⟨rfl, rfl⟩, (position.place_perm j _).count_eq, List.count_cons_self,
        List.count_eq_zero_of_not_mem fresh]
    · have other : c ≠ j := by
        rintro rfl
        rw [kept] at alone
        contradiction
      split
      · obtain ⟨rfl, _⟩ := ‹q = p ∧ _›
        rw [(position.place_perm c _).count_eq, List.count_cons_of_ne other]
        exact forest.once kept
      · exact forest.once kept
  kinds := by
    intro q j placed
    rcases (parent?_link_eq_some_iff fits alone).mp placed with ⟨rfl, rfl⟩ | placed
    · exact fits.of_tag? (tag?_link ..) (tag?_link ..)
    · exact (forest.kinds placed).of_tag? (tag?_link ..) (tag?_link ..)
  rooted j :=
    (forest.rooted j).link fits alone
      ((forest.rooted p).link_of_outside fits alone apart outside)

theorem WellFormed.link (formed : h.WellFormed) (apart : p ≠ c) (outside : ¬ Inside h p c) :
    (h.link p c position).WellFormed := by
  obtain ⟨forest, named⟩ := wellFormed_iff.mp formed
  exact wellFormed_iff.mpr ⟨forest.link fits alone apart outside,
    named.congr (tag?_link h p c position) rfl rfl⟩

end link

end Hierarchy
end WindowHost
