import Mathlib.Data.Set.Card
import WindowHost.Hierarchy.InPlace
import WindowHost.Proofs.Hierarchy.Partners
import WindowHost.Proofs.Hierarchy.Records

/-! Removal one node at a time. The loop that takes nodes off a stack comes to the hierarchy, and to
the number, of a removal of the whole subtree at once, and nothing outside of it changes but for
the links to what is gone. -/
namespace WindowHost

theorem NodeData.withAdjacent_adjacent? (d : NodeData) : d.withAdjacent d.adjacent? = d := by
  cases d <;> rfl

theorem NodeData.withAdjacent_twice (first second : Option NodeId) (d : NodeData) :
    (d.withAdjacent first).withAdjacent second = d.withAdjacent second := by
  cases d <;> rfl

namespace Hierarchy
variable {h : Hierarchy} {a b j k : NodeId}

theorem contains_erase (h : Hierarchy) (k j : NodeId) :
    (h.erase k).contains j = (decide (j ≠ k) && h.contains j) := by
  rw [contains_eq_isSome_tag?, contains_eq_isSome_tag?, tag?_erase]
  by_cases same : j = k <;> simp [same]

theorem contains_foldl_erase (h : Hierarchy) (ks : List NodeId) (j : NodeId) :
    (ks.foldl erase h).contains j = (decide (j ∉ ks) && h.contains j) := by
  rw [contains_eq_isSome_tag?, contains_eq_isSome_tag?, tag?_foldl_erase]
  by_cases taken : j ∈ ks <;> simp [taken]

theorem dismantle_cons (live : h.contains k = true) (stack : List NodeId) :
    h.dismantle (k :: stack) =
      ((h.erase k).dismantle ((h.children k).reverse ++ stack)).map id (· + 1) := by
  rw [dismantle, if_pos live]
  rfl

/-- The nodes of a stack are taken before all that waits behind it. The nodes behind, and those
inside of what is taken, are as they were, because each node is in the stack once. -/
theorem dismantle_tops {layers : Layers} (faithful : layers.Faithful h)
    (nodup : layers.ids.Nodup) (live : ∀ j ∈ layers.ids, h.contains j = true)
    (stack : List NodeId) :
    h.dismantle (layers.tops ++ stack) =
      ((layers.ids.foldl erase h).dismantle stack).map id (· + layers.ids.length) := by
  induction layers generalizing h stack with
  | nil => rfl
  | node k inside below inner rest =>
    obtain ⟨shown, deep, further⟩ := faithful
    obtain ⟨single, nodup⟩ := List.nodup_cons.mp nodup
    obtain ⟨nodupInside, nodupBelow, disjoint⟩ := List.nodup_append'.mp nodup
    have apart : ∀ j ∈ inside.ids ++ below.ids, j ≠ k :=
      fun j member same => single (same ▸ member)
    have alive : ∀ j ∈ inside.ids ++ below.ids, (h.erase k).contains j = true := by
      intro j member
      rw [contains_erase, live j (List.mem_cons_of_mem _ member)]
      simp [apart j member]
    have kept : ∀ j ∈ inside.ids ++ below.ids, (h.erase k).children j = h.children j := by
      intro j member
      rw [children_erase, if_neg (apart j member)]
    have insideStays : inside.Faithful (h.erase k) :=
      deep.congr fun j member => kept j (List.mem_append_left _ member)
    have belowStays : below.Faithful (inside.ids.foldl erase (h.erase k)) := by
      refine further.congr fun j member => ?_
      rw [children_foldl_erase, if_neg fun taken => disjoint taken member]
      exact kept j (List.mem_append_right _ member)
    have belowAlive : ∀ j ∈ below.ids,
        (inside.ids.foldl erase (h.erase k)).contains j = true := by
      intro j member
      rw [contains_foldl_erase, alive j (List.mem_append_right _ member)]
      simpa using fun taken => disjoint taken member
    rw [Layers.tops, List.cons_append, dismantle_cons (live k List.mem_cons_self), ← shown,
      inner insideStays nodupInside fun j member => alive j (List.mem_append_left _ member),
      rest belowStays nodupBelow belowAlive, Layers.ids, List.foldl_cons, List.foldl_append]
    simp only [Prod.map, id, List.length_cons, List.length_append, Prod.mk.injEq, true_and]
    omega

theorem Forest.encard_part (forest : Forest h) (k : NodeId) :
    (h.part k).encard = h.removalCount k := by
  have listed : h.part k = ((h.subtree k).ids.toFinset : Set NodeId) := by
    ext j
    simp [forest.mem_ids_subtree_iff]
  rw [listed, Set.encard_coe_eq_coe_finsetCard,
    List.toFinset_card_of_nodup (forest.nodup_ids_subtree k), removalCount]

theorem Forest.removeInPlace_eq (forest : Forest h) (k : NodeId) :
    h.removeInPlace k = (h.remove k, h.removalCount k) := by
  cases live : h.contains k with
  | false =>
    have alone := parent?_of_not_contains live
    simp [removeInPlace, Hierarchy.remove, removalCount, live, subtree_of_not_contains live,
      Layers.ids, Hierarchy.unlink, alone]
  | true =>
    have faithful : (h.subtree k).Faithful (h.unlink k) := by
      refine (forest.faithful_subtree k).congr fun j member => ?_
      rw [children_unlink, if_neg]
      intro placed
      rcases (forest.mem_ids_subtree live).mp member with rfl | inside
      · exact forest.not_inside_self j (.child placed)
      · exact forest.not_inside_self k (.deeper placed inside)
    have alive : ∀ j ∈ (h.subtree k).ids, (h.unlink k).contains j = true := by
      intro j member
      rw [contains_unlink]
      exact (forest.mem_ids_subtree_iff.mp member).1
    have tops : (h.subtree k).tops = [k] := by simp [subtree, live, Layers.tops]
    have taken := dismantle_tops faithful (forest.nodup_ids_subtree k) alive []
    rw [tops, List.append_nil] at taken
    simp [removeInPlace, live, taken, dismantle, Hierarchy.remove, removalCount]

/-- `after` is `h` without `k` and what lies in it. Of the data of a node that stays, only the link
to a partner may change. -/
structure LosesPart (h : Hierarchy) (k : NodeId) (after : Hierarchy) : Prop where
  gone : ∀ j, after.contains j = true ↔ h.contains j = true ∧ j ∉ h.part k
  parent : ∀ j ∉ h.part k, after.parent? j = h.parent? j
  children : ∀ j ∉ h.part k, after.children j = (h.children j).filter (· ≠ k)
  data : ∀ j ∉ h.part k,
    after.data? j = (h.data? j).map (NodeData.withAdjacent (after.adjacent? j))
  displays : after.displays = h.displays.filter (after.contains ·)
  nextTaskId : after.nextTaskId = h.nextTaskId
  nextId : after.nextId = h.nextId

/-- Data that agree but for the link to a partner agree once the link is known. -/
theorem data?_of_map_withAdjacent {h' : Hierarchy}
    (same : (h'.data? j).map (NodeData.withAdjacent none) =
      (h.data? j).map (NodeData.withAdjacent none)) :
    h'.data? j = (h.data? j).map (NodeData.withAdjacent (h'.adjacent? j)) := by
  have again := congrArg (Option.map (NodeData.withAdjacent (h'.adjacent? j))) same
  simp only [Option.map_map, Function.comp_def, NodeData.withAdjacent_twice] at again
  rw [← again]
  cases found : h'.data? j with
  | none => rfl
  | some d => simp [adjacent?, found, NodeData.withAdjacent_adjacent?]

theorem losesPart_remove (formed : h.WellFormed) (k : NodeId) : LosesPart h k (h.remove k) := by
  have forest := formed.forest
  have gone : ∀ j, (h.remove k).contains j = true ↔ h.contains j = true ∧ j ∉ h.part k := by
    intro j
    rw [contains_eq_isSome_tag?, contains_eq_isSome_tag?, tag?_remove,
      ← forest.mem_ids_subtree_iff]
    by_cases taken : j ∈ (h.subtree k).ids <;> simp [taken]
  refine ⟨gone, ?_, ?_, ?_, ?_, nextTaskId_remove h k, ?_⟩
  · intro j stays
    rw [parent?_remove, if_neg (mt forest.mem_ids_subtree_iff.mp stays), parent?_unlink]
    split
    · rename_i same
      subst same
      refine (parent?_of_not_contains ?_).symm
      simpa [part] using stays
    · rfl
  · intro j stays
    rw [children_remove, if_neg (mt forest.mem_ids_subtree_iff.mp stays), children_unlink]
    split
    · exact List.filter_congr fun c _ => by simp [bne, beq_eq_decide]
    · rename_i apart
      refine (List.filter_eq_self.mpr fun c member => ?_).symm
      simpa using fun same : c = k => apart (same ▸ (forest.child member).2)
  · intro j stays
    refine data?_of_map_withAdjacent ?_
    have kept := bind_data?_remove (f := fun d => some (d.withAdjacent none))
      (fun partner d => by rw [NodeData.withAdjacent_twice]) h k j
    rw [if_neg (mt forest.mem_ids_subtree_iff.mp stays)] at kept
    simpa only [Option.map_eq_bind, Function.comp_def] using kept
  · rw [displays_remove]
    refine List.filter_congr fun d member => ?_
    obtain ⟨_, shown⟩ := formed.listed.mp member
    have live : h.contains d = true := by
      obtain ⟨data, found, -⟩ := Option.bind_eq_some_iff.mp shown
      exact contains_of_data? found
    rw [Bool.eq_iff_iff, decide_eq_true_eq, gone, forest.mem_ids_subtree_iff]
    simp [live]
  · rw [nextId, nextId, next_remove]

theorem adjacent?_foldl_erase {ks : List NodeId} (paired : Paired h) :
    (ks.foldl erase h).adjacent? a = some b ↔ h.adjacent? a = some b ∧ a ∉ ks ∧ b ∉ ks := by
  induction ks generalizing h with
  | nil => simp
  | cons k ks ih =>
    rw [List.foldl_cons, ih (paired.erase k), adjacent?_erase, adjacent?_clearAdjacent]
    have back : h.adjacent? a = some b → (h.adjacent? k = some a ↔ b = k) := by
      intro linked
      constructor
      · intro other
        have := (paired k a other).2
        rw [linked, Option.some.injEq] at this
        exact this
      · rintro rfl
        exact (paired a b linked).2
    split
    · rename_i parted
      simp only [reduceCtorEq, false_and, false_iff, not_and]
      intro linked apart
      rcases parted with rfl | other
      · simp at apart
      · simp [(back linked).mp other]
    · rename_i kept
      rw [not_or] at kept
      constructor
      · rintro ⟨linked, left, right⟩
        have apart : b ≠ k := fun same => kept.2 ((back linked).mpr same)
        simp [linked, left, right, kept.1, apart]
      · rintro ⟨linked, left, right⟩
        rw [List.mem_cons, not_or] at left right
        exact ⟨linked, left.2, right.2⟩

theorem adjacent?_remove_eq_some_iff (forest : Forest h) (paired : Paired h) :
    (h.remove k).adjacent? a = some b ↔
      h.adjacent? a = some b ∧ a ∉ h.part k ∧ b ∉ h.part k := by
  have before : ∀ j, (h.unlink k).adjacent? j = h.adjacent? j :=
    fun j => adjacent?_of_data? (data?_unlink h k j)
  rw [remove, adjacent?_foldl_erase (paired.congr before), before, forest.mem_ids_subtree_iff,
    forest.mem_ids_subtree_iff]

/-- Removal takes a node with all that lies in it and nothing else: the loop ends with their number
and without them, the other nodes keep their places and their data, and of the links between
partners those are left that lose neither end. -/
theorem removeInPlace_takes_part (formed : h.WellFormed) (k : NodeId) :
    h.removeInPlace k = (h.remove k, h.removalCount k) ∧
      (h.part k).encard = h.removalCount k ∧
      (h.contains k = false → h.removalCount k = 0) ∧
      LosesPart h k (h.remove k) ∧
      (Paired h → ∀ a b, (h.remove k).adjacent? a = some b ↔
        h.adjacent? a = some b ∧ a ∉ h.part k ∧ b ∉ h.part k) := by
  have forest := formed.forest
  refine ⟨forest.removeInPlace_eq k, forest.encard_part k, fun stale => ?_,
    losesPart_remove formed k, fun paired a b => adjacent?_remove_eq_some_iff forest paired⟩
  rw [removalCount, subtree_of_not_contains stale]
  rfl

/-- A root task that is half of a split pair is removed with what it holds: the other half goes
without a partner, and the fragments in it keep each other. -/
theorem removeInPlace_of_half :
    let record := ActivityRecord.create { component := ⟨"mail", "Inbox"⟩, uid := ⟨10010⟩ } {}
    let h := afterCalls [.addDisplay ⟨0⟩ ⟨0, 0, 1920, 1080⟩, .createSplitPair ⟨2⟩,
      .createFragment ⟨3⟩ none .top, .addActivity ⟨5⟩ record .top,
      .createFragment ⟨4⟩ none .top, .createFragment ⟨4⟩ none .top, .setAdjacent ⟨7⟩ ⟨8⟩]
    h.adjacent? ⟨3⟩ = some ⟨4⟩ ∧ (h.removeInPlace ⟨3⟩).2 = 3 ∧
      (h.removeInPlace ⟨3⟩).1.adjacent? ⟨4⟩ = none ∧
        (h.removeInPlace ⟨3⟩).1.adjacent? ⟨7⟩ = some ⟨8⟩ := by
  intro record h
  have formed : h.WellFormed := wellFormed_afterCalls _
  have paired : Paired h := (Reachable.empty.foldl_mutate _).paired
  have taken : (h.subtree ⟨3⟩).ids = [⟨3⟩, ⟨5⟩, ⟨6⟩] := by decide +kernel
  have halves : h.adjacent? ⟨3⟩ = some ⟨4⟩ := by decide +kernel
  have fragments : h.adjacent? ⟨7⟩ = some ⟨8⟩ := by decide +kernel
  clear_value h
  obtain ⟨loop, -, -, -, links⟩ := removeInPlace_takes_part formed ⟨3⟩
  simp only [← formed.forest.mem_ids_subtree_iff, taken] at links
  refine ⟨halves, by rw [loop, removalCount, taken]; rfl, ?_, ?_⟩
  · rw [loop, Option.eq_none_iff_forall_ne_some]
    intro b linked
    obtain ⟨before, -, stays⟩ := (links paired ⟨4⟩ b).mp linked
    rw [(paired _ _ halves).2, Option.some.injEq] at before
    exact stays (by simp [← before])
  · rw [loop]
    exact (links paired ⟨7⟩ ⟨8⟩).mpr ⟨fragments, by decide, by decide⟩

end Hierarchy
end WindowHost
