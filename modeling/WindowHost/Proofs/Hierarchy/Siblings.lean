import Mathlib.Data.List.Count
import Mathlib.Data.List.TakeWhile
import Mathlib.Logic.Equiv.Basic
import WindowHost.Proofs.Hierarchy.Partners

/-! What the siblings above a node do to it, without regard to the order in which they are looked
through. A scan goes on past a container that covers nothing alone and keeps its partner in mind, so
it tells of a pair at the lower one of the two; as partners point at each other, it makes no
difference which one that is. -/
namespace WindowHost.Hierarchy
variable {h h' : Hierarchy} {starting : Option NodeId} {a b c j k p x : NodeId}

/-- Looks through `ks` for one that covers `alone`, or that `pairs` with one before it or with the
partner of a node in `noted`. -/
def scan (alone pairs : NodeId → Bool) (partner? : NodeId → Option NodeId) :
    List NodeId → List NodeId → Bool
  | _, [] => false
  | noted, k :: below =>
    alone k || (pairs k && noted.contains k) ||
      scan alone pairs partner? (if pairs k then (partner? k).toList ++ noted else noted) below

section
variable {alone pairs : NodeId → Bool} {partner? : NodeId → Option NodeId} {ks noted : List NodeId}

/-- The nodes noted at a place in the list are those noted at first and the partners of the nodes
before it. -/
theorem scan_eq_true_iff : scan alone pairs partner? noted ks = true ↔
    (∃ k ∈ ks, alone k = true) ∨ ∃ before k after, ks = before ++ k :: after ∧ pairs k = true ∧
      (k ∈ noted ∨ ∃ j ∈ before, pairs j = true ∧ partner? j = some k) := by
  induction ks generalizing noted with
  | nil => simp [scan]
  | cons x below ih =>
    have noting : ∀ k, k ∈ (if pairs x then (partner? x).toList ++ noted else noted) ↔
        (pairs x = true ∧ partner? x = some k) ∨ k ∈ noted := by
      intro k
      split <;> simp_all
    rw [scan, Bool.or_eq_true, Bool.or_eq_true, ih]
    simp only [noting, Bool.and_eq_true, List.contains_iff_mem, List.exists_mem_cons_iff]
    constructor
    · rintro ((covers | ⟨paired, listed⟩) | covers | ⟨before, k, after, rfl, paired, found⟩)
      · exact .inl (.inl covers)
      · exact .inr ⟨[], x, below, rfl, paired, .inl listed⟩
      · exact .inl (.inr covers)
      · refine .inr ⟨x :: before, k, after, rfl, paired, ?_⟩
        rcases found with (here | listed) | ⟨j, member, there⟩
        · exact .inr ⟨x, List.mem_cons_self, here⟩
        · exact .inl listed
        · exact .inr ⟨j, List.mem_cons_of_mem _ member, there⟩
    · rintro ((covers | covers) | ⟨before, k, after, split, paired, found⟩)
      · exact .inl (.inl covers)
      · exact .inr (.inl covers)
      · cases before with
        | nil =>
          obtain ⟨rfl, rfl⟩ := List.cons.inj split
          rcases found with listed | ⟨j, member, _⟩
          · exact .inl (.inr ⟨paired, listed⟩)
          · contradiction
        | cons y before =>
          obtain ⟨rfl, rfl⟩ := List.cons.inj split
          refine .inr (.inr ⟨before, k, after, rfl, paired, ?_⟩)
          rcases found with listed | ⟨j, member, there⟩
          · exact .inl (.inr listed)
          · rcases List.mem_cons.mp member with rfl | later
            · exact .inl (.inl there)
            · exact .inr ⟨j, later, there⟩

/-- Where partners point at each other, a scan finds just what covers alone, and the pairs. -/
theorem scan_eq_true_iff_of_mutual
    (back : ∀ {a b}, partner? a = some b → partner? b = some a)
    (once : ∀ {a}, partner? a = some a → ks.count a ≤ 1) :
    scan alone pairs partner? [] ks = true ↔ (∃ k ∈ ks, alone k = true) ∨
      ∃ a ∈ ks, ∃ b ∈ ks, a ≠ b ∧ pairs a = true ∧ pairs b = true ∧ partner? a = some b := by
  rw [scan_eq_true_iff]
  refine or_congr_right ⟨?_, ?_⟩
  · rintro ⟨before, k, after, rfl, paired, found⟩
    obtain ⟨j, member, paired', partner⟩ := found.resolve_left List.not_mem_nil
    refine ⟨j, by simp [member], k, by simp, ?_, paired', paired, partner⟩
    -- its own partner would stand in the list twice
    rintro rfl
    have twice := once partner
    have before_pos := List.count_pos_iff.mpr member
    rw [List.count_append, List.count_cons_self] at twice
    omega
  · rintro ⟨a, memberA, b, memberB, apart, pairedA, pairedB, partner⟩
    obtain ⟨before, after, rfl⟩ := List.append_of_mem memberB
    rcases List.mem_append.mp memberA with first | later
    · exact ⟨before, b, after, rfl, pairedB, .inr ⟨a, first, pairedA, partner⟩⟩
    · obtain ⟨middle, rest, rfl⟩ :=
        List.append_of_mem ((List.mem_cons.mp later).resolve_left apart)
      refine ⟨before ++ b :: middle, a, rest, by simp, pairedA, .inr ⟨b, by simp, pairedB, ?_⟩⟩
      exact back partner

end

/-- What covers a child alone: an opaque activity, or an opaque container with these bounds. -/
def fills (h : Hierarchy) (starting : Option NodeId) (bounds : Rect) (k : NodeId) : Bool :=
  match h.activity? k with
  | some r => r.isRunning && r.occludesParent
  | none => h.isOpaque k starting && h.bounds k == bounds

theorem coversAll_eq_scan (bounds : Rect) (noted ks : List NodeId) :
    h.coversAll starting bounds noted ks = scan (h.fills starting bounds)
      (fun k => !h.isActivity k && h.isOpaque k starting) h.adjacent? noted ks := by
  induction ks generalizing noted with
  | nil => rfl
  | cons k below ih =>
    rw [coversAll, scan, fills, isActivity]
    cases held : h.activity? k with
    | some r => simp [ih]
    | none => cases opaque_ : h.isOpaque k starting <;> simp [ih]

theorem coversRoots_eq_scan (noted ks : List NodeId) :
    h.coversRoots starting noted ks =
      scan (fun k => h.isOpaque k starting && h.mode k == .fullscreen)
        (fun k => h.isOpaque k starting && (h.mode k).isSplit) h.adjacent? noted ks := by
  induction ks generalizing noted with
  | nil => rfl
  | cons k below ih =>
    rw [coversRoots, scan]
    cases h.isOpaque k starting with
    | false => simp [ih]
    | true =>
      by_cases whole : h.mode k = .fullscreen
      · simp [whole]
      · have other : (h.mode k == .fullscreen) = false := beq_eq_false_iff_ne.mpr whole
        cases halves : (h.mode k).isSplit <;> simp [whole, other, halves, ih]

/-- `j` stands above `k` among the children of `p`. -/
def Above (h : Hierarchy) (p k j : NodeId) : Prop :=
  ∃ lower upper, h.children p = lower ++ k :: upper ∧ k ∉ lower ∧ j ∈ upper

theorem Above.mem_children (above : Above h p k j) : j ∈ h.children p := by
  obtain ⟨lower, upper, split, _, member⟩ := above
  simp [split, member]

theorem above_iff_mem {lower upper : List NodeId} (split : h.children p = lower ++ k :: upper)
    (first : k ∉ lower) : Above h p k j ↔ j ∈ upper := by
  constructor
  · rintro ⟨lower', upper', split', first', member⟩
    have same := siblingsAbove_of_children split first
    rw [siblingsAbove_of_children split' first', List.reverse_inj] at same
    exact same ▸ member
  · exact fun member => ⟨lower, upper, split, first, member⟩

theorem mem_siblingsAbove : j ∈ h.siblingsAbove p k ↔ Above h p k j := by
  constructor
  · intro member
    by_cases listed : k ∈ h.children p
    · obtain ⟨lower, upper, split, first⟩ := List.eq_append_cons_of_mem listed
      rw [siblingsAbove_of_children split first, List.mem_reverse] at member
      exact (above_iff_mem split first).mpr member
    · have none : (h.children p).dropWhile (· != k) = [] := by
        rw [List.dropWhile_eq_nil_iff]
        exact fun x within => by simpa using fun same : x = k => listed (same ▸ within)
      rw [siblingsAbove, none] at member
      contradiction
  · rintro ⟨lower, upper, split, first, member⟩
    rw [siblingsAbove_of_children split first, List.mem_reverse]
    exact member

/-- Two different siblings above a node, partners of each other. -/
structure PairAbove (h : Hierarchy) (p k a b : NodeId) : Prop where
  left : Above h p k a
  right : Above h p k b
  apart : a ≠ b
  forth : h.adjacent? a = some b
  back : h.adjacent? b = some a

/-- Partners point at each other. Child lists name no node twice and partners are two nodes, but of
both no more is asked for than that a node that were its own partner is not listed twice. -/
structure Mutual (h : Hierarchy) : Prop where
  back : ∀ {a b}, h.adjacent? a = some b → h.adjacent? b = some a
  once : ∀ {p a}, h.adjacent? a = some a → (h.children p).count a ≤ 1

theorem Forest.mutual (forest : Forest h)
    (back : ∀ {a b}, h.adjacent? a = some b → h.adjacent? b = some a) : Mutual h where
  back := back
  once {p a} _ := List.nodup_iff_count_le_one.mp (forest.nodup_children p) a

theorem Mutual.scan_siblingsAbove (mutual_ : Mutual h) {alone pairs : NodeId → Bool} :
    scan alone pairs h.adjacent? [] (h.siblingsAbove p k) = true ↔
      (∃ j, Above h p k j ∧ alone j = true) ∨
        ∃ a b, PairAbove h p k a b ∧ pairs a = true ∧ pairs b = true := by
  have once : ∀ {a}, h.adjacent? a = some a → (h.siblingsAbove p k).count a ≤ 1 := by
    intro a own
    have part : ((h.children p).dropWhile (· != k)).tail.Sublist (h.children p) :=
      (List.tail_sublist _).trans (List.dropWhile_sublist _)
    rw [siblingsAbove, List.count_reverse]
    exact Nat.le_trans (part.count_le a) (mutual_.once own)
  rw [scan_eq_true_iff_of_mutual mutual_.back once]
  simp only [mem_siblingsAbove]
  refine or_congr_right ⟨?_, ?_⟩
  · rintro ⟨a, aboveA, b, aboveB, apart, pairedA, pairedB, partner⟩
    exact ⟨a, b, ⟨aboveA, aboveB, apart, partner, mutual_.back partner⟩, pairedA, pairedB⟩
  · rintro ⟨a, b, pair, pairedA, pairedB⟩
    exact ⟨a, pair.left, b, pair.right, pair.apart, pairedA, pairedB, pair.forth⟩

/-- The container has a running activity and is not translucent. -/
def Solid (h : Hierarchy) (starting : Option NodeId) (k : NodeId) : Prop :=
  h.hasRunningActivity k = true ∧ h.isTranslucent k starting = false

instance (h : Hierarchy) (starting : Option NodeId) (k : NodeId) :
    Decidable (Solid h starting k) :=
  inferInstanceAs (Decidable (_ ∧ _))

theorem isOpaque_iff : h.isOpaque k starting = true ↔ Solid h starting k := by
  rw [isOpaque, Bool.and_eq_true, Bool.not_eq_true', Solid]

/-- Above a root task there is an opaque fullscreen one, or an opaque pair of split ones. -/
def RootCoverAbove (h : Hierarchy) (starting : Option NodeId) (area k : NodeId) : Prop :=
  (∃ j, Above h area k j ∧ Solid h starting j ∧ h.mode j = .fullscreen) ∨
    ∃ a b, PairAbove h area k a b ∧ (Solid h starting a ∧ (h.mode a).isSplit = true) ∧
      Solid h starting b ∧ (h.mode b).isSplit = true

/-- Above a child there is a running opaque activity, an opaque container with the bounds of the
parent, or a pair of opaque containers. -/
def CoverAbove (h : Hierarchy) (starting : Option NodeId) (p k : NodeId) : Prop :=
  (∃ j r, Above h p k j ∧ h.activity? j = some r ∧ r.isRunning = true ∧
    r.occludesParent = true) ∨
  (∃ j, Above h p k j ∧ h.isActivity j = false ∧ Solid h starting j ∧
    h.bounds j = h.bounds p) ∨
  ∃ a b, PairAbove h p k a b ∧ (h.isActivity a = false ∧ Solid h starting a) ∧
    h.isActivity b = false ∧ Solid h starting b

theorem isRootTaskUncovered_eq_false_iff (mutual_ : Mutual h) (placed : h.parent? k = some p)
    (unpinned : h.mode k ≠ .pinned) :
    h.isRootTaskUncovered k starting = false ↔ RootCoverAbove h starting p k := by
  have scanned : h.isRootTaskUncovered k starting =
      !h.coversRoots starting [] (h.siblingsAbove p k) := by
    simp [isRootTaskUncovered, placed, unpinned]
  rw [scanned, Bool.not_eq_false', coversRoots_eq_scan, mutual_.scan_siblingsAbove]
  simp only [RootCoverAbove, Bool.and_eq_true, beq_iff_eq, isOpaque_iff]

theorem isCoveredBySiblings_iff (mutual_ : Mutual h) :
    h.isCoveredBySiblings p k starting = true ↔ CoverAbove h starting p k := by
  have alone : ∀ j, h.fills starting (h.bounds p) j = true ↔
      (∃ r, h.activity? j = some r ∧ r.isRunning = true ∧ r.occludesParent = true) ∨
        h.isActivity j = false ∧ Solid h starting j ∧ h.bounds j = h.bounds p := by
    intro j
    rw [fills, isActivity]
    cases h.activity? j <;> simp [isOpaque_iff]
  rw [isCoveredBySiblings, coversAll_eq_scan, mutual_.scan_siblingsAbove]
  simp only [CoverAbove, alone, Bool.and_eq_true, Bool.not_eq_true', isOpaque_iff, and_or_left,
    exists_or, or_assoc, exists_and_left]

/-- The same nodes, and in each the same children in any order. -/
structure Rearranged (h h' : Hierarchy) : Prop where
  next : h'.nodes.next = h.nodes.next
  parent? : ∀ k, h'.parent? k = h.parent? k
  data? : ∀ k, h'.data? k = h.data? k
  mem_children : ∀ {p c}, c ∈ h'.children p ↔ c ∈ h.children p

theorem ids_stack_succ (h : Hierarchy) (depth : Nat) (ks : List NodeId) :
    (h.stack (depth + 1) ks).ids =
      ks.flatMap fun k => k :: (h.stack depth (h.children k).reverse).ids := by
  induction ks with
  | nil => rfl
  | cons k ks ih =>
    rw [List.flatMap_cons, ← ih]
    rfl

namespace Rearranged
variable (same : Rearranged h h')
include same

theorem mem_ids_stack (depth : Nat) : ∀ {ks ks' : List NodeId}, (∀ k, k ∈ ks' ↔ k ∈ ks) →
    ∀ x, x ∈ (h'.stack depth ks').ids ↔ x ∈ (h.stack depth ks).ids := by
  induction depth with
  | zero => exact fun _ _ => Iff.rfl
  | succ depth ih =>
    intro ks ks' listed x
    have inner : ∀ k, x ∈ (h'.stack depth (h'.children k).reverse).ids ↔
        x ∈ (h.stack depth (h.children k).reverse).ids :=
      fun k => ih (fun c => by simp [same.mem_children]) x
    simp only [ids_stack_succ, List.mem_flatMap, List.mem_cons, listed, inner]

theorem contains (k : NodeId) : h'.contains k = h.contains k := by
  rw [contains_eq_isSome_data?, contains_eq_isSome_data?, same.data?]

theorem activity? (k : NodeId) : h'.activity? k = h.activity? k := by
  rw [Hierarchy.activity?, Hierarchy.activity?, same.data?]

theorem isActivity (k : NodeId) : h'.isActivity k = h.isActivity k := by
  rw [Hierarchy.isActivity, Hierarchy.isActivity, same.activity?]

theorem adjacent? (k : NodeId) : h'.adjacent? k = h.adjacent? k := by
  rw [Hierarchy.adjacent?, Hierarchy.adjacent?, same.data?]

theorem mem_activities (k x : NodeId) : x ∈ h'.activities k ↔ x ∈ h.activities k := by
  have within : x ∈ (h'.contents k).ids ↔ x ∈ (h.contents k).ids := by
    rw [contents, contents, same.next]
    exact same.mem_ids_stack _ (fun c => by simp [same.mem_children]) x
  rw [activities, activities, List.mem_filter, List.mem_filter, same.isActivity, subtree, subtree,
    same.contains]
  cases h.contains k <;> simp [Layers.ids, within]

theorem any_activities (q : NodeId → Bool) (k : NodeId) :
    (h'.activities k).any q = (h.activities k).any q := by
  rw [Bool.eq_iff_iff, List.any_eq_true, List.any_eq_true]
  exact exists_congr fun x => and_congr_left' (same.mem_activities k x)

theorem hasRunningActivity (k : NodeId) : h'.hasRunningActivity k = h.hasRunningActivity k := by
  have runs : h'.activityHas ActivityRecord.isRunning = h.activityHas ActivityRecord.isRunning := by
    funext x
    rw [activityHas, activityHas, same.activity?]
  rw [Hierarchy.hasRunningActivity, Hierarchy.hasRunningActivity, topRunningActivity?,
    topRunningActivity?, Bool.eq_iff_iff, List.find?_isSome, List.find?_isSome, runs]
  exact exists_congr fun x => and_congr_left' (same.mem_activities k x)

theorem solid_iff (k : NodeId) : Solid h' starting k ↔ Solid h starting k := by
  simp only [Solid, same.hasRunningActivity, isTranslucent, same.any_activities, activityHas,
    same.activity?]

theorem lineage (k : NodeId) : h'.lineage k = h.lineage k := by
  rw [Hierarchy.lineage, Hierarchy.lineage, same.contains,
    ancestors_congr same.next same.parent?]

theorem bounds (k : NodeId) : h'.bounds k = h.bounds k := by
  simp only [Hierarchy.bounds, same.lineage, same.data?]

theorem mode (k : NodeId) : h'.mode k = h.mode k := by
  simp only [Hierarchy.mode, same.lineage, Hierarchy.task?, same.data?]

end Rearranged

/-- Two children of `p` in each other's places. -/
def exchange (h : Hierarchy) (p a b : NodeId) : Hierarchy :=
  h.modify p fun n => { n with children := n.children.map (Equiv.swap a b) }

theorem children_exchange (h : Hierarchy) (p a b j : NodeId) :
    (h.exchange p a b).children j =
      if j = p then (h.children j).map (Equiv.swap a b) else h.children j := by
  by_cases here : j = p <;> cases held : h.node? j <;>
    simp_all [children, exchange, node?_modify]

theorem mem_map_swap {ks : List NodeId} (left : a ∈ ks) (right : b ∈ ks) :
    c ∈ ks.map (Equiv.swap a b) ↔ c ∈ ks := by
  rw [List.mem_map_of_involutive (Equiv.swap_apply_self a b), Equiv.swap_apply_def]
  split
  · simp_all
  split <;> simp_all

theorem rearranged_exchange (left : a ∈ h.children p) (right : b ∈ h.children p) :
    Rearranged h (h.exchange p a b) where
  next := Arena.next_modify ..
  parent? k := by
    simp only [Hierarchy.parent?, exchange, node?_modify]
    split <;> cases h.node? k <;> rfl
  data? k := by
    simp only [Hierarchy.data?, exchange, node?_modify]
    split <;> cases h.node? k <;> rfl
  mem_children := by
    intro q c
    rw [children_exchange]
    split
    · rename_i here
      exact mem_map_swap (here ▸ left) (here ▸ right)
    · rfl

/-- The halves of a pair are not their own partners, so a node that is keeps its one place. -/
theorem Mutual.exchange (mutual_ : Mutual h) (pair : PairAbove h p x a b) :
    Mutual (h.exchange p a b) where
  back found := by
    rw [(rearranged_exchange pair.left.mem_children pair.right.mem_children).adjacent?] at found ⊢
    exact mutual_.back found
  once {q c} own := by
    rw [(rearranged_exchange pair.left.mem_children pair.right.mem_children).adjacent?] at own
    have single : (h.children q).count c ≤ 1 := mutual_.once own
    have notLeft : c ≠ a := by
      rintro rfl
      exact pair.apart (Option.some.inj (own.symm.trans pair.forth))
    have notRight : c ≠ b := by
      rintro rfl
      exact pair.apart (Option.some.inj (pair.back.symm.trans own))
    rw [children_exchange]
    split
    · rw [← Equiv.swap_apply_of_ne_of_ne notLeft notRight,
        List.count_map_of_injective _ _ (Equiv.swap a b).injective]
      exact single
    · exact single

theorem above_exchange (pair : PairAbove h p x a b) (notLeft : x ≠ a) (notRight : x ≠ b) :
    Above (h.exchange p a b) p x j ↔ Above h p x j := by
  obtain ⟨lower, upper, split, first, left⟩ := pair.left
  have right : b ∈ upper := (above_iff_mem split first).mp pair.right
  have fixed : Equiv.swap a b x = x := Equiv.swap_apply_of_ne_of_ne notLeft notRight
  have split' : (h.exchange p a b).children p =
      lower.map (Equiv.swap a b) ++ x :: upper.map (Equiv.swap a b) := by
    rw [children_exchange, if_pos rfl, split, List.map_append, List.map_cons, fixed]
  have first' : x ∉ lower.map (Equiv.swap a b) := by
    rw [List.mem_map_of_involutive (Equiv.swap_apply_self a b), fixed]
    exact first
  rw [above_iff_mem split' first', above_iff_mem split first, mem_map_swap left right]

theorem pairAbove_exchange {c d : NodeId} (pair : PairAbove h p x a b) (notLeft : x ≠ a)
    (notRight : x ≠ b) : PairAbove (h.exchange p a b) p x c d ↔ PairAbove h p x c d := by
  have same := (rearranged_exchange pair.left.mem_children pair.right.mem_children).adjacent?
  constructor
  · intro ⟨left, right, apart, forth, back⟩
    rw [above_exchange pair notLeft notRight] at left right
    rw [same] at forth back
    exact ⟨left, right, apart, forth, back⟩
  · intro ⟨left, right, apart, forth, back⟩
    rw [← above_exchange pair notLeft notRight] at left right
    rw [← same] at forth back
    exact ⟨left, right, apart, forth, back⟩

theorem isRootTaskUncovered_exchange (mutual_ : Mutual h) (pair : PairAbove h p x a b)
    (notLeft : x ≠ a) (notRight : x ≠ b) (placed : h.parent? x = some p) :
    (h.exchange p a b).isRootTaskUncovered x starting = h.isRootTaskUncovered x starting := by
  have same := rearranged_exchange pair.left.mem_children pair.right.mem_children
  by_cases pinned : h.mode x = .pinned
  · simp [isRootTaskUncovered, same.mode, pinned]
  · have placed' : (h.exchange p a b).parent? x = some p := by rw [same.parent?, placed]
    have unpinned : (h.exchange p a b).mode x ≠ .pinned := by rwa [same.mode]
    rw [← Bool.not_inj_iff, Bool.eq_iff_iff, Bool.not_eq_true', Bool.not_eq_true',
      isRootTaskUncovered_eq_false_iff (mutual_.exchange pair) placed' unpinned,
      isRootTaskUncovered_eq_false_iff mutual_ placed pinned]
    simp only [RootCoverAbove, above_exchange pair notLeft notRight,
      pairAbove_exchange pair notLeft notRight, same.solid_iff, same.mode]

theorem isCoveredBySiblings_exchange (mutual_ : Mutual h) (pair : PairAbove h p x a b)
    (notLeft : x ≠ a) (notRight : x ≠ b) :
    (h.exchange p a b).isCoveredBySiblings p x starting =
      h.isCoveredBySiblings p x starting := by
  have same := rearranged_exchange pair.left.mem_children pair.right.mem_children
  rw [Bool.eq_iff_iff, isCoveredBySiblings_iff (mutual_.exchange pair),
    isCoveredBySiblings_iff mutual_]
  simp only [CoverAbove, above_exchange pair notLeft notRight,
    pairAbove_exchange pair notLeft notRight, same.solid_iff, same.isActivity, same.activity?,
    same.bounds]

/-- Where partners point at each other, the order of a scan does not matter. A root task that is not
pinned is covered by an opaque fullscreen one above or an opaque split pair, and a child of a task
or fragment by a running opaque activity, an opaque container that fills the parent or an opaque
pair. Neither answer changes when the halves of a pair above change places. -/
theorem covered_iff_coverAbove (mutual_ : Mutual h) (starting : Option NodeId) :
    (∀ root area, h.parent? root = some area → h.mode root ≠ .pinned →
      (h.isRootTaskUncovered root starting = false ↔ RootCoverAbove h starting area root) ∧
      ∀ a b, PairAbove h area root a b → root ≠ a → root ≠ b →
        (h.exchange area a b).isRootTaskUncovered root starting =
          h.isRootTaskUncovered root starting) ∧
    ∀ p x,
      (h.isCoveredBySiblings p x starting = true ↔ CoverAbove h starting p x) ∧
      ∀ a b, PairAbove h p x a b → x ≠ a → x ≠ b →
        (h.exchange p a b).isCoveredBySiblings p x starting =
          h.isCoveredBySiblings p x starting := by
  constructor
  · intro root area placed unpinned
    refine ⟨isRootTaskUncovered_eq_false_iff mutual_ placed unpinned, ?_⟩
    intro a b pair notLeft notRight
    exact isRootTaskUncovered_exchange mutual_ pair notLeft notRight placed
  · intro p x
    refine ⟨isCoveredBySiblings_iff mutual_, ?_⟩
    intro a b pair notLeft notRight
    exact isCoveredBySiblings_exchange mutual_ pair notLeft notRight

/-- Below a split pair with an activity in each half, a fullscreen root task is covered, whichever
half is the upper one. In it an adjacent pair of fragments covers an activity, again in both orders,
though neither fragment has the bounds of the task. -/
theorem covered_below_pairs :
    let inbox := ActivityRecord.create { component := ⟨"mail", "Inbox"⟩, uid := ⟨10010⟩ } {}
    let calls : List Mutation := [.addDisplay ⟨0⟩ ⟨0, 0, 1920, 1080⟩,
      .createRootTask ⟨2⟩ .fullscreen .standard .top, .addActivity ⟨3⟩ inbox .top,
      .createFragment ⟨3⟩ (some ⟨0, 0, 960, 1080⟩) .top, .addActivity ⟨5⟩ inbox .top,
      .createFragment ⟨3⟩ (some ⟨960, 0, 960, 1080⟩) .top, .addActivity ⟨7⟩ inbox .top,
      .setAdjacent ⟨5⟩ ⟨7⟩, .createSplitPair ⟨2⟩, .addActivity ⟨9⟩ inbox .top,
      .addActivity ⟨10⟩ inbox .top]
    let h := afterCalls calls
    Mutual h ∧ h.isRootTaskUncovered ⟨3⟩ none = false ∧
      (h.exchange ⟨2⟩ ⟨9⟩ ⟨10⟩).children ⟨2⟩ = [⟨3⟩, ⟨10⟩, ⟨9⟩] ∧
      (h.exchange ⟨2⟩ ⟨9⟩ ⟨10⟩).isRootTaskUncovered ⟨3⟩ none = false ∧
      h.isCoveredBySiblings ⟨3⟩ ⟨4⟩ none = true ∧
      (h.exchange ⟨3⟩ ⟨5⟩ ⟨7⟩).isCoveredBySiblings ⟨3⟩ ⟨4⟩ none = true := by
  intro inbox calls h
  have reached : Reachable h := Reachable.empty.foldl_mutate calls
  have mutual_ : Mutual h :=
    reached.wellFormed.forest.mutual fun found => (reached.paired _ _ found).2
  have halves : PairAbove h ⟨2⟩ ⟨3⟩ ⟨9⟩ ⟨10⟩ :=
    ⟨⟨[], [⟨9⟩, ⟨10⟩], by decide +kernel, by decide, by decide⟩,
      ⟨[], [⟨9⟩, ⟨10⟩], by decide +kernel, by decide, by decide⟩, by decide, by decide +kernel,
      by decide +kernel⟩
  have fragments : PairAbove h ⟨3⟩ ⟨4⟩ ⟨5⟩ ⟨7⟩ :=
    ⟨⟨[], [⟨5⟩, ⟨7⟩], by decide +kernel, by decide, by decide⟩,
      ⟨[], [⟨5⟩, ⟨7⟩], by decide +kernel, by decide, by decide⟩, by decide, by decide +kernel,
      by decide +kernel⟩
  obtain ⟨ofRoots, ofChildren⟩ := covered_iff_coverAbove mutual_ none
  obtain ⟨hiddenIff, exchanged⟩ := ofRoots ⟨3⟩ ⟨2⟩ (by decide +kernel) (by decide +kernel)
  obtain ⟨coveredIff, exchanged'⟩ := ofChildren ⟨3⟩ ⟨4⟩
  have hidden : h.isRootTaskUncovered ⟨3⟩ none = false :=
    hiddenIff.mpr (.inr ⟨_, _, halves, by decide +kernel, by decide +kernel⟩)
  have covered : h.isCoveredBySiblings ⟨3⟩ ⟨4⟩ none = true :=
    coveredIff.mpr (.inr (.inr ⟨_, _, fragments, by decide +kernel, by decide +kernel⟩))
  refine ⟨mutual_, hidden, by decide +kernel, ?_, covered, ?_⟩
  · rw [exchanged _ _ halves (by decide) (by decide), hidden]
  · rw [exchanged' _ _ fragments (by decide) (by decide), covered]

end WindowHost.Hierarchy
