import WindowHost.Proofs.Hierarchy.Lookup

/-! What a change that was not refused has found, and what it has made. Each check that can refuse
a change is read backwards once, so that no later proof opens a change to look for its checks. -/
namespace WindowHost

section
variable {ε α β : Type}

theorem bind_eq_ok_iff {x : Except ε α} {f : α → Except ε β} {b : β} :
    x >>= f = .ok b ↔ ∃ a, x = .ok a ∧ f a = .ok b := by
  cases x <;> simp [bind, Except.bind]

/-- A check answers nothing that the rest could use. -/
theorem check_eq_ok_iff {x : Except ε Unit} {f : Unit → Except ε β} {b : β} :
    x >>= f = .ok b ↔ x = .ok () ∧ f () = .ok b := by
  cases x <;> simp [bind, Except.bind]

theorem pure_eq_ok_iff {a b : α} : (pure a : Except ε α) = .ok b ↔ a = b := by
  simp [pure, Except.pure]

/-- Where a condition is refused, the rest runs without it. -/
theorem refuse_eq_ok_iff {q : Prop} [Decidable q] {e : ε} {f : α → Except ε β} {x : Except ε β}
    {b : β} : (if q then throw e >>= f else x) = .ok b ↔ ¬ q ∧ x = .ok b := by
  by_cases refused : q <;>
    simp [refused, throw, throwThe, MonadExceptOf.throw, bind, Except.bind]

end

namespace Hierarchy
variable {h h' : Hierarchy} {a b c k p : NodeId} {data : NodeData} {position : Position}

theorem require_eq_ok_iff {α : Type} {f : Node → Except HierarchyError α} {x : α} :
    h.require k >>= f = .ok x ↔ ∃ n, h.node? k = some n ∧ f n = .ok x := by
  unfold require
  cases h.node? k <;> simp [bind, Except.bind]

theorem checkKinds_eq_ok_iff {outer inner : NodeData} :
    checkKinds outer inner = .ok () ↔ outer.canContain inner = true := by
  unfold checkKinds
  split <;> simp_all

theorem checkAdjacency_eq_ok_iff : h.checkAdjacency k = .ok () ↔ h.isFragmentLike k = true := by
  unfold checkAdjacency
  split <;> simp_all

theorem attach_eq_ok_iff :
    h.attach p c position = .ok h' ↔ ∃ outer inner, h.data? p = some outer ∧
      h.data? c = some inner ∧ h.parent? c = none ∧ outer.canContain inner = true ∧ p ≠ c ∧
      h.isDescendantOf p c = false ∧ h.checkPinnedRoot p inner = .ok () ∧
      h.checkPinnedGuest p inner = .ok () ∧ h.link p c position = h' := by
  simp only [attach, require_eq_ok_iff, refuse_eq_ok_iff, check_eq_ok_iff, checkKinds_eq_ok_iff,
    pure_eq_ok_iff, Bool.or_eq_true, decide_eq_true_eq, not_or, Bool.not_eq_true,
    Option.isSome_eq_false_iff, Option.isNone_iff_eq_none]
  cases outside : h.node? p with
  | none => simp [data?, outside]
  | some outer =>
    cases within : h.node? c with
    | none => simp [data?, within]
    | some inner => simp [data?, parent?, outside, within, and_assoc]

theorem insertUnder_eq_ok_iff :
    h.insertUnder p data position = .ok h' ↔ ∃ outer, h.data? p = some outer ∧
      outer.canContain data = true ∧ h.checkPinnedRoot p data = .ok () ∧
      h.checkPinnedGuest p data = .ok () ∧ (h.insert data).link p h.nextId position = h' := by
  simp only [insertUnder, require_eq_ok_iff, check_eq_ok_iff, checkKinds_eq_ok_iff,
    pure_eq_ok_iff]
  cases held : h.node? p <;> simp [data?, held]

theorem detach_eq_ok_iff : h.detach c = .ok h' ↔ h.contains c = true ∧ h.unlink c = h' := by
  simp only [detach, require_eq_ok_iff, pure_eq_ok_iff, contains, Option.isSome_iff_exists,
    exists_and_right]

theorem positionChild_eq_ok_iff :
    h.positionChild c position = .ok h' ↔ h.contains c = true ∧ h.reorder c position = h' := by
  simp only [positionChild, require_eq_ok_iff, pure_eq_ok_iff, contains, Option.isSome_iff_exists,
    exists_and_right]

theorem reparent_eq_ok_iff :
    h.reparent c p position = .ok h' ↔
      h.contains c = true ∧ (h.unlink c).attach p c position = .ok h' := by
  simp [reparent, bind_eq_ok_iff, detach_eq_ok_iff, and_assoc]

theorem setAdjacent_eq_ok_iff :
    h.setAdjacent a b = .ok h' ↔ a ≠ b ∧ h.isFragmentLike a = true ∧ h.isFragmentLike b = true ∧
      (((h.clearAdjacent a).clearAdjacent b).modifyData a
        (NodeData.withAdjacent (some b))).modifyData b (NodeData.withAdjacent (some a)) = h' := by
  simp only [setAdjacent, refuse_eq_ok_iff, check_eq_ok_iff, checkAdjacency_eq_ok_iff,
    pure_eq_ok_iff, ne_eq]

theorem createTask_eq_ok_iff {spec : TaskSpec} :
    h.createTask p spec position = .ok (h', k) ↔ ∃ grown,
      h.insertUnder p (.task { spec with id := h.nextTaskId }) position = .ok grown ∧
        { grown with nextTaskId := h.nextTaskId.next } = h' ∧ h.nextId = k := by
  simp only [createTask, bind_eq_ok_iff, pure_eq_ok_iff, Prod.mk.injEq]

theorem createFragment_eq_ok_iff {bounds : Option Rect} :
    h.createFragment p bounds position = .ok (h', k) ↔
      h.insertUnder p (.fragment { bounds := bounds }) position = .ok h' ∧ h.nextId = k := by
  simp only [createFragment, bind_eq_ok_iff, pure_eq_ok_iff, Prod.mk.injEq]
  constructor
  · rintro ⟨_, added, rfl, key⟩
    exact ⟨added, key⟩
  · rintro ⟨added, key⟩
    exact ⟨h', added, rfl, key⟩

theorem addActivity_eq_ok_iff {record : ActivityRecord} :
    h.addActivity p record position = .ok (h', k) ↔
      h.insertUnder p (.activity record) position = .ok h' ∧ h.nextId = k := by
  simp only [addActivity, bind_eq_ok_iff, pure_eq_ok_iff, Prod.mk.injEq]
  constructor
  · rintro ⟨_, added, rfl, key⟩
    exact ⟨added, key⟩
  · rintro ⟨added, key⟩
    exact ⟨h', added, rfl, key⟩

/-- The topmost root task of an area with this mode and type of its own. -/
def topOfKind? (h : Hierarchy) (area : NodeId) (mode : WindowingMode) (type : ActivityType) :
    Option NodeId :=
  (h.children area).reverse.find? fun k =>
    (h.task? k).any fun t => t.mode == mode && t.type == type

/-- The root task is the topmost one of its kind, or a new one where there is none. -/
theorem getOrCreateRootTask_cases {area : NodeId} {mode : WindowingMode} {type : ActivityType}
    {isNew : Bool} (made : h.getOrCreateRootTask area mode type = .ok (h', k, isNew)) :
    (isNew = false ∧ h' = h ∧ h.topOfKind? area mode.orFullscreen type.orStandard = some k) ∨
      (isNew = true ∧ h.topOfKind? area mode.orFullscreen type.orStandard = none ∧
        h.createRootTask area mode.orFullscreen type.orStandard .top = .ok (h', k)) := by
  unfold getOrCreateRootTask at made
  simp only at made
  split at made
  · rename_i found
    cases made
    exact .inl ⟨rfl, rfl, found⟩
  · rename_i none
    obtain ⟨⟨_, _⟩, created, same⟩ := bind_eq_ok_iff.mp made
    cases same
    exact .inr ⟨rfl, none, created⟩

theorem getOrCreateRootTask_eq_ok {area : NodeId} {mode : WindowingMode} {type : ActivityType}
    {isNew : Bool} (made : h.getOrCreateRootTask area mode type = .ok (h', k, isNew)) :
    (isNew = false ∧ h' = h) ∨ (isNew = true ∧
      h.createRootTask area mode.orFullscreen type.orStandard .top = .ok (h', k)) :=
  (getOrCreateRootTask_cases made).imp (fun ⟨old, same, _⟩ => ⟨old, same⟩)
    fun ⟨new, _, created⟩ => ⟨new, created⟩

end Hierarchy
end WindowHost
