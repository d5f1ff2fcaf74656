import WindowHost.Proofs.Visibility.Survey

/-! Walks that find the same. What a walk finds depends on its answers about the nodes that it comes
to, so two walks over the same nodes with the same answers come to the same verdicts, but for what
they make of the top activity. -/
namespace WindowHost.Visibility
open Hierarchy
variable {locked : DisplayId → Bool} {p p' : VisibilityParams} {S : NodeId → Prop}
  {h h' : Hierarchy} {c : Container} {s inner : Walk} {w : World} {b : Bool} {k : NodeId}
  {r : ActivityRecord}

/-- A verdict without what becomes of the top activity. -/
def Verdict.outcome (v : Verdict) : Verdict := { v with resumes := false }

/-- Two hierarchies answer alike what walks with these parameters ask about certain nodes. -/
structure Alike (locked : DisplayId → Bool) (p p' : VisibilityParams) (S : NodeId → Prop)
    (h h' : Hierarchy) : Prop where
  changes : p'.configChanges = p.configChanges
  container : ∀ k, S k → h'.isFragmentLike k = h.isFragmentLike k
  runs : ∀ k, S k → h'.hasRunningActivity k = h.hasRunningActivity k
  activity : ∀ k, S k → h'.activity? k = h.activity? k
  adjacent : ∀ k, S k → h'.adjacent? k = h.adjacent? k
  bounds : ∀ k, S k → h'.bounds k = h.bounds k
  lets : ∀ k, S k → h'.isTranslucent k p'.starting = h.isTranslucent k p.starting
  rootOfTask : ∀ k, S k → h'.isRootOfTask k = h.isRootOfTask k
  within : ∀ j k, S j → S k → h'.isDescendantOf j k = h.isDescendantOf j k
  looks : ∀ k, S k → ∃ b, Container.look locked p' h' k =
    { Container.look locked p h k with params := p', resumesTop := b }
  top : ∀ k, S k → ∀ t, h.topRunningActivity? k = some t → S t
  /-- The second one of a pair of such nodes has no partner elsewhere. -/
  pairs : ∀ j k, S j → S k → h.adjacent? j = some k → ∀ x, h.adjacent? k = some x → S x

/-- The partners that a walk has noted are those of nodes that it has come to. -/
def Noted (S : NodeId → Prop) (h : Hierarchy) (partners : List NodeId) : Prop :=
  ∀ x ∈ partners, ∃ j, S j ∧ h.adjacent? j = some x

theorem Noted.leave (noted : Noted S h s.partners) (world : inner.world.hierarchy = h)
    (here : S k) : Noted S h (s.leave c k inner).partners := by
  unfold Walk.leave
  dsimp only
  split
  · exact noted
  split
  · exact noted
  · intro x member
    rcases List.mem_append.mp member with new | old
    · rw [world, Option.mem_toList] at new
      exact ⟨k, here, new⟩
    · exact noted x old

theorem partners_closeHome (c : Container) (s : Walk) (k : NodeId) :
    (s.closeHome c k).partners = s.partners := by
  unfold Walk.closeHome
  split <;> rfl

theorem partners_pass (c : Container) (s : Walk) (k : NodeId) (r : ActivityRecord) :
    (s.pass c k r).partners = s.partners :=
  pass_induct (motive := fun t => t.partners = s.partners) (fun _ => rfl)
    fun t kept => (partners_closeHome c t k).trans kept

section
variable (alike : Alike locked p p' S h h') (world : s.world.hierarchy = h)
  (world' : w.hierarchy = h') (here : S k)
include alike world world' here

theorem Alike.closeHome :
    Walk.closeHome { c with params := p', resumesTop := b } { s with world := w } k =
      { s.closeHome c k with world := w } := by
  unfold Walk.closeHome
  dsimp only
  rw [world, world', alike.rootOfTask k here]
  split <;> rfl

theorem Alike.pass :
    Walk.pass { c with params := p', resumesTop := b } { s with world := w } k r =
      { s.pass c k r with world := w } :=
  pass_of_closeHome rfl rfl fun _ same => alike.closeHome (same ▸ world) world' here

end

theorem Alike.leave (alike : Alike locked p p' S h h') (params : c.params = p)
    (top : ∀ t, c.top = some t → S t) (noted : Noted S h s.partners)
    (world : inner.world.hierarchy = h) (world' : w.hierarchy = h') (here : S k) (v : World) :
    Walk.leave { c with params := p', resumesTop := b } { s with world := v } k
        { inner with world := w } =
      { s.leave c k inner with world := w } := by
  have tops : (c.top.any (h'.isDescendantOf · k)) = c.top.any (h.isDescendantOf · k) := by
    cases known : c.top with
    | none => rfl
    | some t => exact alike.within t k (top t known) here
  have partner : k ∈ s.partners →
      ((h.adjacent? k).any fun x => !h'.isTranslucent x p'.starting) =
        (h.adjacent? k).any fun x => !h.isTranslucent x p.starting := by
    intro member
    obtain ⟨j, passed, paired⟩ := noted k member
    cases other : h.adjacent? k with
    | none => rfl
    | some x =>
      simp only [Option.any_some, alike.lets x (alike.pairs j k passed here paired x other)]
  unfold Walk.leave
  simp only [world, world', params, tops, alike.bounds k here, alike.lets k here,
    alike.adjacent k here]
  split
  · rfl
  by_cases member : k ∈ s.partners
  · simp only [List.contains_iff_mem, member, if_true, partner member]
  · simp only [List.contains_iff_mem, member, if_false]

theorem Alike.begin (alike : Alike locked p p' S h h') (hidden : Bool)
    (params : c.params = p) (u v : World) :
    Container.begin { c with params := p', resumesTop := b } u hidden =
      { c.begin v hidden with world := u } := by
  simp only [Container.begin, params, alike.changes]

/-- A walk over nodes that two hierarchies answer alike about. -/
theorem Alike.survey (alike : Alike locked p p' S h h') (L : Layers) :
    ∀ (c : Container) (s : Walk) (w : World) (b : Bool), c.params = p → s.world.hierarchy = h →
      w.hierarchy = h' → (∀ t, c.top = some t → S t) → Noted S h s.partners →
      (∀ k ∈ L.ids, S k) →
        let found := Visibility.survey locked c s L
        let found' := Visibility.survey locked { c with params := p', resumesTop := b }
          { s with world := w } L
        found'.1 = { found.1 with world := w } ∧
          found'.2.map Verdict.outcome = found.2.map Verdict.outcome ∧
          Noted S h found.1.partners := by
  induction L with
  | nil => exact fun c s w b _ _ _ _ noted _ => ⟨rfl, rfl, noted⟩
  | node k inside below inner rest =>
    intro c s w b params world world' top noted within
    obtain ⟨here, within⟩ := List.forall_mem_cons.mp within
    obtain ⟨withinInside, withinBelow⟩ := List.forall_mem_append.mp within
    -- once the node itself is done, what lies below it goes on from there
    have further : ∀ (t : Walk) (first first' : List Verdict), t.world = s.world →
        first'.map Verdict.outcome = first.map Verdict.outcome → Noted S h t.partners →
        let found := Visibility.survey locked c t below
        let found' := Visibility.survey locked { c with params := p', resumesTop := b }
          { t with world := w } below
        found'.1 = { found.1 with world := w } ∧
          (first' ++ found'.2).map Verdict.outcome = (first ++ found.2).map Verdict.outcome ∧
          Noted S h found.1.partners := by
      intro t first first' kept same noted
      obtain ⟨walk, later, noted⟩ :=
        rest c t w b params (kept ▸ world) world' top noted withinBelow
      exact ⟨walk, by rw [List.map_append, List.map_append, same, later], noted⟩
    simp only [Visibility.survey, world, world', alike.container k here, alike.runs k here,
      alike.activity k here]
    split
    · split
      · obtain ⟨b', looks⟩ := alike.looks k here
        have nested := inner (Container.look locked p h k)
          ((Container.look locked p h k).begin s.world s.occluded) w b' rfl world world'
          (alike.top k here) (by simp [Noted, Container.begin]) withinInside
        rw [← alike.begin s.occluded rfl w s.world, ← looks] at nested
        obtain ⟨walk, verdicts, _⟩ := nested
        have kept : (Visibility.survey locked (Container.look locked p h k)
          ((Container.look locked p h k).begin s.world s.occluded) inside).1.world = s.world :=
            world_survey ..
        rw [params]
        have left := alike.leave (b := b) params top noted (kept.symm ▸ world) world' here w
        rw [← walk] at left
        rw [left]
        exact further _ _ _ ((world_leave ..).trans kept) verdicts
          (noted.leave (kept.symm ▸ world) here)
      · exact further s [] [] rfl rfl noted
    · cases h.activity? k with
      | none => exact further s [] [] rfl rfl noted
      | some r =>
        dsimp only
        split
        · exact further s [] [] rfl rfl noted
        · rw [alike.pass world world' here]
          exact further (s.pass c k r) _ _ (world_pass s) rfl (partners_pass c s k r ▸ noted)

end WindowHost.Visibility
