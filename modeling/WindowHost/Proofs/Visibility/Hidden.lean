import WindowHost.Proofs.Visibility.Meeting

/-! What lies below an opaque activity that is seen stays hidden. Once the flag of a walk is up it
stays up, in the container and in all that is nested below, but for one kind of activity: one that
was launched behind is shown all the same, and when it lets through what lies behind it, it takes
the flag down again. -/
namespace WindowHost

/-- What lies below a node in its own stack. -/
def Layers.beneath (k : NodeId) : Layers → Layers
  | .nil => .nil
  | .node j _ further => if j = k then further else further.beneath k

/-- What a walk through a stack passes on its way to a node, without what lies in it: the nodes that
lie above it, or above one that it lies in. -/
def Layers.passed (k : NodeId) : Layers → List NodeId
  | .nil => []
  | .node j inside further =>
    inside.passed k ++ if k ∈ further.ids then j :: further.passed k else []

/-- The activity was launched behind others and does not cover what lies behind itself. -/
def ActivityRecord.uncovers (r : ActivityRecord) : Bool := r.launchTaskBehind && !r.occludesParent

theorem Layers.ids_beneath_subset (k : NodeId) (L : Layers) : (L.beneath k).ids ⊆ L.ids := by
  induction L with
  | nil => exact List.Subset.refl _
  | node j inside further _ rest =>
    have within : further.ids ⊆ (Layers.node j inside further).ids :=
      fun x member => List.mem_cons_of_mem _ (List.mem_append_right _ member)
    unfold beneath
    split
    · exact within
    · exact List.Subset.trans rest within

theorem Layers.tops_subset_ids (L : Layers) : L.tops ⊆ L.ids := by
  induction L with
  | nil => exact List.Subset.refl _
  | node j inside further _ rest =>
    exact List.cons_subset_cons j (List.Subset.trans rest (List.subset_append_right ..))

namespace Visibility
open Hierarchy
variable {locked : DisplayId → Bool} {p : VisibilityParams} {h : Hierarchy} {c : Container}
  {s next inner : Walk} {here : List Verdict} {u v : Verdict} {a b k C display : NodeId}
  {L inside below : Layers} {r t : ActivityRecord}

theorem occluded_closeHome (covered : s.occluded = true) : (s.closeHome c k).occluded = true := by
  unfold Walk.closeHome
  split
  · rfl
  · exact covered

theorem occluded_leave (covered : s.occluded = true) : (s.leave c k inner).occluded = true := by
  unfold Walk.leave
  simp [covered]

/-- A visit takes the flag down only where the activity is shown and lets through what follows. -/
theorem occluded_pass
    (covers : (!s.occluded || r.launchTaskBehind) = true → r.occludesParent = true)
    (covered : s.occluded = true ∨ (!s.occluded || r.launchTaskBehind) = true) :
    (s.pass c k r).occluded = true := by
  refine pass_induct (motive := fun t => t.occluded = true) (fun _ => ?_)
    fun _ up => occluded_closeHome up
  split
  · exact covers ‹_›
  · exact covered.resolve_right ‹_›

theorem Meets.occluded (meets : Meets locked c s k inside next here) (covered : s.occluded = true)
    (steady : s.world.hierarchy.activityHas ActivityRecord.uncovers k = false) :
    next.occluded = true := by
  cases meets with
  | enter _ _ _ _ => exact occluded_leave covered
  | visit held _ =>
    rw [activityHas_of_activity? held] at steady
    refine occluded_pass (fun behind => ?_) (.inl covered)
    rw [covered, Bool.not_true, Bool.false_or] at behind
    simpa [ActivityRecord.uncovers, behind] using steady
  | skip _ _ => exact covered

/-- While the flag is up, an activity that was not launched behind is found covered. -/
theorem covered_of_occluded (held : h.activity? b = some t) (front : t.launchTaskBehind = false)
    (L : Layers) : ∀ (c : Container) (s : Walk), s.world.hierarchy = h → s.occluded = true →
      (∀ l ∈ L.passed b, h.activityHas ActivityRecord.uncovers l = false) →
        ∀ u ∈ (survey locked c s L).2, u.activity = b → u.uncovered = false := by
  induction L with
  | nil =>
    intro c s _ _ _ u member
    contradiction
  | node k inside below deeper rest =>
    intro c s world covered steady u member itself
    obtain ⟨next, here, meets⟩ := exists_meets locked c s k inside
    rw [Layers.passed, List.forall_mem_append] at steady
    rw [meets.survey_eq] at member
    rcases List.mem_append.mp member with near | low
    · subst world
      cases meets with
      | @enter nested found _ _ looks walks =>
        rw [walks] at near
        refine deeper nested (nested.begin s.world s.occluded) rfl ?_ steady.1 u near itself
        simp [Container.begin, covered]
      | @visit r heldK _ =>
        rw [List.mem_singleton.mp near] at itself ⊢
        obtain rfl : k = b := itself
        obtain rfl : r = t := Option.some.inj (heldK.symm.trans held)
        simp [Walk.judge, covered, front]
      | skip _ _ => contradiction
    · have listed := mem_ids_of_mem_survey low
      rw [itself] at listed
      rw [if_pos listed, List.forall_mem_cons] at steady
      exact rest c next (meets.world ▸ world) (meets.occluded covered (world ▸ steady.2.1))
        steady.2.2 u low itself

/-- From where an opaque activity is found uncovered, what lies below it is found covered. -/
theorem covered_of_beneath (upper : h.activity? a = some r) (solid : r.occludesParent = true)
    (held : h.activity? b = some t) (front : t.launchTaskBehind = false) (L : Layers) :
    ∀ (c : Container) (s : Walk),
      s.world.hierarchy = h → L.ids.Nodup → a ∈ L.tops → b ∈ (L.beneath a).ids →
      (∀ l ∈ (L.beneath a).passed b, h.activityHas ActivityRecord.uncovers l = false) →
      ∀ v ∈ (survey locked c s L).2, v.activity = a → v.uncovered = true →
        ∀ u ∈ (survey locked c s L).2, u.activity = b → u.uncovered = false := by
  induction L with
  | nil =>
    intro c s _ _ member
    contradiction
  | node k inside below _ rest =>
    intro c s world nodup top lower steady v memberV isA shown u memberU isB
    obtain ⟨next, here, meets⟩ := exists_meets locked c s k inside
    rw [meets.survey_eq] at memberV memberU
    -- what lies below the node is met after it, and only there
    have apart : (k :: inside.ids).Disjoint below.ids :=
      List.disjoint_of_nodup_append (show ((k :: inside.ids) ++ below.ids).Nodup from nodup)
    have later : ∀ {x} {v : Verdict}, v ∈ here ++ (survey locked c next below).2 →
        v.activity = x → x ∈ below.ids → v ∈ (survey locked c next below).2 := by
      rintro x v member rfl low
      exact (List.mem_append.mp member).resolve_left fun near => apart (meets.mem_ids near) low
    have worldNext : next.world.hierarchy = h := meets.world ▸ world
    by_cases same : k = a
    · subst same
      rw [Layers.beneath, if_pos rfl] at lower steady
      have near : v ∈ here := (List.mem_append.mp memberV).resolve_right fun low =>
        apart List.mem_cons_self (isA ▸ mem_ids_of_mem_survey low)
      have up : next.occluded = true := by
        subst world
        cases meets with
        | enter container _ _ _ =>
          rw [activity?_of_isFragmentLike container] at upper
          contradiction
        | @visit r' held' _ =>
          obtain rfl : r' = r := Option.some.inj (held'.symm.trans upper)
          rw [List.mem_singleton.mp near] at shown
          exact occluded_pass (fun _ => solid) (.inr shown)
        | skip _ _ => contradiction
      exact covered_of_occluded held front below c next worldNext up steady u
        (later memberU isB lower) isB
    · rw [Layers.beneath, if_neg same] at lower steady
      have topBelow : a ∈ below.tops := (List.mem_cons.mp top).resolve_left (Ne.symm same)
      exact rest c next worldNext (List.nodup_append.mp (List.nodup_cons.mp nodup).2).2.1 topBelow
        lower steady v (later memberV isA (below.tops_subset_ids topBelow)) isA shown u
        (later memberU isB (below.ids_beneath_subset a lower)) isB

section
variable {w : World} (forest : Forest w.hierarchy) (locked : DisplayId → Bool)
  (p : VisibilityParams) (placed : w.hierarchy.displayOf? a = some display)
  (under : w.hierarchy.parent? a = some C) (upper : w.hierarchy.activity? a = some r)
  (runs : r.isRunning = true) (solid : r.info.translucent = false)
  (held : w.hierarchy.activity? b = some t) (running : t.isRunning = true)
  (front : t.launchTaskBehind = false) (lower : b ∈ ((w.hierarchy.contents C).beneath a).ids)
  (steady : ∀ l ∈ ((w.hierarchy.contents C).beneath a).passed b,
    w.hierarchy.activityHas ActivityRecord.uncovers l = false)
include forest placed under upper runs solid held running front lower steady

/-- Both activities are met in one walk, the upper one first. -/
theorem exists_verdicts_of_beneath :
    ∃ v ∈ displayVerdicts locked p w.hierarchy display,
      ∃ u ∈ displayVerdicts locked p w.hierarchy display,
        v.activity = a ∧ u.activity = b ∧ (v.uncovered = true → u.uncovered = false) := by
  have runsA : w.hierarchy.activityHas ActivityRecord.isRunning a = true := by
    rw [activityHas_of_activity? upper, runs]
  have runsB : w.hierarchy.activityHas ActivityRecord.isRunning b = true := by
    rw [activityHas_of_activity? held, running]
  have container := forest.isFragmentLike_of_activity under upper
  have onDisplay : Inside w.hierarchy C display :=
    forest.inside_of_displayOf? ((forest.displayOf?_of_parent under).symm.trans placed)
      (display?_of_isFragmentLike container)
  obtain ⟨hidden, part⟩ := exists_walk_of_display forest locked p
    (isSome_display?_of_displayOf? placed) onDisplay container
    (forest.hasRunningActivity_iff.mpr ⟨a, .inr (.child under), runsA⟩)
  let c := Container.look locked p w.hierarchy C
  let start := c.begin { hierarchy := w.hierarchy } hidden
  have met : ∀ x ∈ (w.hierarchy.contents C).ids,
      w.hierarchy.activityHas ActivityRecord.isRunning x = true →
        ∃ v ∈ (survey locked c start (w.hierarchy.contents C)).2, v.activity = x :=
    exists_verdict_of_running forest (w.hierarchy.contents C) C c start
      (shows_contents forest container)
      (seeks_begin locked container { hierarchy := w.hierarchy } hidden) rfl
  obtain ⟨v, memberV, isA⟩ := met a (forest.mem_ids_contents.mpr (.child under)) runsA
  obtain ⟨u, memberU, isB⟩ := met b (Layers.ids_beneath_subset a _ lower) runsB
  have top : a ∈ (w.hierarchy.contents C).tops := by
    rw [(forest.faithful_contents C).1, List.mem_reverse]
    exact forest.mem_children_iff.mpr under
  have occludes : r.occludesParent = true := by
    rw [ActivityRecord.isRunning, Bool.and_eq_true] at runs
    rw [ActivityRecord.occludesParent, solid, runs.1]
    rfl
  exact ⟨v, part memberV, u, part memberU, isA, isB, fun seen =>
    covered_of_beneath upper occludes held front (w.hierarchy.contents C) c start rfl
      (forest.nodup_ids_contents C) top lower steady v memberV isA seen u memberU isB⟩

/-- After a pass, what lies below an opaque activity that is seen is neither seen nor wanted on
screen, unless it was launched behind, or the walk passes, on the way down to it, an activity that
was launched behind and lets through what lies behind it. -/
theorem hidden_updateDisplay (seen : (updateDisplay locked p w display).1.hierarchy.activityHas
      (·.visibleIgnoringKeyguard) a = true) :
    ∃ t', (updateDisplay locked p w display).1.hierarchy.activity? b = some t' ∧
      t'.visibleIgnoringKeyguard = false ∧ t'.visibleRequested = false := by
  obtain ⟨v, memberV, u, memberU, rfl, rfl, covers⟩ := exists_verdicts_of_beneath forest locked p
    placed under upper runs solid held running front lower steady
  have nodup : ((displayVerdicts locked p w.hierarchy display).map Verdict.activity).Nodup :=
    nodup_displayVerdicts forest display
  rw [updateDisplay_world (.refl _) display] at seen ⊢
  rw [activityHas_of_activity? (activity?_carryOut nodup memberV upper), Verdict.seen_turn] at seen
  refine ⟨_, activity?_carryOut nodup memberU held, Verdict.seen_turn.trans (covers seen), ?_⟩
  rw [Verdict.turn, if_neg (by simp [Verdict.visible, covers seen])]
  exact Turn.visibleRequested_hide

end

/-- The inbox, and below it a draft that was launched behind and a fragment with the list: the
draft is shown, for it was launched behind, and keeps the flag up, so the list is hidden. -/
theorem hidden_updateDisplay_of_draft :
    let record (name : String) : ActivityRecord :=
      { ActivityRecord.create { component := ⟨"mail", name⟩, uid := ⟨10010⟩ } {} with
        state := .paused, visibleRequested := true, visibleIgnoringKeyguard := true,
        attached := true }
    let calls : List Mutation :=
      [.addDisplay ⟨0⟩ ⟨0, 0, 1920, 1080⟩, .createRootTask ⟨2⟩ .fullscreen .standard .top,
        .createFragment ⟨3⟩ none .top, .addActivity ⟨4⟩ (record "List") .top,
        .addActivity ⟨3⟩ { record "Draft" with launchTaskBehind := true } .top,
        .addActivity ⟨3⟩ (record "Inbox") .top]
    let before := afterCalls calls
    let h := (updateDisplay (fun _ => false) {} { hierarchy := before } ⟨1⟩).1.hierarchy
    h.activityHas (·.visibleRequested) ⟨6⟩ = true ∧
      h.activityHas (·.visibleIgnoringKeyguard) ⟨7⟩ = true ∧
      ∃ t', h.activity? ⟨5⟩ = some t' ∧ t'.visibleIgnoringKeyguard = false ∧
        t'.visibleRequested = false := by
  intro record calls before h
  have forest : Forest before := (wellFormed_afterCalls calls).forest
  have placed : before.displayOf? ⟨7⟩ = some ⟨1⟩ := by decide +kernel
  have under : before.parent? ⟨7⟩ = some ⟨3⟩ := by decide +kernel
  have upper : before.activity? ⟨7⟩ = some (record "Inbox") := by decide +kernel
  have held : before.activity? ⟨5⟩ = some (record "List") := by decide +kernel
  have lower : ⟨5⟩ ∈ ((before.contents ⟨3⟩).beneath ⟨7⟩).ids := by decide +kernel
  have steady : ∀ l ∈ ((before.contents ⟨3⟩).beneath ⟨7⟩).passed ⟨5⟩,
      before.activityHas ActivityRecord.uncovers l = false := by decide +kernel
  have wanted : h.activityHas (·.visibleRequested) ⟨6⟩ = true := by decide +kernel
  have seen : h.activityHas (·.visibleIgnoringKeyguard) ⟨7⟩ = true := by decide +kernel
  clear_value before
  exact ⟨wanted, seen, hidden_updateDisplay (w := { hierarchy := before }) forest (fun _ => false)
    {} placed under upper rfl rfl held rfl rfl lower steady seen⟩

/-- A hint that was launched behind and is translucent takes the flag down, so the list is shown
below the inbox, which hides it. -/
theorem not_hidden_of_hint :
    let record (name : String) : ActivityRecord :=
      { ActivityRecord.create { component := ⟨"mail", name⟩, uid := ⟨10010⟩ } {} with
        state := .stopped, attached := true }
    let hint : ActivityRecord :=
      { record "Hint" with
        info := { component := ⟨"mail", "Hint"⟩, uid := ⟨10010⟩, translucent := true }
        launchTaskBehind := true }
    let before := afterCalls
      [.addDisplay ⟨0⟩ ⟨0, 0, 1920, 1080⟩, .createRootTask ⟨2⟩ .fullscreen .standard .top,
        .addActivity ⟨3⟩ (record "List") .top, .addActivity ⟨3⟩ hint .top,
        .addActivity ⟨3⟩ (record "Inbox") .top]
    let h := (updateDisplay (fun _ => false) {} { hierarchy := before } ⟨1⟩).1.hierarchy
    before.WellFormed ∧ before.displayOf? ⟨6⟩ = some ⟨1⟩ ∧ before.parent? ⟨6⟩ = some ⟨3⟩ ∧
      before.activityHas (fun r => r.isRunning && !r.info.translucent && !r.launchTaskBehind) ⟨6⟩ ∧
      h.activityHas (·.visibleIgnoringKeyguard) ⟨6⟩ ∧
      ⟨4⟩ ∈ ((before.contents ⟨3⟩).beneath ⟨6⟩).ids ∧
      before.activityHas (fun r => r.isRunning && !r.launchTaskBehind) ⟨4⟩ ∧
      h.activityHas (·.visibleIgnoringKeyguard) ⟨4⟩ ∧ h.activityHas (·.visibleRequested) ⟨4⟩ := by
  intro record hint before h
  exact ⟨wellFormed_afterCalls _, by decide +kernel⟩

end Visibility
end WindowHost
