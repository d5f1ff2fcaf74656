import WindowHost.Proofs.Visibility.Hidden
import WindowHost.Proofs.Visibility.Level

/-! What a home activity hides. Where a home root task shows an activity that is the root of its
task and lets through what lies behind it, a walk closes what is left of the root task: it raises
its flag and a second one, which every walk around it takes over. An opaque activity raises the
first flag alone, and a walk around it takes that one over only where the container fills it. -/
namespace WindowHost

/-- A pair that comes in order in two lists comes in one of them, or has one in each. -/
theorem pair_sublist_append {α : Type} {a b : α} {xs ys : List α}
    (pair : [a, b].Sublist (xs ++ ys)) :
    [a, b].Sublist xs ∨ (a ∈ xs ∧ b ∈ ys) ∨ [a, b].Sublist ys := by
  obtain ⟨front, back, parts, left, right⟩ := List.sublist_append_iff.mp pair
  match front with
  | [] =>
    obtain rfl : back = [a, b] := parts.symm
    exact .inr (.inr right)
  | [x] =>
    obtain ⟨rfl, rfl⟩ : a = x ∧ [b] = back := List.cons.inj parts
    exact .inr (.inl ⟨List.singleton_sublist.mp left, List.singleton_sublist.mp right⟩)
  | x :: y :: rest =>
    simp only [List.cons_append, List.cons.injEq, List.nil_eq, List.append_eq_nil_iff] at parts
    obtain ⟨rfl, rfl, rfl, rfl⟩ := parts
    exact .inl left

theorem Layers.passed_subset_ids (k : NodeId) (L : Layers) : L.passed k ⊆ L.ids := by
  induction L with
  | nil => exact List.Subset.refl _
  | node j inside below inner rest =>
    rw [passed, ids]
    intro x member
    rcases List.mem_append.mp member with within | lower
    · exact List.mem_cons_of_mem _ (List.mem_append_left _ (inner within))
    · split at lower
      · rcases List.mem_cons.mp lower with rfl | further
        · exact List.mem_cons_self
        · exact List.mem_cons_of_mem _ (List.mem_append_right _ (rest further))
      · contradiction

namespace Visibility
open Hierarchy
variable {locked : DisplayId → Bool} {p : VisibilityParams} {h : Hierarchy} {c : Container}
  {s next inner : Walk} {here : List Verdict} {u v : Verdict} {a b k x C R display : NodeId}
  {L inside below : Layers} {r t : ActivityRecord}

theorem closed_closeHome (closed : s.homeOccludes = true) :
    (s.closeHome c k).homeOccludes = true := by
  unfold Walk.closeHome
  split
  · rfl
  · exact closed

theorem Meets.closed (meets : Meets locked c s k inside next here)
    (closed : s.homeOccludes = true) : next.homeOccludes = true := by
  cases meets with
  | enter _ _ _ _ => rw [homeOccludes_leave, closed, Bool.true_or]
  | visit _ _ =>
    exact pass_induct (motive := fun t => t.homeOccludes = true) (fun _ => closed)
      fun _ => closed_closeHome
  | skip _ _ => exact closed

/-- What a walk has closed stays closed. -/
theorem closed_survey (c : Container) (L : Layers) (s : Walk) (closed : s.homeOccludes = true) :
    (survey locked c s L).1.homeOccludes = true := by
  induction L generalizing s with
  | nil => exact closed
  | node k inside below _ rest =>
    obtain ⟨next, here, meets⟩ := exists_meets locked c s k inside
    rw [meets.survey_eq]
    exact rest next (meets.closed closed)

/-- An activity that is found uncovered at the root of its task closes a home root task if it lets
through what lies behind it. -/
theorem closed_pass (home : c.isHome = true) (root : s.world.hierarchy.isRootOfTask k = true)
    (lasts : r.finishing = false) (clear : r.occludesParent = false)
    (shown : (s.judge c k r).uncovered = true) :
    (s.pass c k r).homeOccludes = true ∧ (s.pass c k r).occluded = true := by
  unfold Walk.pass
  simp only [shown, lasts, clear, if_true, Bool.false_eq_true, if_false]
  split <;> simp [Walk.closeHome, home, root]

/-- A container whose walk has closed the rest hides it, and so does an opaque one that fills the
container around it. -/
theorem occluded_leave_of_covers (covers : inner.homeOccludes = true ∨
      inner.world.hierarchy.bounds k = c.bounds ∧
        inner.world.hierarchy.isTranslucent k c.params.starting = false) :
    (s.leave c k inner).occluded = true := by
  unfold Walk.leave
  rcases covers with closed | ⟨fills, solid⟩
  · simp [closed]
  · simp [fills, solid]

theorem Shows.inside_of_mem (shows : Shows h C L) (forest : Forest h) (listed : x ∈ L.ids) :
    Inside h x C := by
  obtain ⟨t, top, place⟩ := (forest.mem_ids shows.faithful).mp listed
  have under := (forest.child (shows.children t top)).2
  rcases place with rfl | deep
  · exact .child under
  · exact deep.trans (.child under)

/-- A container has the type of the one around it. -/
theorem Shows.activityType_eq (shows : Shows h C (.node k inside below)) (forest : Forest h)
    (container : h.isFragmentLike k = true) : h.activityType k = h.activityType C :=
  forest.activityType_of_parent (forest.child (shows.children k List.mem_cons_self)).2
    shows.container (activity?_of_isFragmentLike container)

theorem finishing_of_isRunning (runs : r.isRunning = true) : r.finishing = false := by
  simp only [ActivityRecord.isRunning, Bool.and_eq_true, Bool.not_eq_true'] at runs
  exact runs.1

/-- What holds an opaque activity that runs lets nothing through. -/
theorem isTranslucent_of_opaque (forest : Forest h) (held : h.activity? a = some r)
    (runs : r.isRunning = true) (solid : r.occludesParent = true) (within : Inside h a k)
    (starting : Option NodeId) : h.isTranslucent k starting = false := by
  have listed : a ∈ h.activities k := by
    apply List.mem_filter.mpr
    exact ⟨(forest.mem_ids_subtree (forest.contains_of_inside within)).mpr (.inr within),
      by simp [isActivity, held]⟩
  have blocks : h.activityHas (fun r => (r.isRunning || some a == starting) && r.occludesParent)
      a = true := by
    rw [activityHas_of_activity? held, runs, solid]
    rfl
  simp only [isTranslucent, Bool.not_eq_false']
  exact List.any_eq_true.mpr ⟨a, listed, blocks⟩

/-- What a walk finds about a child or within it goes before what it finds below. -/
theorem Meets.mem_cases (meets : Meets locked c s k inside next here)
    (nodup : ((k :: inside.ids) ++ below.ids).Nodup)
    (member : v ∈ here ++ (survey locked c next below).2) :
    (v.activity ∈ k :: inside.ids → v ∈ here) ∧
      (v.activity ∈ below.ids → v ∈ (survey locked c next below).2) := by
  have apart : (k :: inside.ids).Disjoint below.ids := List.disjoint_of_nodup_append nodup
  constructor
  · exact fun near => (List.mem_append.mp member).resolve_right fun low =>
      apart near (mem_ids_of_mem_survey low)
  · exact fun low => (List.mem_append.mp member).resolve_left fun near =>
      apart (meets.mem_ids near) low

section
variable (forest : Forest h) (upper : h.activity? a = some r) (runs : r.isRunning = true)
  (root : h.isRootOfTask a = true)
include forest upper runs root

/-- The walk that shows an activity at the root of its task closes the rest for all walks around
it, unless the activity is opaque. -/
theorem closed_of_shown (clear : r.occludesParent = false) (L : Layers) : ∀ (C : NodeId) (s : Walk),
    Shows h C L → s.world.hierarchy = h → h.activityType C = .home →
      ∀ v ∈ (survey locked (Container.look locked p h C) s L).2, v.activity = a →
        v.uncovered = true →
          (survey locked (Container.look locked p h C) s L).1.homeOccludes = true := by
  induction L with
  | nil =>
    intro C s _ _ _ v member
    contradiction
  | node k inside below deeper rest =>
    intro C s shows world home v member itself shown
    obtain ⟨next, here, meets⟩ := exists_meets locked (Container.look locked p h C) s k inside
    rw [meets.survey_eq] at member ⊢
    rcases List.mem_append.mp member with near | low
    · apply closed_survey
      subst world
      cases meets with
      | @enter nested found container _ looks walks =>
        have type := (shows.activityType_eq forest container).trans home
        subst looks walks
        rw [homeOccludes_leave, Bool.or_eq_true]
        exact .inr (deeper k _ (shows.deeper forest container) rfl type v near itself shown)
      | @visit r' held _ =>
        obtain rfl := List.mem_singleton.mp near
        obtain rfl : k = a := itself
        obtain rfl : r' = r := Option.some.inj (held.symm.trans upper)
        exact (closed_pass (by simp [Container.look, home]) root (finishing_of_isRunning runs)
          clear shown).1
      | skip _ _ => contradiction
    · exact rest C next shows.lower (meets.world ▸ world) home v low itself shown

/-- Past the child that is the activity or holds it, the flag is up. -/
theorem Meets.occluded_of_shown
    (meets : Meets locked (Container.look locked p h C) s k inside next here)
    (shows : Shows h C (.node k inside below)) (world : s.world.hierarchy = h)
    (home : h.activityType C = .home)
    (fills : r.occludesParent = true → Inside h a k → h.bounds k = h.bounds C)
    (member : v ∈ here) (itself : v.activity = a) (shown : v.uncovered = true) :
    next.occluded = true := by
  subst world
  cases meets with
  | @enter nested found container _ looks walks =>
    have deeper := shows.deeper forest container
    have type := (shows.activityType_eq forest container).trans home
    subst looks walks
    apply occluded_leave_of_covers
    cases solid : r.occludesParent with
    | false =>
      exact .inl (closed_of_shown forest upper runs root solid inside k _ deeper rfl type v member
        itself shown)
    | true =>
      have within : Inside s.world.hierarchy a k :=
        deeper.inside_of_mem forest (itself ▸ mem_ids_of_mem_survey member)
      rw [world_survey]
      exact .inr ⟨fills solid within, isTranslucent_of_opaque forest upper runs solid within _⟩
  | @visit r' held _ =>
    obtain rfl := List.mem_singleton.mp member
    obtain rfl : k = a := itself
    obtain rfl : r' = r := Option.some.inj (held.symm.trans upper)
    cases solid : r'.occludesParent with
    | false =>
      exact (closed_pass (by simp [Container.look, home]) root (finishing_of_isRunning runs)
        solid shown).2
    | true => exact occluded_pass (fun _ => solid) (.inr shown)
  | skip _ _ => contradiction

variable (held : h.activity? b = some t) (front : t.launchTaskBehind = false)
include held front

/-- From where a home activity is shown at the root of its task, what comes after it is found
covered. An opaque one has to lie in a child that fills the container that holds both. -/
theorem covered_of_home (fills : r.occludesParent = true → ∀ X Q, h.parent? X = some Q →
      Inside h a X → Inside h b Q → ¬ Inside h b X → h.bounds X = h.bounds Q) (L : Layers) :
    ∀ (C : NodeId) (s : Walk), Shows h C L → s.world.hierarchy = h → h.activityType C = .home →
      L.ids.Nodup → [a, b].Sublist L.ids →
      (∀ l ∈ L.passed b, [a, l].Sublist L.ids → h.activityHas ActivityRecord.uncovers l = false) →
      ∀ v ∈ (survey locked (Container.look locked p h C) s L).2, v.activity = a →
        v.uncovered = true → ∀ u ∈ (survey locked (Container.look locked p h C) s L).2,
          u.activity = b → u.uncovered = false := by
  induction L with
  | nil =>
    intro C s _ _ _ _ _ _ v member
    contradiction
  | node k inside below deeper rest =>
    intro C s shows world home nodup order steady v memberV isA shown u memberU isB
    obtain ⟨next, here, meets⟩ := exists_meets locked (Container.look locked p h C) s k inside
    rw [meets.survey_eq] at memberV memberU
    have parts : (Layers.node k inside below).ids = (k :: inside.ids) ++ below.ids := rfl
    rw [parts] at nodup order steady
    have worldNext : next.world.hierarchy = h := meets.world ▸ world
    obtain ⟨nearV, lowV⟩ := meets.mem_cases nodup memberV
    obtain ⟨nearU, lowU⟩ := meets.mem_cases nodup memberU
    rw [isA] at nearV lowV
    rw [isB] at nearU lowU
    have nodupBelow : below.ids.Nodup := (List.nodup_append.mp nodup).2.1
    rcases pair_sublist_append order with first | ⟨early, low⟩ | second
    -- both lie in the child
    · have earlyA := first.subset List.mem_cons_self
      have earlyB := first.subset (List.mem_cons_of_mem _ (List.mem_singleton_self b))
      subst world
      cases meets with
      | @enter nested found container _ looks walks =>
        have type := (shows.activityType_eq forest container).trans home
        have within : [a, b].Sublist inside.ids := by
          rcases List.sublist_cons_iff.mp first with deep | ⟨_, same, _⟩
          · exact deep
          · rw [(List.cons.inj same).1, activity?_of_isFragmentLike container] at upper
            contradiction
        have nodupInside : inside.ids.Nodup :=
          (List.nodup_cons.mp (List.nodup_append.mp nodup).1).2
        subst looks walks
        refine deeper k (Container.begin _ s.world s.occluded) (shows.deeper forest container) rfl
          type nodupInside within (fun l passed order => ?_) v (nearV earlyA) isA shown u
          (nearU earlyB) isB
        refine steady l (List.mem_append_left _ passed) ?_
        exact (order.cons k).trans (List.sublist_append_left ..)
      | visit heldK _ =>
        have alone := forest.eq_of_mem_activity heldK
        rw [shows.inside_eq forest] at first earlyA earlyB
        rw [alone a earlyA, alone b earlyB] at first
        have twice := (List.nodup_append.mp nodup).1
        rw [shows.inside_eq forest] at twice
        exact absurd (first.nodup twice) (by simp)
      | skip _ _ => exact absurd (nearV earlyA) List.not_mem_nil
    -- the child is the home activity or holds it, and the rest lies below
    · have up : next.occluded = true := by
        refine meets.occluded_of_shown forest upper runs root shows world home
          (fun solid within => ?_) (nearV early) isA shown
        refine fills solid k C (forest.child (shows.children k List.mem_cons_self)).2 within
          (shows.lower.inside_of_mem forest low) fun both => ?_
        have listed := forest.mem_ids_contents.mpr both
        rw [← shows.inside_eq forest] at listed
        exact List.disjoint_of_nodup_append nodup (List.mem_cons_of_mem _ listed) low
      refine covered_of_occluded held front below _ next worldNext up (fun l passed => ?_) u
        (lowU low) isB
      refine steady l ?_ ?_
      · rw [Layers.passed, if_pos low]
        exact List.mem_append_right _ (List.mem_cons_of_mem _ passed)
      · exact (List.singleton_sublist.mpr early).append
          (List.singleton_sublist.mpr (below.passed_subset_ids b passed))
    -- both lie below the child
    · have lowA := second.subset List.mem_cons_self
      have lowB := second.subset (List.mem_cons_of_mem _ (List.mem_singleton_self b))
      refine rest C next shows.lower worldNext home nodupBelow second (fun l passed order => ?_) v
        (lowV lowA) isA shown u (lowU lowB) isB
      refine steady l ?_ (order.trans (List.sublist_append_right ..))
      rw [Layers.passed, if_pos lowB]
      exact List.mem_append_right _ (List.mem_cons_of_mem _ passed)

end

section
variable {w : World} (forest : Forest w.hierarchy)
include forest

/-- Where the verdict on one activity, if it is seen, has another one covered, a pass that shows the
first hides the second. -/
theorem hidden_of_verdicts (memberV : v ∈ displayVerdicts locked p w.hierarchy display)
    (memberU : u ∈ displayVerdicts locked p w.hierarchy display)
    (upper : w.hierarchy.activity? v.activity = some r)
    (held : w.hierarchy.activity? u.activity = some t)
    (covers : v.uncovered = true → u.uncovered = false)
    (seen : (updateDisplay locked p w display).1.hierarchy.activityHas
      (·.visibleIgnoringKeyguard) v.activity = true) :
    ∃ t', (updateDisplay locked p w display).1.hierarchy.activity? u.activity = some t' ∧
      t'.visibleIgnoringKeyguard = false ∧ t'.visibleRequested = false := by
  have nodup : ((displayVerdicts locked p w.hierarchy display).map Verdict.activity).Nodup :=
    nodup_displayVerdicts forest display
  rw [updateDisplay_world (.refl _) display] at seen ⊢
  rw [activityHas_of_activity? (activity?_carryOut nodup memberV upper), Verdict.seen_turn] at seen
  have covered := covers seen
  refine ⟨_, activity?_carryOut nodup memberU held, Verdict.seen_turn.trans covered, ?_⟩
  rw [Verdict.turn, if_neg (by simp [Verdict.visible, covered])]
  exact Turn.visibleRequested_hide

/-- After a pass, what comes in a home root task after an activity that is seen and is the root of
its task is neither seen nor wanted on screen. That takes an opaque one to lie in a child that fills
the container around both, and no activity in between to be launched behind that lets through what
lies behind it. -/
theorem hidden_behind_home (locked : DisplayId → Bool) (p : VisibilityParams)
    (member : R ∈ w.hierarchy.rootTasks display) (home : w.hierarchy.activityType R = .home)
    (upper : w.hierarchy.activity? a = some r) (runs : r.isRunning = true)
    (root : w.hierarchy.isRootOfTask a = true) (held : w.hierarchy.activity? b = some t)
    (running : t.isRunning = true) (front : t.launchTaskBehind = false)
    (order : [a, b].Sublist (w.hierarchy.activities R))
    (fills : r.info.translucent = false → ∀ X Q, w.hierarchy.parent? X = some Q →
      Inside w.hierarchy a X → Inside w.hierarchy b Q → ¬ Inside w.hierarchy b X →
        w.hierarchy.bounds X = w.hierarchy.bounds Q)
    (steady : ∀ l ∈ (w.hierarchy.contents R).passed b,
      [a, l].Sublist (w.hierarchy.contents R).ids →
        w.hierarchy.activityHas ActivityRecord.uncovers l = false)
    (seen : (updateDisplay locked p w display).1.hierarchy.activityHas
      (·.visibleIgnoringKeyguard) a = true) :
    ∃ t', (updateDisplay locked p w display).1.hierarchy.activity? b = some t' ∧
      t'.visibleIgnoringKeyguard = false ∧ t'.visibleRequested = false := by
  obtain ⟨task, _, _, inArea⟩ := mem_rootTasks.mp member
  have container := isFragmentLike_of_isTask task
  have shows := shows_contents forest container
  let start := (Container.look locked p w.hierarchy R).begin { hierarchy := w.hierarchy } false
  have part : (survey locked (Container.look locked p w.hierarchy R) start
      (w.hierarchy.contents R)).2 ⊆ displayVerdicts locked p w.hierarchy display := by
    intro v found
    refine List.mem_flatMap.mpr ⟨R, member, ?_⟩
    rw [verdicts, if_pos container]
    exact found
  have listed : [a, b].Sublist (w.hierarchy.contents R).ids := by
    have within := order.trans List.filter_sublist
    rw [subtree, if_pos (forest.child inArea).1] at within
    rcases List.sublist_cons_iff.mp within with deep | ⟨_, same, _⟩
    · simpa [Layers.ids] using deep
    · rw [(List.cons.inj same).1, activity?_of_isFragmentLike container] at upper
      contradiction
  have met : ∀ x ∈ (w.hierarchy.contents R).ids,
      w.hierarchy.activityHas ActivityRecord.isRunning x = true →
        ∃ v ∈ (survey locked (Container.look locked p w.hierarchy R) start
          (w.hierarchy.contents R)).2, v.activity = x :=
    exists_verdict_of_running forest (w.hierarchy.contents R) R _ start shows
      (seeks_begin locked container { hierarchy := w.hierarchy } false) rfl
  obtain ⟨v, memberV, rfl⟩ := met a (listed.subset List.mem_cons_self)
    ((activityHas_of_activity? upper _).trans runs)
  obtain ⟨u, memberU, rfl⟩ := met b (listed.subset (List.mem_cons_of_mem _ List.mem_cons_self))
    ((activityHas_of_activity? held _).trans running)
  refine hidden_of_verdicts forest (part memberV) (part memberU) upper held (fun shown => ?_) seen
  refine covered_of_home forest upper runs root held front (fun solid => fills ?_)
    (w.hierarchy.contents R) R start shows rfl home (forest.nodup_ids_contents R) listed steady
    v memberV rfl shown u memberU rfl
  simp only [ActivityRecord.occludesParent, Bool.and_eq_true, Bool.not_eq_true'] at solid
  exact solid.2

end

/-- A translucent launcher in the left half of the home root task hides the list in the task below,
which fills all of it. -/
theorem hidden_behind_home_of_launcher :
    let record (name : String) (translucent : Bool) : ActivityRecord :=
      { ActivityRecord.create
          { component := ⟨"home", name⟩, uid := ⟨10010⟩, translucent := translucent } {} with
        state := .stopped, attached := true }
    let calls : List Mutation :=
      [.addDisplay ⟨0⟩ ⟨0, 0, 1920, 1080⟩, .createRootTask ⟨2⟩ .fullscreen .home .top,
        .createTask ⟨3⟩ {} .top, .addActivity ⟨4⟩ (record "List" false) .top,
        .createTask ⟨3⟩ { bounds := some ⟨0, 0, 960, 1080⟩ } .top,
        .addActivity ⟨6⟩ (record "Launcher" true) .top]
    let before := afterCalls calls
    let h := (updateDisplay (fun _ => false) {} { hierarchy := before } ⟨1⟩).1.hierarchy
    before.bounds ⟨6⟩ ≠ before.bounds ⟨3⟩ ∧ h.activityHas (·.visibleIgnoringKeyguard) ⟨7⟩ = true ∧
      ∃ t', h.activity? ⟨5⟩ = some t' ∧ t'.visibleIgnoringKeyguard = false ∧
        t'.visibleRequested = false := by
  intro record calls before h
  have forest : Forest before := (wellFormed_afterCalls calls).forest
  have member : ⟨3⟩ ∈ before.rootTasks ⟨1⟩ := by decide +kernel
  have home : before.activityType ⟨3⟩ = .home := by decide +kernel
  have upper : before.activity? ⟨7⟩ = some (record "Launcher" true) := by decide +kernel
  have root : before.isRootOfTask ⟨7⟩ = true := by decide +kernel
  have held : before.activity? ⟨5⟩ = some (record "List" false) := by decide +kernel
  have order : [⟨7⟩, ⟨5⟩].Sublist (before.activities ⟨3⟩) := by decide +kernel
  have steady : ∀ l ∈ (before.contents ⟨3⟩).passed ⟨5⟩,
      [⟨7⟩, l].Sublist (before.contents ⟨3⟩).ids →
        before.activityHas ActivityRecord.uncovers l = false := by decide +kernel
  have narrow : before.bounds ⟨6⟩ ≠ before.bounds ⟨3⟩ := by decide +kernel
  have seen : h.activityHas (·.visibleIgnoringKeyguard) ⟨7⟩ = true := by decide +kernel
  clear_value before
  exact ⟨narrow, seen, hidden_behind_home (w := { hierarchy := before }) forest (fun _ => false)
    {} member home upper rfl root held rfl rfl order (fun solid => by contradiction) steady seen⟩

/-- An opaque launcher there closes nothing, so the list is shown beside it. -/
theorem not_hidden_behind_home :
    let record (name : String) : ActivityRecord :=
      { ActivityRecord.create { component := ⟨"home", name⟩, uid := ⟨10010⟩ } {} with
        state := .stopped, attached := true }
    let before := afterCalls
      [.addDisplay ⟨0⟩ ⟨0, 0, 1920, 1080⟩, .createRootTask ⟨2⟩ .fullscreen .home .top,
        .createTask ⟨3⟩ {} .top, .addActivity ⟨4⟩ (record "List") .top,
        .createTask ⟨3⟩ { bounds := some ⟨0, 0, 960, 1080⟩ } .top,
        .addActivity ⟨6⟩ (record "Launcher") .top]
    let h := (updateDisplay (fun _ => false) {} { hierarchy := before } ⟨1⟩).1.hierarchy
    before.WellFormed ∧ ⟨3⟩ ∈ before.rootTasks ⟨1⟩ ∧ before.activityType ⟨3⟩ = .home ∧
      before.isRootOfTask ⟨7⟩ = true ∧
      before.activityHas (fun r => r.isRunning && !r.launchTaskBehind) ⟨7⟩ = true ∧
      before.activityHas (fun r => r.isRunning && !r.launchTaskBehind) ⟨5⟩ = true ∧
      [⟨7⟩, ⟨5⟩].Sublist (before.activities ⟨3⟩) ∧
      h.activityHas (·.visibleIgnoringKeyguard) ⟨7⟩ = true ∧
      h.activityHas (·.visibleIgnoringKeyguard) ⟨5⟩ = true := by
  intro record before h
  exact ⟨wellFormed_afterCalls _, by decide +kernel⟩

end Visibility
end WindowHost
