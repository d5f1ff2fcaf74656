import WindowHost.Proofs.Hierarchy.Reachable
import WindowHost.Proofs.Visibility.Level

/-! A pass agrees with the hierarchy's own answer to what is to be seen: by induction over what a
container shows, what the pass finds about each activity is what the query answers. -/
namespace WindowHost.Visibility
open Hierarchy
variable {locked : DisplayId → Bool} {p : VisibilityParams} {h : Hierarchy} {k : NodeId}
  {inside below : Layers} {r : ActivityRecord}

/-- On every running activity among `xs` there is a verdict that says what the query answers. -/
def Answered (h : Hierarchy) (xs : List NodeId) (vs : List Verdict) : Prop :=
  ∀ x ∈ xs, h.activityHas ActivityRecord.isRunning x = true →
    ∃ v ∈ vs, v.activity = x ∧ v.uncovered = h.shouldBeVisible x none

theorem Answered.append {xs xs' : List NodeId} {vs vs' : List Verdict}
    (first : Answered h xs vs) (rest : Answered h xs' vs') :
    Answered h (xs ++ xs') (vs ++ vs') := by
  intro x listed running
  rcases List.mem_append.mp listed with early | late
  · obtain ⟨v, met, same⟩ := first x early running
    exact ⟨v, List.mem_append_left _ met, same⟩
  · obtain ⟨v, met, same⟩ := rest x late running
    exact ⟨v, List.mem_append_right _ met, same⟩

theorem answered_of_quiet {xs : List NodeId}
    (quiet : ∀ x ∈ xs, h.activityHas ActivityRecord.isRunning x = false) (vs : List Verdict) :
    Answered h xs vs := by
  intro x listed running
  rw [quiet x listed] at running
  contradiction

/-- A walk that keeps home out of it has answered all that it went through. -/
def Agrees (h : Hierarchy) (L : Layers) (found : Walk × List Verdict) : Prop :=
  found.1.homeOccludes = false ∧ Answered h L.ids found.2

/-- What was found about a child and what is in it goes before what is found below. -/
theorem Agrees.node {here : List Verdict} {later : Walk × List Verdict}
    (found : Answered h (k :: inside.ids) here) (agrees : Agrees h below later) :
    Agrees h (.node k inside below) (later.1, here ++ later.2) :=
  ⟨agrees.1, found.append agrees.2⟩

section
variable {C : NodeId} {s : Walk} {above : List NodeId} (forest : Forest h)
  (outside : h.isFragmentLike C = true) (away : h.activityType C ≠ .home)
  (shown : (h.children C).reverse = above ++ k :: below.tops) (shows : inside = h.contents k)
  (level : Level h (Container.look locked p h C) C above (.node k inside below) s)
  (later : ∀ t, Level h (Container.look locked p h C) C (above ++ [k]) below t →
    Agrees h below (survey locked (Container.look locked p h C) t below))
include forest outside shown shows level later

/-- At a container: `nested` is what its own walk finds. -/
theorem agrees_container (symmetric : Symmetric h) (calm : p.starting = none)
    (kind : h.isFragmentLike k = true)
    (nested : ∀ t, Level h (Container.look locked p h k) k [] inside t →
      Agrees h inside (survey locked (Container.look locked p h k) t inside)) :
    Agrees h (.node k inside below)
      (survey locked (Container.look locked p h C) s (.node k inside below)) := by
  rw [survey]
  simp only [level.world, kind, if_true]
  cases runs : h.hasRunningActivity k with
  | true =>
    have found := nested _ (level.enter forest outside shown kind runs shows calm)
    refine .node ?_ (later _
      (level.leave forest symmetric shown kind runs calm rfl ?_ found.1 shows))
    · intro x listed running
      rcases List.mem_cons.mp listed with rfl | within
      · simp [activityHas, activity?_of_isFragmentLike kind] at running
      · exact found.2 x within running
    · rw [world_survey]
      exact level.world
  | false =>
    have quiet := forest.hasRunningActivity_eq_false_iff.mp runs
    rw [← shows] at quiet
    exact .node (answered_of_quiet quiet []) (later s (level.skip runs quiet))

include away in
/-- At an activity: the flag before it is the answer. -/
theorem agrees_activity (ordinary : Ordinary h k) (kind : h.isFragmentLike k = false)
    (held : h.activity? k = some r) : Agrees h (.node k inside below)
      (survey locked (Container.look locked p h C) s (.node k inside below)) := by
  have alone : ∀ x ∈ k :: inside.ids, x = k := by
    rw [shows]
    exact forest.eq_of_mem_activity held
  rw [survey]
  simp only [level.world, kind, Bool.false_eq_true, if_false, held]
  cases passed : s.aboveTop && (Container.look locked p h C).top != some k with
  | true =>
    have quiet : ∀ x ∈ k :: inside.ids, h.activityHas ActivityRecord.isRunning x = false := by
      intro x listed
      rw [alone x listed]
      exact level.aboveTop.still_of_waits passed
    have idle := forest.hasRunningActivity_eq_false_iff.mpr (shows ▸ quiet)
    exact .node (answered_of_quiet quiet []) (later s (level.skip idle quiet))
  | false =>
    have plain : (Container.look locked p h C).isHome = false := by
      simpa [Container.look] using away
    refine .node ?_ (later _ (level.pass held ordinary plain))
    intro x listed running
    obtain rfl := alone x listed
    have runs := forest.hasRunningActivity_iff.mpr ⟨x, .inl rfl, running⟩
    refine ⟨_, List.mem_singleton_self _, rfl, ?_⟩
    rw [forest.shouldBeVisible_child outside shown runs]
    simp [Walk.judge, (ordinary r held).2, level.occluded]

end

theorem agrees_survey (forest : Forest h) (symmetric : Symmetric h) (calm : p.starting = none)
    (L : Layers) : ∀ (C : NodeId) (s : Walk) (above : List NodeId),
      h.isFragmentLike C = true → h.activityType C ≠ .home →
      (h.children C).reverse = above ++ L.tops → L.Faithful h → (∀ k ∈ L.ids, Ordinary h k) →
      Level h (Container.look locked p h C) C above L s →
        Agrees h L (survey locked (Container.look locked p h C) s L) := by
  induction L with
  | nil =>
    intro C s above _ _ _ _ _ level
    exact ⟨level.homeOccludes, answered_of_quiet (by simp [Layers.ids]) []⟩
  | node k inside below inner rest =>
    intro C s above outside away shown faithful ordinary level
    obtain ⟨deep, faithfulInside, faithfulBelow⟩ := faithful
    have member : k ∈ h.children C := by
      rw [← List.mem_reverse, shown]
      simp [Layers.tops]
    have shows : inside = h.contents k :=
      faithfulInside.unique (forest.faithful_contents k).2
        (deep.trans (forest.faithful_contents k).1.symm)
    obtain ⟨itself, others⟩ := List.forall_mem_cons.mp ordinary
    obtain ⟨ordinaryInside, ordinaryBelow⟩ := List.forall_mem_append.mp others
    have later : ∀ t, Level h (Container.look locked p h C) C (above ++ [k]) below t →
        Agrees h below (survey locked (Container.look locked p h C) t below) := by
      intro t further
      refine rest C t _ outside away ?_ faithfulBelow ordinaryBelow further
      rw [shown]
      simp [Layers.tops]
    cases kind : h.isFragmentLike k with
    | true =>
      have type := forest.activityType_of_parent (forest.child member).2 outside
        (activity?_of_isFragmentLike kind)
      refine agrees_container forest outside shown shows level later symmetric calm kind ?_
      intro t starts
      exact inner k t [] kind (type ▸ away) deep.symm faithfulInside ordinaryInside starts
    | false =>
      obtain ⟨r, held⟩ := forest.exists_activity?_of_child outside member kind
      exact agrees_activity forest outside away shown shows level later itself kind held

theorem exists_displayVerdict (locked : DisplayId → Bool) {display : NodeId} (forest : Forest h)
    (symmetric : Symmetric h) (ordinary : ∀ k, h.displayOf? k = some display → Ordinary h k)
    (away : ∀ root ∈ h.rootTasks display, h.activityType root ≠ .home) (calm : p.starting = none)
    (placed : h.displayOf? k = some display) (held : h.activity? k = some r)
    (running : r.isRunning = true) :
    ∃ v ∈ displayVerdicts locked p h display,
      v.activity = k ∧ v.uncovered = h.shouldBeVisible k none := by
  obtain ⟨root, member, within⟩ := forest.exists_rootTask_of_activity placed held
  have container := isFragmentLike_of_isTask (mem_rootTasks.mp member).1
  obtain ⟨tops, faithful⟩ := forest.faithful_contents root
  have rootOn := forest.inside_of_mem_rootTasks member
  have ordinaryInside : ∀ x ∈ (h.contents root).ids, Ordinary h x := by
    intro x listed
    have onDisplay := (forest.mem_ids_contents.mp listed).trans rootOn
    exact ordinary x (forest.displayOf?_of_inside (isSome_display?_of_displayOf? placed) onDisplay)
  have level := level_begin locked (w := { hierarchy := h }) rfl container calm false (by simp)
  have agrees := agrees_survey forest symmetric calm (h.contents root) root _ [] container
    (away root member) tops.symm faithful ordinaryInside level
  have runs : h.activityHas ActivityRecord.isRunning k = true := by
    rw [activityHas_of_activity? held]
    exact running
  obtain ⟨v, found, verdict⟩ := agrees.2 k (forest.mem_ids_contents.mpr within) runs
  refine ⟨v, List.mem_flatMap.mpr ⟨root, member, ?_⟩, verdict⟩
  rw [verdicts, if_pos container]
  exact found

/-- After a pass every running activity of the display is marked as seen, the keyguard aside, just
when the hierarchy answers that it is to be seen. -/
theorem visibleIgnoringKeyguard_updateDisplay {w : World} {display : NodeId}
    (forest : Forest w.hierarchy) (symmetric : Symmetric w.hierarchy)
    (ordinary : ∀ k, w.hierarchy.displayOf? k = some display → Ordinary w.hierarchy k)
    (away : ∀ root ∈ w.hierarchy.rootTasks display, w.hierarchy.activityType root ≠ .home)
    (calm : p.starting = none) (locked : DisplayId → Bool) :
    let h := (updateDisplay locked p w display).1.hierarchy
    ∀ k r, h.displayOf? k = some display → h.activity? k = some r → r.isRunning = true →
      r.visibleIgnoringKeyguard = h.shouldBeVisible k none := by
  intro h k r placed held running
  let vs := displayVerdicts locked p w.hierarchy display
  have carried : (updateDisplay locked p w display).1 = carryOut p w vs :=
    updateDisplay_world (.refl _) display
  have seen : SameView w.hierarchy h := by
    rw [show h = (carryOut p w vs).hierarchy from congrArg World.hierarchy carried]
    exact sameView_carryOut vs w
  obtain ⟨r₀, before, still⟩ := seen.symm.exists_activity? held
  have ran : r₀.isRunning = true := by
    rw [ActivityRecord.isRunning_eq_of_still still]
    exact running
  obtain ⟨v, member, rfl, same⟩ := exists_displayVerdict locked forest symmetric
    ordinary away calm (seen.displayOf? k ▸ placed) before ran
  have ended := activity?_carryOut (p := p) (nodup_displayVerdicts forest display) member before
  rw [← carried, held, Option.some.injEq] at ended
  rw [ended, Verdict.seen_turn, same, seen.shouldBeVisible]

instance (h : Hierarchy) (k : NodeId) : Decidable (Ordinary h k) :=
  inferInstanceAs (Decidable (∀ r ∈ h.activity? k, r.state ≠ .destroyed ∧ _ = false))

theorem Ordinary.of_not_contains (stale : h.contains k = false) : Ordinary h k := by
  intro r held
  rw [activity?, data?_of_not_contains stale] at held
  contradiction

theorem symmetric_of_lt_next
    (tried : ∀ i < h.nodes.next, ∀ b ∈ h.adjacent? ⟨i⟩, h.adjacent? b = some ⟨i⟩) :
    Symmetric h := by
  refine forall_of_lt_next (fun k stale b paired => ?_) tried
  rw [adjacent?, data?_of_not_contains stale] at paired
  contradiction

/-- Two halves above an activity hide it between them: the pass finds so and the hierarchy answers
so, both for the halves and for what lies below. -/
theorem visibleIgnoringKeyguard_of_halves :
    let info : ActivityInfo := { component := ⟨"mail", "Inbox"⟩, uid := ⟨10010⟩ }
    let record := { ActivityRecord.create info {} with state := .stopped, attached := true }
    let calls : List Mutation :=
      [.addDisplay ⟨0⟩ ⟨0, 0, 1920, 1080⟩, .createRootTask ⟨2⟩ .fullscreen .standard .top,
        .addActivity ⟨3⟩ record .top, .createFragment ⟨3⟩ (some ⟨960, 0, 1920, 1080⟩) .top,
        .createFragment ⟨3⟩ (some ⟨0, 0, 960, 1080⟩) .top, .setAdjacent ⟨5⟩ ⟨6⟩,
        .addActivity ⟨5⟩ record .top, .addActivity ⟨6⟩ record .top]
    let before := afterCalls calls
    let h := (updateDisplay (fun _ => false) {} { hierarchy := before } ⟨1⟩).1.hierarchy
    [⟨4⟩, ⟨7⟩, ⟨8⟩].map (fun k => (h.shouldBeVisible k none, h.displayOf? k)) =
      [(false, some ⟨1⟩), (true, some ⟨1⟩), (true, some ⟨1⟩)] ∧
    ∀ k r, h.displayOf? k = some ⟨1⟩ → h.activity? k = some r → r.isRunning = true →
      r.visibleIgnoringKeyguard = h.shouldBeVisible k none := by
  intro info record calls before h
  have formed : before.WellFormed := wellFormed_empty.foldl_mutate calls
  have symmetric : Symmetric before := symmetric_of_lt_next (by decide +kernel)
  have ordinary : ∀ k, before.displayOf? k = some ⟨1⟩ → Ordinary before k :=
    forall_of_lt_next (fun _ stale _ => .of_not_contains stale) (by decide +kernel)
  have away : ∀ root ∈ before.rootTasks ⟨1⟩, before.activityType root ≠ .home := by
    decide +kernel
  refine ⟨by decide +kernel, ?_⟩
  clear_value before
  exact visibleIgnoringKeyguard_updateDisplay (w := { hierarchy := before }) formed.forest
    symmetric ordinary away rfl (fun _ => false)

end WindowHost.Visibility
