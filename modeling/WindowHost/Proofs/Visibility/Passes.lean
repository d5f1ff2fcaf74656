import WindowHost.Proofs.Hierarchy.Roots
import WindowHost.Proofs.Visibility.Survey

/-! The verdicts of whole passes. A pass comes to an activity once at most, so what it makes of a
record is read off one verdict. -/
namespace WindowHost.Visibility
open Hierarchy
variable {locked : DisplayId → Bool} {p : VisibilityParams} {h : Hierarchy} {w : World}
  {k : NodeId} {v : Verdict} {r : ActivityRecord}

/-- The verdicts on the activities in a task or task fragment. -/
def verdicts (locked : DisplayId → Bool) (p : VisibilityParams) (h : Hierarchy) (k : NodeId) :
    List Verdict :=
  if h.isFragmentLike k then
    let c := Container.look locked p h k
    (survey locked c (c.begin { hierarchy := h } false) (h.contents k)).2
  else []

/-- The verdicts on the activities of a display. -/
def displayVerdicts (locked : DisplayId → Bool) (p : VisibilityParams) (h : Hierarchy)
    (display : NodeId) : List Verdict :=
  (h.rootTasks display).flatMap (verdicts locked p h)

theorem updateContainer_world (same : SameView h w.hierarchy) (k : NodeId) :
    (updateContainer locked p w k).1 = carryOut p w (verdicts locked p h k) := by
  unfold updateContainer verdicts
  rw [same.isFragmentLike]
  split
  · rw [same.look, same.contents]
    let c := Container.look locked p h k
    have walked := run_eq_survey locked (h.contents k) c (c.begin { hierarchy := h } false) w same
    exact congrArg Walk.world walked
  · rfl

theorem updateEach_world {update : World → NodeId → World × ConfigChanges}
    {found : NodeId → List Verdict}
    (each : ∀ w k, SameView h w.hierarchy → (update w k).1 = carryOut p w (found k))
    (same : SameView h w.hierarchy) (ks : List NodeId) :
    (updateEach update p w ks).1 = carryOut p w (ks.flatMap found) := by
  unfold updateEach
  generalize p.configChanges = changes
  induction ks generalizing w changes with
  | nil => rfl
  | cons k ks ih =>
    have first := each w k same
    rw [List.foldl_cons, List.flatMap_cons, carryOut_append, ← first]
    exact ih (first ▸ same.trans (sameView_carryOut (found k) w)) _

/-- A pass over a display carries out its verdicts. -/
theorem updateDisplay_world (same : SameView h w.hierarchy) (display : NodeId) :
    (updateDisplay locked p w display).1 =
      carryOut p w (displayVerdicts locked p h display) := by
  unfold updateDisplay
  rw [same.rootTasks]
  exact updateEach_world (fun w k same => updateContainer_world same k) same _

theorem sublist_survey (L : Layers) : ∀ (c : Container) (s : Walk),
    ((survey locked c s L).2.map Verdict.activity).Sublist L.ids := by
  induction L with
  | nil => exact fun _ _ => .refl _
  | node k inside below inner rest =>
    intro c s
    rw [survey, Layers.ids]
    dsimp only
    rw [List.map_append]
    have here : ∀ found : List Verdict, (found.map Verdict.activity).Sublist inside.ids →
        ∀ t, (found.map Verdict.activity ++
          (survey locked c t below).2.map Verdict.activity).Sublist
            (k :: (inside.ids ++ below.ids)) :=
      fun found listed t => (listed.append (rest c t)).cons k
    split
    · split
      · exact here _ (inner ..) _
      · exact here [] (List.nil_sublist _) _
    split
    · split
      · exact here [] (List.nil_sublist _) _
      · exact ((rest ..).trans (List.sublist_append_right ..)).cons_cons k
    · exact here [] (List.nil_sublist _) _

theorem sublist_verdicts (h : Hierarchy) (k : NodeId) :
    ((verdicts locked p h k).map Verdict.activity).Sublist (h.contents k).ids := by
  unfold verdicts
  split
  · exact sublist_survey ..
  · exact List.nil_sublist _

theorem inside_of_mem_verdicts (forest : Forest h) (member : v ∈ verdicts locked p h k) :
    Inside h v.activity k :=
  forest.mem_ids_contents.mp ((sublist_verdicts h k).subset (List.mem_map_of_mem member))

theorem displayOf?_of_mem_displayVerdicts {display : NodeId} (forest : Forest h)
    (shown : (h.display? display).isSome = true) (member : v ∈ displayVerdicts locked p h display) :
    h.displayOf? v.activity = some display := by
  obtain ⟨root, listed, found⟩ := List.mem_flatMap.mp member
  exact forest.displayOf?_of_inside shown
    ((inside_of_mem_verdicts forest found).trans (forest.inside_of_mem_rootTasks listed))

/-- A pass over a display comes to no activity twice. -/
theorem nodup_displayVerdicts (forest : Forest h) (display : NodeId) :
    ((displayVerdicts locked p h display).map Verdict.activity).Nodup := by
  rw [displayVerdicts, List.map_flatMap]
  refine List.nodup_flatMap.mpr ⟨fun root _ => ?_, ?_⟩
  · exact (sublist_verdicts h root).nodup (forest.nodup_ids_contents root)
  · apply (forest.nodup_rootTasks display).imp_of_mem
    intro a b left right apart x inLeft inRight
    obtain ⟨v, found, rfl⟩ := List.mem_map.mp inLeft
    obtain ⟨v', found', same⟩ := List.mem_map.mp inRight
    have inside := inside_of_mem_verdicts forest found
    have inside' := inside_of_mem_verdicts forest found'
    rw [same] at inside'
    exact apart (forest.rootTask_unique left right inside inside')

theorem node?_apply_of_ne (other : k ≠ v.activity) (w : World) :
    (v.apply p w).hierarchy.node? k = w.hierarchy.node? k := by
  unfold Verdict.apply
  split
  · exact World.node?_put_of_ne other ..
  · rfl

theorem activity?_apply_of_ne (other : k ≠ v.activity) (w : World) :
    (v.apply p w).hierarchy.activity? k = w.hierarchy.activity? k := by
  rw [activity?, activity?, data?, data?, node?_apply_of_ne other]

theorem activity?_apply (held : w.hierarchy.activity? v.activity = some r) :
    (v.apply p w).hierarchy.activity? v.activity = some (v.turn p r).record := by
  simp only [Verdict.apply, held]
  exact World.activity?_put held ..

theorem node?_carryOut_of_not_mem {vs : List Verdict} (missing : k ∉ vs.map Verdict.activity)
    (w : World) : (carryOut p w vs).hierarchy.node? k = w.hierarchy.node? k := by
  induction vs generalizing w with
  | nil => rfl
  | cons v rest ih =>
    obtain ⟨other, missing⟩ := List.ne_and_not_mem_of_not_mem_cons missing
    exact (ih missing _).trans (node?_apply_of_ne other w)

theorem activity?_carryOut_of_not_mem {vs : List Verdict} (missing : k ∉ vs.map Verdict.activity)
    (w : World) : (carryOut p w vs).hierarchy.activity? k = w.hierarchy.activity? k := by
  rw [activity?, activity?, data?, data?, node?_carryOut_of_not_mem missing]

/-- An activity that a pass comes to ends as its verdict has it. -/
theorem activity?_carryOut {vs : List Verdict} (nodup : (vs.map Verdict.activity).Nodup)
    (member : v ∈ vs) (held : w.hierarchy.activity? v.activity = some r) :
    (carryOut p w vs).hierarchy.activity? v.activity = some (v.turn p r).record := by
  induction vs generalizing w with
  | nil => contradiction
  | cons u rest ih =>
    obtain ⟨single, nodup⟩ := List.nodup_cons.mp nodup
    rcases List.mem_cons.mp member with rfl | later
    · exact (activity?_carryOut_of_not_mem single _).trans (activity?_apply held)
    · have other : v.activity ≠ u.activity :=
        fun same => single (same ▸ List.mem_map_of_mem later)
      exact ih nodup later ((activity?_apply_of_ne other w).trans held)

/-- Where a pass comes to an activity, it leaves in the record whether anything hid it. -/
theorem seen_carryOut {vs : List Verdict} (nodup : (vs.map Verdict.activity).Nodup)
    (member : v ∈ vs) (w : World) :
    ((carryOut p w vs).hierarchy.activity? v.activity).map (·.visibleIgnoringKeyguard) =
      (w.hierarchy.activity? v.activity).map fun _ => v.uncovered := by
  cases held : w.hierarchy.activity? v.activity with
  | none =>
    have same := (sameView_carryOut (p := p) vs w).activity?_map (g := fun _ => ())
      (k := v.activity) fun _ => rfl
    rw [held, Option.map_none, Option.map_eq_none_iff] at same
    rw [same]
    rfl
  | some r => simp [activity?_carryOut nodup member held, Verdict.seen_turn]

theorem calls_apply (w : World) (v : Verdict) : w.calls <+: (v.apply p w).calls := by
  unfold Verdict.apply
  split
  · exact List.prefix_append ..
  · exact List.prefix_refl _

theorem calls_carryOut (vs : List Verdict) (w : World) : w.calls <+: (carryOut p w vs).calls := by
  induction vs generalizing w with
  | nil => exact List.prefix_refl _
  | cons v rest ih => exact (calls_apply w v).trans (ih _)

/-- What a verdict calls for is called. -/
theorem exists_calls_carryOut {vs : List Verdict} (nodup : (vs.map Verdict.activity).Nodup)
    (member : v ∈ vs) (held : w.hierarchy.activity? v.activity = some r) :
    ∃ later, (carryOut p w vs).calls = w.calls ++ later ∧ (v.turn p r).calls ⊆ later := by
  induction vs generalizing w with
  | nil => contradiction
  | cons u rest ih =>
    obtain ⟨single, nodup⟩ := List.nodup_cons.mp nodup
    rcases List.mem_cons.mp member with rfl | later
    · have first : (v.apply p w).calls = w.calls ++ (v.turn p r).calls := by
        simp only [Verdict.apply, held]
        rfl
      obtain ⟨more, made⟩ := calls_carryOut (p := p) rest (v.apply p w)
      refine ⟨(v.turn p r).calls ++ more, ?_, List.subset_append_left ..⟩
      rw [← List.append_assoc, ← first]
      exact made.symm
    · have other : v.activity ≠ u.activity :=
        fun same => single (same ▸ List.mem_map_of_mem later)
      obtain ⟨early, first⟩ := calls_apply (p := p) w u
      obtain ⟨more, made, asked⟩ := ih nodup later ((activity?_apply_of_ne other w).trans held)
      refine ⟨early ++ more, ?_, List.Subset.trans asked (List.subset_append_right ..)⟩
      rw [← List.append_assoc, first]
      exact made

/-- Nothing is called but what the verdicts call for. -/
theorem forall_calls_carryOut {good : Call → Prop} {vs : List Verdict}
    (nodup : (vs.map Verdict.activity).Nodup)
    (each : ∀ v ∈ vs, ∀ r, w.hierarchy.activity? v.activity = some r →
      ∀ call ∈ (v.turn p r).calls, good call) :
    ∃ later, (carryOut p w vs).calls = w.calls ++ later ∧ ∀ call ∈ later, good call := by
  induction vs generalizing w with
  | nil => exact ⟨[], (List.append_nil _).symm, by simp⟩
  | cons u rest ih =>
    obtain ⟨single, nodup⟩ := List.nodup_cons.mp nodup
    have first : ∃ early, (u.apply p w).calls = w.calls ++ early ∧ ∀ call ∈ early, good call := by
      unfold Verdict.apply
      split
      · exact ⟨_, rfl, each u List.mem_cons_self _ ‹_›⟩
      · exact ⟨[], (List.append_nil _).symm, by simp⟩
    obtain ⟨early, made, goodEarly⟩ := first
    obtain ⟨later, further, goodLater⟩ := ih nodup fun v member r held =>
      have other : v.activity ≠ u.activity :=
        fun same => single (same ▸ List.mem_map_of_mem member)
      each v (List.mem_cons_of_mem _ member) r ((activity?_apply_of_ne other w).symm.trans held)
    refine ⟨early ++ later, ?_, List.forall_mem_append.mpr ⟨goodEarly, goodLater⟩⟩
    rw [← List.append_assoc, ← made]
    exact further

end WindowHost.Visibility
