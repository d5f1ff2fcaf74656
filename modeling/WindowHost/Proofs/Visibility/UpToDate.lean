import WindowHost.Proofs.Visibility.Resumption
import WindowHost.Proofs.Visibility.Untouched

/-! Displays that are up to date. A pass with the focus passed on afterwards brings its display up
to date, whatever activity counted as starting, and a display that is not touched stays up to
date. -/
namespace WindowHost.Visibility
open Hierarchy
variable {locked : DisplayId → Bool} {p : VisibilityParams} {h h' h₀ : Hierarchy} {w : World}
  {display other k : NodeId} {v v' : Verdict} {r s : ActivityRecord} {starting : Option NodeId}

/-- A pass over the display would change neither what is wanted on screen nor what is seen. -/
def UpToDate (locked : DisplayId → Bool) (h : Hierarchy) (display : NodeId) : Prop :=
  ∀ k r r', h.activity? k = some r →
    (updateDisplay locked {} { hierarchy := h } display).1.hierarchy.activity? k = some r' →
      r'.visibleRequested = r.visibleRequested ∧
        r'.visibleIgnoringKeyguard = r.visibleIgnoringKeyguard

/-- Only keys that were handed out need be tried. -/
theorem upToDate_iff_lt_next : UpToDate locked h display ↔
    ∀ i < h.nodes.next, ∀ r ∈ h.activity? ⟨i⟩,
      ∀ r' ∈ (updateDisplay locked {} { hierarchy := h } display).1.hierarchy.activity? ⟨i⟩,
        r'.visibleRequested = r.visibleRequested ∧
          r'.visibleIgnoringKeyguard = r.visibleIgnoringKeyguard := by
  constructor
  · exact fun upToDate i _ r held r' held' => upToDate ⟨i⟩ r r' held held'
  · intro tried k r r' held held'
    have all : ∀ k r, h.activity? k = some r →
        ∀ r' ∈ (updateDisplay locked {} { hierarchy := h } display).1.hierarchy.activity? k,
          r'.visibleRequested = r.visibleRequested ∧
            r'.visibleIgnoringKeyguard = r.visibleIgnoringKeyguard :=
      forall_activity_of_lt_next tried
    exact all k r held r' held'

instance : Decidable (UpToDate locked h display) :=
  decidable_of_iff _ upToDate_iff_lt_next.symm

/-- A visit would change neither. -/
structure Verdict.Upheld (v : Verdict) (r : ActivityRecord) : Prop where
  wanted : (v.turn {} r).record.visibleRequested = r.visibleRequested
  seen : v.uncovered = r.visibleIgnoringKeyguard

theorem upToDate_iff (forest : Forest h₀) (same : SameView h₀ h) :
    UpToDate locked h display ↔ ∀ v ∈ displayVerdicts locked {} h₀ display, ∀ r,
      h.activity? v.activity = some r → v.Upheld r := by
  have nodup : ((displayVerdicts locked {} h₀ display).map Verdict.activity).Nodup :=
    nodup_displayVerdicts forest display
  have passed : (updateDisplay locked {} { hierarchy := h } display).1 =
      carryOut {} { hierarchy := h } (displayVerdicts locked {} h₀ display) :=
    updateDisplay_world same display
  unfold UpToDate
  rw [passed]
  constructor
  · intro stays v member r held
    obtain ⟨wanted, seen⟩ := stays v.activity r _ held
      (activity?_carryOut (w := { hierarchy := h }) nodup member held)
    exact ⟨wanted, Verdict.seen_turn.symm.trans seen⟩
  · intro upheld k r r' held held'
    by_cases met : k ∈ (displayVerdicts locked {} h₀ display).map Verdict.activity
    · obtain ⟨v, member, rfl⟩ := List.mem_map.mp met
      rw [activity?_carryOut (w := { hierarchy := h }) nodup member held,
        Option.some.injEq] at held'
      obtain ⟨wanted, seen⟩ := upheld v member r held
      rw [← held']
      exact ⟨wanted, Verdict.seen_turn.trans seen⟩
    · rw [activity?_carryOut_of_not_mem met, held, Option.some.injEq] at held'
      rw [held']
      exact ⟨rfl, rfl⟩

/-- What becomes of the top does not show in the record. -/
theorem Verdict.record_outcome : (v.outcome.turn p r).record = (v.turn p r).record := by
  have restarts : ∀ b, (Turn.restart p v.changes v.isTop b v.activity (v.note r)).record =
      (Turn.restart p v.changes v.isTop v.resumes v.activity (v.note r)).record := by
    intro b
    unfold Turn.restart
    split
    · rfl
    split <;> rfl
  have presents : (v.outcome.present p (v.note r)).record = (v.present p (v.note r)).record := by
    unfold Verdict.present
    split
    · exact restarts false
    split <;> rfl
  unfold Verdict.turn
  change (if v.visible then if r.finishing then ({ record := v.note r } : Turn) else
      { v.outcome.present p (v.note r) with
        calls := v.told p ++ (v.outcome.present p (v.note r)).calls }
    else Turn.hide v.activity (v.note r)).record = _
  split
  · split
    · rfl
    · exact presents
  · rfl

theorem Verdict.Upheld.congr (upheld : v.Upheld r) (same : v'.outcome = v.outcome) :
    v'.Upheld r where
  wanted := by
    rw [← Verdict.record_outcome, same, Verdict.record_outcome]
    exact upheld.wanted
  seen := (congrArg Verdict.uncovered same).trans upheld.seen

theorem exists_outcome {vs vs' : List Verdict}
    (same : vs'.map Verdict.outcome = vs.map Verdict.outcome) (member : v' ∈ vs') :
    ∃ v ∈ vs, v'.outcome = v.outcome := by
  have found := List.mem_map_of_mem (f := Verdict.outcome) member
  rw [same] at found
  obtain ⟨v, met, equal⟩ := List.mem_map.mp found
  exact ⟨v, met, equal.symm⟩

/-- A display that nothing has touched stays up to date. -/
theorem UpToDate.of_spares (upToDate : UpToDate locked h display) (forest : Forest h)
    (forest' : Forest h') (paired : Paired h) (shown : (h.display? display).isSome = true)
    (spares : Spares h h' display) : UpToDate locked h' display := by
  rw [upToDate_iff forest (.refl h)] at upToDate
  rw [upToDate_iff forest' (.refl h')]
  have begun : ∀ k, (none : Option NodeId) = some k →
      h.activityHas ActivityRecord.isRunning k = true := by simp
  intro v' member r held
  obtain ⟨v, met, same⟩ :=
    exists_outcome (outcomes_of_spares spares forest forest' begun locked paired shown) member
  have activity : v'.activity = v.activity := (congrArg Verdict.activity same :)
  rw [activity, spares.activity? (displayOf?_of_mem_displayVerdicts forest shown met)] at held
  exact (upToDate v met r held).congr same

/-- The record is as a visit leaves that of an activity which is shown by no other means. -/
structure Verdict.Done (v : Verdict) (r : ActivityRecord) : Prop where
  seen : r.visibleIgnoringKeyguard = v.uncovered
  wanted : v.visible = true → r.finishing = false → r.visibleRequested = true
  unwanted : v.visible = false → r.visibleRequested = false

theorem Verdict.done_turn
    (awake : r.state = .resumed → r.finishing = false → r.visibleRequested = true)
    (begins : p.starting = some v.activity → r.attached = false) :
    v.Done (v.turn p r).record where
  seen := Verdict.seen_turn
  wanted visible lasts := by
    have kept := Verdict.still_turn (p := p) (v := v) (r := r)
    have lasts : r.finishing = false := (congrArg ActivityRecord.finishing kept).symm.trans lasts
    have noted : v.note r = { r with visibleIgnoringKeyguard := true } := by
      simp [Verdict.note, (Bool.and_eq_true_iff.mp visible).1]
    rw [Verdict.turn, if_pos visible, noted, if_neg (by simp [lasts])]
    exact Verdict.wanted_present (fun resumed => awake resumed lasts) begins
  unwanted hidden := by
    rw [Verdict.turn, if_neg (by simp [hidden])]
    exact Turn.visibleRequested_hide

/-- The focus does not matter to what was done. -/
theorem Verdict.Done.congr (done : v.Done r) (same : s.unfocused = r.unfocused) : v.Done s := by
  have seen : s.visibleIgnoringKeyguard = r.visibleIgnoringKeyguard :=
    (congrArg ActivityRecord.visibleIgnoringKeyguard same :)
  have finishing : s.finishing = r.finishing := (congrArg ActivityRecord.finishing same :)
  have wanted : s.visibleRequested = r.visibleRequested :=
    (congrArg ActivityRecord.visibleRequested same :)
  constructor
  · rw [seen, done.seen]
  · rw [finishing, wanted]
    exact done.wanted
  · rw [wanted]
    exact done.unwanted

theorem Verdict.Done.upheld (done : v.Done r) : v.Upheld r := by
  refine ⟨?_, done.seen.symm⟩
  cases visible : v.visible with
  | false => rw [Verdict.turn, if_neg (by simp [visible]), Turn.visibleRequested_hide,
      done.unwanted visible]
  | true =>
    rw [Verdict.turn, if_pos visible]
    cases ends : r.finishing with
    | true => exact Verdict.visibleRequested_note
    | false =>
      have wanted := done.wanted visible ends
      rw [if_neg (by simp), wanted]
      exact Verdict.wanted_present (fun _ => Verdict.visibleRequested_note.trans wanted)
        (by simp)

/-- A pass brings its display up to date, and passing the focus on leaves it so. -/
theorem upToDate_of_pass (forest : Forest w.hierarchy) (paired : Paired w.hierarchy)
    (shown : (w.hierarchy.display? display).isSome = true)
    (awake : ∀ k r, w.hierarchy.activity? k = some r →
      r.state = .resumed → r.finishing = false → r.visibleRequested = true)
    (begins : ∀ k, starting = some k →
      ∃ r, w.hierarchy.activity? k = some r ∧ r.isRunning = true ∧ r.attached = false) :
    let passed := (updateDisplay locked { starting := starting } w display).1
    UpToDate locked (resumeFocused passed display).1.hierarchy display := by
  intro passed
  have first : SameView w.hierarchy passed.hierarchy := sameView_updateDisplay ..
  have same := first.trans (sameView_resumeFocused passed display)
  have begun : ∀ k, starting = some k →
      w.hierarchy.activityHas ActivityRecord.isRunning k = true := by
    intro k starts
    obtain ⟨r, held, runs, _⟩ := begins k starts
    rw [activityHas_of_activity? held, runs]
  rw [upToDate_iff forest same]
  intro v' member s held'
  obtain ⟨v, met, outcome⟩ := exists_outcome
    (outcomes_of_spares (.refl w.hierarchy display) forest forest begun locked paired shown) member
  have activity : v'.activity = v.activity := (congrArg Verdict.activity outcome :)
  rw [activity] at held'
  obtain ⟨r, held, _⟩ := same.symm.exists_activity? held'
  have visited : passed.hierarchy.activity? v.activity =
      some (v.turn { starting := starting } r).record := by
    change (updateDisplay locked { starting := starting } w display).1.hierarchy.activity? _ = _
    rw [updateDisplay_world (.refl _) display]
    exact activity?_carryOut (nodup_displayVerdicts forest display) met held
  have unfocused := unfocused_resumeFocused passed display v.activity
  rw [visited, held', Option.map_some, Option.map_some, Option.some.injEq] at unfocused
  have done : v.Done (v.turn { starting := starting } r).record := by
    refine Verdict.done_turn (awake v.activity r held) fun starts => ?_
    obtain ⟨a, found, _, bare⟩ := begins v.activity starts
    rw [held, Option.some.injEq] at found
    rw [found, bare]
  exact (done.congr unfocused).upheld.congr outcome

theorem spares_updateDisplay (forest : Forest w.hierarchy)
    (shown : (w.hierarchy.display? display).isSome = true) (apart : other ≠ display) :
    Spares w.hierarchy (updateDisplay locked p w display).1.hierarchy other := by
  intro k placed
  rw [updateDisplay_world (.refl _) display]
  refine node?_carryOut_of_not_mem (fun met => ?_) w
  obtain ⟨v, member, rfl⟩ := List.mem_map.mp met
  rw [displayOf?_of_mem_displayVerdicts forest shown member, Option.some.injEq] at placed
  exact apart placed.symm

theorem spares_resumeFocused (forest : Forest w.hierarchy)
    (shown : (w.hierarchy.display? display).isSome = true) (apart : other ≠ display) :
    Spares w.hierarchy (resumeFocused w display).1.hierarchy other := by
  have outside : ∀ {k root}, w.hierarchy.displayOf? k = some other →
      root ∈ w.hierarchy.rootTasks display → k ∉ w.hierarchy.activities root := by
    intro k root placed listed member
    have around := forest.displayOf?_of_inside shown (forest.inside_of_mem_rootTasks listed)
    rw [forest.displayOf?_of_mem_activities around member, Option.some.injEq] at placed
    exact apart placed.symm
  intro k placed
  cases focus : focusOf? w.hierarchy display with
  | none => rw [resumeFocused_of_none focus]
  | some top =>
    obtain ⟨r, held, _⟩ := isRunning_of_focusOf? focus
    obtain ⟨root, focused, found⟩ := Option.bind_eq_some_iff.mp focus
    have notTop : k ≠ top := by
      rintro rfl
      exact outside placed (mem_rootTasks_of_focusedRootTask? focused)
        (List.mem_of_find?_eq_some found)
    have notRival : k ∉ rivals w.hierarchy display top := by
      intro rival
      obtain ⟨root, listed, member⟩ := List.mem_flatMap.mp (List.mem_filter.mp rival).1
      exact outside placed listed member
    rw [resumeFocused_of_some focus held]
    split
    · exact (World.node?_put_of_ne notTop ..).trans (node?_foldl_yieldFocus notRival w)
    · exact node?_foldl_yieldFocus notRival w

/-- A pass and the focus stay on their display. -/
theorem spares_of_pass (forest : Forest w.hierarchy)
    (shown : (w.hierarchy.display? display).isSome = true) (apart : other ≠ display) :
    let passed := (updateDisplay locked p w display).1
    Spares w.hierarchy (resumeFocused passed display).1.hierarchy other := by
  intro passed
  have same : SameView w.hierarchy passed.hierarchy := sameView_updateDisplay ..
  have frame := sameFrame_of_sameView same
  have forest' : Forest passed.hierarchy := forest.congr frame.parent frame.children frame.tag
  have shown' : (passed.hierarchy.display? display).isSome = true := same.display? ▸ shown
  have first : Spares w.hierarchy passed.hierarchy other := spares_updateDisplay forest shown apart
  exact first.trans forest forest' (spares_resumeFocused forest' shown' apart)

end WindowHost.Visibility
