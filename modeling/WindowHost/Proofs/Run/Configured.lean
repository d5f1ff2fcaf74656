import WindowHost.Proofs.Run.Passes

/-! The configuration changes that a pass answers. Nested walks, root tasks and displays each start
from the changes that the pass was given, and what they find is united on the way out. It comes to
the changes given and those of the activities whose clients the pass tells of a configuration. -/
namespace WindowHost

namespace Flags
variable {κ : Type} (s t u : Flags κ)

theorem union_assoc : (s.union t).union u = s.union (t.union u) := by
  simp only [union, UInt32.or_assoc]

theorem union_comm : s.union t = t.union s := by
  simp only [union, UInt32.or_comm]

theorem union_self : s.union s = s := by
  simp only [union, UInt32.or_self]

end Flags

/-- The activity that a call tells of its configuration. -/
def Call.configured? : Call → Option NodeId
  | .transaction k (.configuration _) => some k
  | _ => none

/-- The activities that calls tell of their configuration, one for each such call. -/
def configured (calls : List Call) : List NodeId := calls.filterMap Call.configured?

theorem configured_append (calls more : List Call) :
    configured (calls ++ more) = configured calls ++ configured more :=
  List.filterMap_append

namespace Hierarchy
variable {h h' : Hierarchy} {k : NodeId} {changes more : ConfigChanges} {ks js : List NodeId}

/-- The configuration changes that are flagged for an activity. -/
def flagged (h : Hierarchy) (k : NodeId) : ConfigChanges :=
  ((h.activity? k).map (·.configChangeFlags)).getD .empty

/-- `changes` with what is flagged for each of some activities. -/
def gather (h : Hierarchy) (changes : ConfigChanges) (ks : List NodeId) : ConfigChanges :=
  ks.foldl (fun changes k => changes.union (h.flagged k)) changes

theorem gather_append : h.gather changes (ks ++ js) = h.gather (h.gather changes ks) js :=
  List.foldl_append

theorem union_gather : h.gather (changes.union more) ks = changes.union (h.gather more ks) := by
  induction ks generalizing more with
  | nil => rfl
  | cons k ks ih =>
    change h.gather ((changes.union more).union (h.flagged k)) ks = _
    rw [Flags.union_assoc, ih]
    rfl

/-- Nothing is lost of what was there before. -/
theorem gather_union (absorbs : changes.union more = changes) :
    (h.gather changes ks).union more = h.gather changes ks := by
  rw [Flags.union_comm, ← union_gather, Flags.union_comm, absorbs]

/-- What was gathered apart from a start that is had already adds what was gathered. -/
theorem union_gather_of_absorbs (absorbs : changes.union more = changes) :
    changes.union (h.gather more ks) = h.gather changes ks := by
  rw [← union_gather, absorbs]

theorem SameView.flagged (same : SameView h h') : h'.flagged = h.flagged := by
  funext k
  have same : (h'.activity? k).map (·.configChangeFlags) =
      (h.activity? k).map (·.configChangeFlags) := same.activity?_map fun _ => rfl
  rw [Hierarchy.flagged, same, Hierarchy.flagged]

end Hierarchy

namespace Visibility
open Hierarchy
variable {locked : DisplayId → Bool} {p : VisibilityParams} {h : Hierarchy} {c : Container}
  {s inner : Walk} {w : World} {k : NodeId} {v : Verdict} {vs us : List Verdict}
  {r : ActivityRecord}

/-- Whether the client hears of a configuration: the activity is found visible and is not
finishing. -/
def Verdict.announces (h : Hierarchy) (v : Verdict) : Bool :=
  v.visible && h.activityHas (fun r => !r.finishing) v.activity

/-- The activities that verdicts make known to their clients, in order. -/
def announced (h : Hierarchy) (vs : List Verdict) : List NodeId :=
  (vs.filter (Verdict.announces h)).map Verdict.activity

theorem announced_singleton :
    announced h [v] = if v.announces h then [v.activity] else [] := by
  unfold announced
  cases announces : v.announces h <;> simp [announces]

theorem announced_append : announced h (vs ++ us) = announced h vs ++ announced h us := by
  simp only [announced, List.filter_append, List.map_append]

theorem announced_congr {h' : Hierarchy} (same : SameView h h') (vs : List Verdict) :
    announced h' vs = announced h vs := by
  have announces : Verdict.announces h' = Verdict.announces h := by
    funext v
    exact congrArg (v.visible && ·) (same.activityHas_apply fun _ => rfl)
  rw [announced, announces, announced]

theorem sublist_announced (h : Hierarchy) (vs : List Verdict) :
    (announced h vs).Sublist (vs.map Verdict.activity) :=
  List.filter_sublist.map _

theorem configChanges_closeHome (s : Walk) : (s.closeHome c k).configChanges = s.configChanges := by
  unfold Walk.closeHome
  split <;> rfl

theorem configChanges_leave :
    (s.leave c k inner).configChanges = s.configChanges.union inner.configChanges := by
  unfold Walk.leave
  dsimp only
  split
  · rfl
  split <;> rfl

theorem configChanges_pass (held : s.world.hierarchy.activity? k = some r) :
    (s.pass c k r).configChanges = s.world.hierarchy.gather s.configChanges
      (announced s.world.hierarchy [s.judge c k r]) := by
  have lasts : (s.judge c k r).announces s.world.hierarchy =
      ((s.judge c k r).visible && !r.finishing) :=
    congrArg ((s.judge c k r).visible && ·) (activityHas_of_activity? held _)
  have flags : s.world.hierarchy.flagged k = r.configChangeFlags := by simp [flagged, held]
  rw [announced_singleton, lasts]
  unfold Walk.pass
  dsimp only
  cases (s.judge c k r).visible with
  | false => exact configChanges_closeHome _
  | true =>
    cases r.finishing with
    | true => rfl
    | false =>
      refine (configChanges_closeHome _).trans ?_
      rw [← flags]
      rfl

theorem changes_survey (L : Layers) : ∀ (c : Container) (s : Walk),
    s.configChanges.union c.params.configChanges = s.configChanges →
      (survey locked c s L).1.configChanges =
        s.world.hierarchy.gather s.configChanges
          (announced s.world.hierarchy (survey locked c s L).2) := by
  induction L with
  | nil => exact fun _ _ _ => rfl
  | node k inside below inner rest =>
    intro c s absorbs
    -- what lies below goes on from what the node itself has added
    have further : ∀ (t : Walk) (here : List Verdict), t.world = s.world →
        t.configChanges =
          s.world.hierarchy.gather s.configChanges (announced s.world.hierarchy here) →
        (survey locked c t below).1.configChanges =
          s.world.hierarchy.gather s.configChanges
            (announced s.world.hierarchy (here ++ (survey locked c t below).2)) := by
      intro t here kept gathered
      rw [announced_append, gather_append, ← gathered, ← kept]
      refine rest c t ?_
      rw [gathered]
      exact gather_union absorbs
    rw [survey]
    dsimp only
    split
    · split
      · let nested := Container.look locked c.params s.world.hierarchy k
        refine further _ _ ((world_leave ..).trans (world_survey ..)) ?_
        rw [configChanges_leave, inner nested _ (Flags.union_self _)]
        exact union_gather_of_absorbs absorbs
      · exact further s [] rfl rfl
    · cases held : s.world.hierarchy.activity? k with
      | none => exact further s [] rfl rfl
      | some r =>
        dsimp only
        split
        · exact further s [] rfl rfl
        · exact further _ _ (world_pass s) (configChanges_pass held)

theorem changes_updateContainer (same : SameView h w.hierarchy) (k : NodeId) :
    (updateContainer locked p w k).2 =
      h.gather p.configChanges (announced h (verdicts locked p h k)) := by
  unfold updateContainer verdicts
  rw [same.isFragmentLike]
  split
  · rw [same.look, same.contents]
    let c := Container.look locked p h k
    let s := c.begin { hierarchy := h } false
    have walked := run_eq_survey locked (h.contents k) c s w same
    exact (congrArg Walk.configChanges walked).trans
      (changes_survey (h.contents k) c s (Flags.union_self _))
  · rfl

theorem changes_updateEach {update : World → NodeId → World × ConfigChanges}
    {found : NodeId → List Verdict}
    (world : ∀ w k, SameView h w.hierarchy → (update w k).1 = carryOut p w (found k))
    (changes : ∀ w k, SameView h w.hierarchy →
      (update w k).2 = h.gather p.configChanges (announced h (found k)))
    (same : SameView h w.hierarchy) (ks : List NodeId) :
    (updateEach update p w ks).2 =
      h.gather p.configChanges (announced h (ks.flatMap found)) := by
  suffices walked : ∀ (before : ConfigChanges) (w : World), SameView h w.hierarchy →
      before.union p.configChanges = before →
      (ks.foldl (fun walk k => ((update walk.1 k).1, walk.2.union (update walk.1 k).2))
        (w, before)).2 = h.gather before (announced h (ks.flatMap found)) from
    walked p.configChanges w same (Flags.union_self _)
  induction ks with
  | nil => exact fun _ _ _ _ => rfl
  | cons k ks ih =>
    intro before w same absorbs
    have first := world w k same
    have gathered := (congrArg before.union (changes w k same)).trans
      (union_gather_of_absorbs absorbs)
    rw [List.foldl_cons, List.flatMap_cons, announced_append, gather_append, ← gathered]
    refine ih _ _ ?_ (gathered ▸ gather_union absorbs)
    exact first ▸ same.trans (sameView_carryOut (found k) w)

theorem changes_updateDisplay (same : SameView h w.hierarchy) (display : NodeId) :
    (updateDisplay locked p w display).2 =
      h.gather p.configChanges (announced h (displayVerdicts locked p h display)) := by
  unfold updateDisplay
  rw [same.rootTasks]
  exact changes_updateEach (fun w k same => updateContainer_world same k)
    (fun w k same => changes_updateContainer same k) same _

theorem Turn.configured_makeActive : configured (Turn.makeActive k r).calls = [] := by
  unfold Turn.makeActive
  split <;> rfl

theorem Turn.configured_hide : configured (Turn.hide k r).calls = [] := by
  unfold Turn.hide
  split
  · dsimp only
    split <;> rfl
  · rfl

theorem Turn.configured_restart {changes : ConfigChanges} {isTop andResume : Bool} :
    configured (Turn.restart p changes isTop andResume k r).calls = [] := by
  unfold Turn.restart
  split
  · rfl
  split <;> rfl

theorem Turn.configured_refresh : configured (Turn.refresh p k r).calls = [] := by
  unfold Turn.refresh
  split
  · exact Turn.configured_makeActive
  · rfl

theorem Turn.configured_reveal : configured (Turn.reveal p k r).calls = [] := by
  unfold Turn.reveal
  split
  · rfl
  split
  · exact Turn.configured_makeActive
  · rfl

theorem Verdict.configured_present : configured (v.present p r).calls = [] := by
  unfold Verdict.present
  split
  · exact Turn.configured_restart
  split
  · exact Turn.configured_refresh
  · exact Turn.configured_reveal

section
variable (notifies : p.notifyClients = true) (calm : p.starting = none)
include notifies calm

theorem Verdict.configured_turn : configured (v.turn p r).calls =
    if v.visible && !r.finishing then [v.activity] else [] := by
  have told : configured (v.told p) = [v.activity] := by
    simp [Verdict.told, notifies, calm, configured, Call.configured?]
  unfold Verdict.turn
  cases v.visible with
  | false => exact Turn.configured_hide
  | true =>
    cases r.finishing with
    | true => rfl
    | false =>
      refine (configured_append ..).trans ?_
      rw [told, Verdict.configured_present]
      rfl

theorem Verdict.configured_apply (v : Verdict) (w : World) :
    ∃ made, (v.apply p w).calls = w.calls ++ made ∧
      configured made = announced w.hierarchy [v] := by
  unfold Verdict.apply
  rw [announced_singleton, Verdict.announces]
  cases held : w.hierarchy.activity? v.activity with
  | none => exact ⟨[], (List.append_nil _).symm, by simp [configured, activityHas, held]⟩
  | some r =>
    refine ⟨(v.turn p r).calls, rfl, ?_⟩
    rw [Verdict.configured_turn notifies calm, activityHas_of_activity? held]

/-- Clients are told of a configuration just as the verdicts announce. -/
theorem configured_carryOut (vs : List Verdict) (w : World) :
    ∃ later, (carryOut p w vs).calls = w.calls ++ later ∧
      configured later = announced w.hierarchy vs := by
  induction vs generalizing w with
  | nil => exact ⟨[], by simp [carryOut], rfl⟩
  | cons v rest ih =>
    obtain ⟨made, first, told⟩ := Verdict.configured_apply notifies calm v w
    obtain ⟨later, further, told'⟩ := ih (v.apply p w)
    refine ⟨made ++ later, ?_, ?_⟩
    · rw [← List.append_assoc, ← first]
      exact further
    · rw [configured_append, told, told', announced_congr (sameView_apply w v),
        ← announced_append, List.singleton_append]

end

end Visibility

namespace Pass
open Hierarchy Visibility
variable {w : World}

/-- What a pass leaves, and the configuration changes that it answers. -/
def answer (pass : Pass) (w : World) : World × ConfigChanges :=
  match pass.extent with
  | .container k => updateContainer pass.locked pass.params w k
  | .display display => updateDisplay pass.locked pass.params w display
  | .all => updateAll pass.locked pass.params w

theorem world_answer (pass : Pass) (w : World) : (pass.answer w).1 = w.act pass.act := by
  unfold answer act
  cases pass.extent <;> rfl

theorem changes_answer (pass : Pass) (w : World) :
    (pass.answer w).2 = w.hierarchy.gather pass.params.configChanges
      (announced w.hierarchy (pass.verdicts w.hierarchy)) := by
  unfold answer verdicts
  cases pass.extent with
  | container k => exact changes_updateContainer (.refl _) k
  | display display => exact changes_updateDisplay (.refl _) display
  | all =>
    exact changes_updateEach (fun _ display same => updateDisplay_world same display)
      (fun _ display same => changes_updateDisplay same display) (.refl _) _

/-- A pass that notifies, with no activity about to start, answers the changes that it was given
with those flagged for the activities that it tells of a configuration, and for no others. It tells
each of them once, and leaves all flags as they are. -/
theorem changes_answer_of_configured (pass : Pass) (formed : w.hierarchy.WellFormed)
    (notifies : pass.params.notifyClients = true) (calm : pass.params.starting = none) :
    (∃ later, (pass.answer w).1.calls = w.calls ++ later ∧ (configured later).Nodup ∧
      (pass.answer w).2 = w.hierarchy.gather pass.params.configChanges (configured later)) ∧
    (pass.answer w).1.hierarchy.flagged = w.hierarchy.flagged := by
  have world := (world_answer pass w).trans (act_eq_carryOut pass w)
  constructor
  · obtain ⟨later, made, told⟩ :=
      configured_carryOut notifies calm (pass.verdicts w.hierarchy) w
    refine ⟨later, world ▸ made, ?_, ?_⟩
    · rw [told]
      exact (sublist_announced ..).nodup (pass.nodup_verdicts formed)
    · rw [told]
      exact changes_answer pass w
  · rw [world]
    exact (sameView_carryOut _ w).flagged

/-- A pass over two displays. It tells the note and the list in its pane on the lower display, and
the draft on the upper one, and answers what is flagged for these three with what it was given; the
mail behind them and the hint that is finishing are left out. -/
theorem changes_answer_of_pane :
    let record (name : String) (change : ConfigChange) : ActivityRecord :=
      { ActivityRecord.create { component := ⟨"mail", name⟩, uid := ⟨10010⟩ } {} with
        attached := true, configChangeFlags := .single change }
    let h := afterCalls [.addDisplay ⟨0⟩ ⟨0, 0, 1920, 1080⟩,
      .createRootTask ⟨2⟩ .fullscreen .standard .top,
      .addActivity ⟨3⟩ (record "Mail" .density) .top,
      .createRootTask ⟨2⟩ .fullscreen .standard .top,
      .createFragment ⟨5⟩ (some ⟨0, 0, 960, 1080⟩) .top,
      .addActivity ⟨6⟩ (record "List" .locale) .top,
      .createFragment ⟨5⟩ (some ⟨960, 0, 1920, 1080⟩) .top,
      .addActivity ⟨8⟩ (record "Note" .orientation) .top,
      .addActivity ⟨8⟩ { record "Hint" .screenSize with finishing := true } .top,
      .addDisplay ⟨1⟩ ⟨0, 0, 1280, 720⟩, .createRootTask ⟨12⟩ .fullscreen .standard .top,
      .addActivity ⟨13⟩ (record "Draft" .fontScale) .top]
    let pass : Pass :=
      { locked := fun _ => false, params := { configChanges := .single .uiMode }, extent := .all }
    let answer := pass.answer { hierarchy := h }
    configured answer.1.calls = [⟨9⟩, ⟨7⟩, ⟨14⟩] ∧
      answer.2 = h.gather (.single .uiMode) [⟨9⟩, ⟨7⟩, ⟨14⟩] ∧
      answer.2.names = ["LOCALE", "ORIENTATION", "UI_MODE", "FONT_SCALE"] := by
  intro record h pass answer
  have formed : h.WellFormed := wellFormed_afterCalls _
  have told : configured answer.1.calls = [⟨9⟩, ⟨7⟩, ⟨14⟩] := by decide +kernel
  have names : (h.gather (.single .uiMode) [⟨9⟩, ⟨7⟩, ⟨14⟩]).names =
      ["LOCALE", "ORIENTATION", "UI_MODE", "FONT_SCALE"] := by decide +kernel
  clear_value h
  obtain ⟨⟨later, made, _, changes⟩, _⟩ :=
    pass.changes_answer_of_configured (w := { hierarchy := h }) formed rfl rfl
  have heard : configured later = [⟨9⟩, ⟨7⟩, ⟨14⟩] := by
    rw [← told, show answer.1.calls = later from made]
  rw [heard] at changes
  exact ⟨told, changes, (congrArg Flags.names changes).trans names⟩

end Pass
end WindowHost
