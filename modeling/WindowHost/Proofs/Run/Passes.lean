import WindowHost.Proofs.Hierarchy.Records
import WindowHost.Proofs.Run.Acts
import WindowHost.Proofs.Visibility.Focus
import WindowHost.Proofs.Visibility.News

/-! Runs of visibility passes, and what clients hear of them. A silent pass puts off the news that
an activity is on screen. The next one that notifies and finds the activity wanted drops that news
and wakes the activity if it is stopped; the client of one that is not stopped never hears of it. -/
namespace WindowHost

/-- What a pass goes over. -/
inductive Extent where
  | container (k : NodeId)
  | display (display : NodeId)
  | all

/-- A visibility pass. -/
structure Pass where
  locked : DisplayId → Bool
  params : VisibilityParams
  extent : Extent

namespace Pass
open Hierarchy Visibility
variable {w : World} {h : Hierarchy}

def act (pass : Pass) : Act :=
  match pass.extent with
  | .container k => .updateContainer pass.locked pass.params k
  | .display display => .updateDisplay pass.locked pass.params display
  | .all => .updateAll pass.locked pass.params

def verdicts (pass : Pass) (h : Hierarchy) : List Verdict :=
  match pass.extent with
  | .container k => Visibility.verdicts pass.locked pass.params h k
  | .display display => displayVerdicts pass.locked pass.params h display
  | .all => h.displays.flatMap (displayVerdicts pass.locked pass.params h)

theorem act_eq_carryOut (pass : Pass) (w : World) :
    w.act pass.act = carryOut pass.params w (pass.verdicts w.hierarchy) := by
  unfold act verdicts
  cases pass.extent with
  | container k => exact updateContainer_world (.refl _) k
  | display display => exact updateDisplay_world (.refl _) display
  | all =>
    exact updateEach_world (fun _ display same => updateDisplay_world same display) (.refl _) _

/-- No pass comes to an activity twice. -/
theorem nodup_verdicts (pass : Pass) (formed : h.WellFormed) :
    ((pass.verdicts h).map Verdict.activity).Nodup := by
  unfold verdicts
  cases pass.extent with
  | container k => exact (sublist_verdicts h k).nodup (formed.forest.nodup_ids_contents k)
  | display display => exact nodup_displayVerdicts formed.forest display
  | all =>
    rw [List.map_flatMap]
    refine List.nodup_flatMap.mpr ⟨fun display _ => ?_, ?_⟩
    · exact nodup_displayVerdicts formed.forest display
    · apply formed.displays_nodup.imp_of_mem
      intro a b left right apart x inLeft inRight
      obtain ⟨v, found, rfl⟩ := List.mem_map.mp inLeft
      obtain ⟨v', found', same⟩ := List.mem_map.mp inRight
      have placed : ∀ {display v}, display ∈ h.displays →
          v ∈ displayVerdicts pass.locked pass.params h display →
            h.displayOf? v.activity = some display := by
        intro display v listed found
        obtain ⟨d, shown⟩ := formed.listed.mp listed
        exact displayOf?_of_mem_displayVerdicts formed.forest (by rw [shown]; rfl) found
      have there := placed right found'
      rw [same, placed left found, Option.some.injEq] at there
      exact apart there

/-- Passes keep a hierarchy well-formed. -/
theorem wellFormed_afterActs (formed : w.hierarchy.WellFormed) (passes : List Pass) :
    (w.afterActs (passes.map act)).hierarchy.WellFormed := by
  induction passes generalizing w with
  | nil => exact formed
  | cons pass rest ih =>
    have same : SameView w.hierarchy (w.act pass.act).hierarchy := by
      rw [act_eq_carryOut]
      exact sameView_carryOut _ w
    exact ih (formed.of_sameFrame (sameFrame_of_sameView same))

/-- Where a pass of a run drops news that was put off and the activity stays wanted, its client
learns that it is on screen, unless the activity was wanted already and was not asleep. -/
theorem heard_afterActs (formed : w.hierarchy.WellFormed) (passes : List Pass) {i : Nat}
    (more : i < passes.length) :
    let before := w.afterActs ((passes.take i).map act)
    let after := w.afterActs ((passes.take (i + 1)).map act)
    ∃ later, after.calls = before.calls ++ later ∧ ∀ k r r',
      before.hierarchy.activity? k = some r → after.hierarchy.activity? k = some r' →
      r.clientVisibilityDeferred = true → r'.clientVisibilityDeferred = false →
      r'.visibleRequested = true →
        (Heard k later ↔ (r.visibleRequested = true → r.state = .stopped)) := by
  intro before after
  have next : after = before.act passes[i].act := by
    simp only [before, after, World.afterActs, List.take_succ_eq_append_getElem more,
      List.map_append, List.foldl_append]
    rfl
  have sound : before.hierarchy.WellFormed := wellFormed_afterActs formed _
  have nodup := passes[i].nodup_verdicts sound
  rw [act_eq_carryOut] at next
  obtain ⟨later, made, sources⟩ := exists_mem_calls_carryOut nodup
  rw [← next] at made
  refine ⟨later, made, fun k r r' held held' late cleared wanted => ?_⟩
  have changed : r' ≠ r := by
    rintro rfl
    rw [late] at cleared
    contradiction
  obtain ⟨v, member, rfl, rfl⟩ := exists_verdict_of_changed nodup held (next ▸ held') changed
  rw [← Verdict.heard_turn late cleared wanted]
  have same : ∀ t, .transaction v.activity t ∈ later ↔
      .transaction v.activity t ∈ (v.turn passes[i].params r).calls :=
    fun _ => mem_turn_of_mem_later nodup sources member held rfl
  exact or_congr (same _) (same _)

/-- A silent pass shows a stopped activity, and the next one wakes it. -/
theorem heard_afterActs_of_stopped :
    let info : ActivityInfo := { component := ⟨"mail", "Inbox"⟩, uid := ⟨10010⟩ }
    let record := { ActivityRecord.create info {} with state := .stopped, attached := true }
    let start := afterCalls [.addDisplay ⟨0⟩ ⟨0, 0, 1920, 1080⟩,
      .createRootTask ⟨2⟩ .fullscreen .standard .top, .addActivity ⟨3⟩ record .top]
    let pass (aloud : Bool) : Pass :=
      { locked := fun _ => false, params := { notifyClients := aloud }, extent := .all }
    let w : World := { hierarchy := start }
    let once := w.afterActs [(pass false).act]
    let twice := w.afterActs [(pass false).act, (pass true).act]
    once.calls = [] ∧ ∃ later, twice.calls = once.calls ++ later ∧ Heard ⟨4⟩ later := by
  intro info record start pass w once twice
  have formed : start.WellFormed := wellFormed_afterCalls _
  have silent : once.calls = [] := by decide +kernel
  have held : once.hierarchy.activity? ⟨4⟩ = some { record with
      visibleRequested := true, visibleIgnoringKeyguard := true,
      clientVisibilityDeferred := true } := by decide +kernel
  have held' : twice.hierarchy.activity? ⟨4⟩ = some { record with
      state := .paused, visibleRequested := true, visibleIgnoringKeyguard := true } := by
    decide +kernel
  obtain ⟨later, made, heard⟩ := heard_afterActs (w := w) formed [pass false, pass true]
    (i := 1) (by decide)
  refine ⟨silent, later, made, ?_⟩
  exact (heard ⟨4⟩ _ _ held held' rfl rfl rfl).mpr fun _ => rfl

/-- A paused activity is shown by a silent pass, and its client never learns of it: the next pass
drops the news and tells it a configuration. -/
theorem not_heard_of_paused :
    let info : ActivityInfo := { component := ⟨"mail", "Inbox"⟩, uid := ⟨10010⟩ }
    let record := { ActivityRecord.create info {} with state := .paused, attached := true }
    let start := afterCalls [.addDisplay ⟨0⟩ ⟨0, 0, 1920, 1080⟩,
      .createRootTask ⟨2⟩ .fullscreen .standard .top, .addActivity ⟨3⟩ record .top]
    let pass (aloud : Bool) : Pass :=
      { locked := fun _ => false, params := { notifyClients := aloud }, extent := .display ⟨1⟩ }
    let w : World := { hierarchy := start }
    let once := w.afterActs [(pass false).act]
    let twice := w.afterActs [(pass false).act, (pass true).act]
    start.WellFormed ∧ once.hierarchy.activityHas (·.clientVisibilityDeferred) ⟨4⟩ = true ∧
      twice.hierarchy.activityHas (fun r => r.visibleRequested && !r.clientVisibilityDeferred)
        ⟨4⟩ = true ∧
      ¬ ∃ later, twice.calls = once.calls ++ later ∧ Heard ⟨4⟩ later := by
  intro info record start pass w once twice
  have silent : once.calls = [] := by decide +kernel
  have told : twice.calls = [.transaction ⟨4⟩ (.configuration false)] := by decide +kernel
  refine ⟨wellFormed_afterCalls _, by decide +kernel, by decide +kernel, ?_⟩
  rintro ⟨later, made, heard⟩
  rw [silent, told, List.nil_append] at made
  rw [← made] at heard
  simp [Heard] at heard

/-- A silent pass tells no client of a configuration or of what becomes visible. What it hides it
does tell: an activity's client is told so just when the activity was wanted and no longer is. -/
theorem announces_act_of_silent (pass : Pass) (silent : pass.params.notifyClients = false)
    (w : World) :
    ∃ later, (w.act pass.act).calls = w.calls ++ later ∧
      (∀ call ∈ later, call.announces = false) ∧
      (w.hierarchy.WellFormed → ∀ k b, .transaction k (.visibility b) ∈ later ↔
        b = false ∧ w.hierarchy.activityHas (·.visibleRequested) k = true ∧
          (w.act pass.act).hierarchy.activityHas (·.visibleRequested) k = false) := by
  rw [act_eq_carryOut]
  have each : ∀ (v : Verdict) r, ∀ call ∈ (v.turn pass.params r).calls, call.announces = false :=
    fun _ _ => Verdict.calls_turn_of_silent silent
  obtain ⟨later, made, mute⟩ := forall_calls_of_forall_turn each (pass.verdicts w.hierarchy) w
  refine ⟨later, made, mute, fun formed k b => ?_⟩
  have nodup := pass.nodup_verdicts formed
  obtain ⟨later', made', sources⟩ := exists_mem_calls_carryOut (p := pass.params) nodup
  obtain rfl : later = later' := List.append_cancel_left (made.symm.trans made')
  cases b with
  | true =>
    constructor
    · intro asked
      have loud := mute _ asked
      contradiction
    · rintro ⟨_, _⟩
      contradiction
  | false =>
    constructor
    · intro asked
      obtain ⟨v, member, r, held, asked⟩ := (sources _).mp asked
      have about := Verdict.activity?_of_mem_calls asked
      obtain rfl : k = v.activity := Option.some.inj about
      rw [activityHas_of_activity? held,
        activityHas_of_activity? (activity?_carryOut nodup member held)]
      exact ⟨rfl, Verdict.hidden_turn.mp asked⟩
    · rintro ⟨_, wanted, hidden⟩
      obtain ⟨r, held, requested⟩ := exists_of_activityHas wanted
      obtain ⟨r', held', _⟩ :=
        (sameView_carryOut (p := pass.params) (pass.verdicts w.hierarchy) w).exists_activity? held
      rw [activityHas_of_activity? held'] at hidden
      have changed : r' ≠ r := by
        rintro rfl
        rw [requested] at hidden
        contradiction
      obtain ⟨v, member, rfl, rfl⟩ := exists_verdict_of_changed nodup held held' changed
      exact (sources _).mpr ⟨v, member, r, held, Verdict.hidden_turn.mpr ⟨requested, hidden⟩⟩

/-- Below the inbox, which a silent pass shows, the list is hidden and stopped. -/
theorem announces_act_of_inbox :
    let record (name : String) : ActivityRecord :=
      { ActivityRecord.create { component := ⟨"mail", name⟩, uid := ⟨10010⟩ } {} with
        state := .paused, attached := true }
    let start := afterCalls [.addDisplay ⟨0⟩ ⟨0, 0, 1920, 1080⟩,
      .createRootTask ⟨2⟩ .fullscreen .standard .top,
      .addActivity ⟨3⟩ { record "List" with visibleRequested := true } .top,
      .addActivity ⟨3⟩ (record "Inbox") .top]
    let pass : Pass :=
      { locked := fun _ => false, params := { notifyClients := false }, extent := .container ⟨3⟩ }
    let after := World.act { hierarchy := start } pass.act
    after.hierarchy.activityHas (·.clientVisibilityDeferred) ⟨5⟩ = true ∧
      (∀ call ∈ after.calls, call.announces = false) ∧
      ∀ b, .transaction ⟨4⟩ (.visibility b) ∈ after.calls ↔ b = false := by
  intro record start pass after
  have formed : start.WellFormed := wellFormed_afterCalls _
  have wanted : start.activityHas (·.visibleRequested) ⟨4⟩ = true := by decide +kernel
  have hidden : after.hierarchy.activityHas (·.visibleRequested) ⟨4⟩ = false := by decide +kernel
  obtain ⟨later, made, mute, told⟩ :=
    announces_act_of_silent pass rfl { hierarchy := start }
  obtain rfl : after.calls = later := made
  refine ⟨by decide +kernel, mute, fun b => ?_⟩
  rw [told formed]
  constructor
  · exact fun sent => sent.1
  · exact fun off => ⟨off, wanted, hidden⟩

/-- The news that the list is hidden is sent by a silent pass, too. -/
theorem not_silent_of_inbox :
    let record (name : String) : ActivityRecord :=
      { ActivityRecord.create { component := ⟨"mail", name⟩, uid := ⟨10010⟩ } {} with
        state := .paused, attached := true }
    let start := afterCalls [.addDisplay ⟨0⟩ ⟨0, 0, 1920, 1080⟩,
      .createRootTask ⟨2⟩ .fullscreen .standard .top,
      .addActivity ⟨3⟩ { record "List" with visibleRequested := true } .top,
      .addActivity ⟨3⟩ { record "Inbox" with state := .stopped } .top]
    let p : VisibilityParams := { notifyClients := false }
    start.WellFormed ∧ .transaction ⟨4⟩ (.visibility false) ∈
      (updateDisplay (fun _ => false) p { hierarchy := start } ⟨1⟩).1.calls := by
  intro record start p
  exact ⟨wellFormed_afterCalls _, by decide +kernel⟩

end Pass
end WindowHost
