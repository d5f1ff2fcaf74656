import WindowHost.Proofs.Hierarchy.Reachable
import WindowHost.Proofs.Visibility.Passes

/-! A pass finds nothing left to do where the same pass has just been. -/
namespace WindowHost.Visibility
open Hierarchy
variable {p : VisibilityParams} {w : World}

/-- Verdicts that are settled in the records as they are change nothing. -/
theorem hierarchy_carryOut_of_settled {vs : List Verdict} (settled : ∀ v ∈ vs, ∀ r,
    w.hierarchy.activity? v.activity = some r → Settled p v r) :
    (carryOut p w vs).hierarchy = w.hierarchy := by
  induction vs generalizing w with
  | nil => rfl
  | cons v rest ih =>
    have first : (v.apply p w).hierarchy = w.hierarchy := by
      unfold Verdict.apply
      split
      · rename_i r held
        rw [(settled v List.mem_cons_self r held).record, World.put_self held]
      · rfl
    exact (ih fun u member r held =>
      settled u (List.mem_cons_of_mem _ member) r (first ▸ held)).trans first

/-- A second pass over a display leaves every node as the first one left it. All that it may do
again is to send configurations and to ask for processes. -/
theorem updateDisplay_twice (formed : w.hierarchy.WellFormed) (locked : DisplayId → Bool)
    (p : VisibilityParams) (display : NodeId) :
    let once := (updateDisplay locked p w display).1
    let twice := (updateDisplay locked p once display).1
    twice.hierarchy = once.hierarchy ∧ ∃ later,
      twice.calls = once.calls ++ later ∧ ∀ call ∈ later, call.recurs = true := by
  intro once twice
  let vs := displayVerdicts locked p w.hierarchy display
  have first : once = carryOut p w vs := updateDisplay_world (.refl _) display
  have seen : SameView w.hierarchy once.hierarchy := first ▸ sameView_carryOut vs w
  have second : twice = carryOut p once vs := updateDisplay_world seen display
  have nodup : (vs.map Verdict.activity).Nodup := nodup_displayVerdicts formed.forest display
  have settled : ∀ v ∈ vs, ∀ r, once.hierarchy.activity? v.activity = some r → Settled p v r := by
    intro v member r held
    obtain ⟨r₀, before, _⟩ := seen.symm.exists_activity? held
    have ended := activity?_carryOut (p := p) nodup member before
    rw [← first, held, Option.some.injEq] at ended
    rw [ended]
    exact settled_turn
  rw [second]
  exact ⟨hierarchy_carryOut_of_settled settled,
    forall_calls_carryOut nodup fun v member r held => (settled v member r held).calls⟩

/-- A stopped activity is shown by the first pass, and the second one leaves it at that. -/
theorem updateDisplay_twice_of_stopped :
    let info : ActivityInfo := { component := ⟨"mail", "Inbox"⟩, uid := ⟨10010⟩ }
    let record := { ActivityRecord.create info {} with state := .stopped, attached := true }
    let h := ((empty.mutate (.addDisplay ⟨0⟩ ⟨0, 0, 1920, 1080⟩)).mutate
      (.createRootTask ⟨2⟩ .fullscreen .standard .top)).mutate (.addActivity ⟨3⟩ record .top)
    let once := (updateDisplay (fun _ => false) {} { hierarchy := h } ⟨1⟩).1
    let twice := (updateDisplay (fun _ => false) {} once ⟨1⟩).1
    once.calls = [.transaction ⟨4⟩ (.configuration false), .transaction ⟨4⟩ (.visibility true),
      .transaction ⟨4⟩ .makeActive] ∧ twice.hierarchy = once.hierarchy := by
  intro info record h
  have formed : h.WellFormed := ((wellFormed_empty.mutate _).mutate _).mutate _
  refine ⟨by decide +kernel, ?_⟩
  clear_value h
  exact (updateDisplay_twice (w := { hierarchy := h }) formed (fun _ => false) {} ⟨1⟩).1

end WindowHost.Visibility
