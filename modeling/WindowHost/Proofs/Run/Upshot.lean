import WindowHost.Proofs.Run.Starts
import WindowHost.Proofs.Start.Lodging

/-! What a start comes to. The activities that are left have stayed where they were, and at most one
has come, to a place that the launch has chosen on the terms of the request. -/
namespace WindowHost.Start
open Hierarchy
variable {w w' : World} {env : Environment} {h h' h₀ : Hierarchy} {r : StartRequest}
  {record : ActivityRecord} {goal k : NodeId} {out : Option NodeId} {result : StartResult}

inductive Upshot (host : Host) (given : StartRequest) (h h' : Hierarchy) : Prop where
  | still (stays : ∀ k, Stays h h' k) : Upshot host given h h'
  | added {r : StartRequest} {uid : Uid} {info : ActivityInfo} {l : Launch}
      {before after : Hierarchy} {place k : NodeId} (admitted : Admitted host given r info h)
      (chosen : l.Of r h) (lodging : Lodging r h (r.newRecord uid info) l place before)
      (made : before.addActivity place (r.newRecord uid info) .top = .ok (after, k))
      (later : ∀ j, Stays after h' j) : Upshot host given h h'

theorem stays_propagate (env : Environment) (w : World) (display : NodeId)
    (starting : Option NodeId) (k : NodeId) :
    Stays w.hierarchy (propagate env w display starting).hierarchy k :=
  (sameView_propagate env w display starting).stays k

section
variable {j : NodeId} (forest : Forest w.hierarchy)
include forest

theorem stays_put {a b : ActivityRecord} (held : w.hierarchy.activity? j = some a)
    (same : b.info = a.info ∧ b.userId = a.userId ∧ b.isRunning = a.isRunning)
    (calls : List Call) (k : NodeId) : Stays w.hierarchy (w.put j b calls).hierarchy k := by
  refine forest.stays_modifyActivity (fun r found => ?_) k
  obtain rfl : a = r := Option.some.inj (held.symm.trans found)
  exact same

theorem stays_deliver (intent : Intent) (cookie : Option LaunchCookie) (k : NodeId) :
    Stays w.hierarchy (deliver w j intent cookie).hierarchy k := by
  rcases deliver_eq_or w j intent cookie with same | ⟨a, held, same⟩ <;> rw [same]
  · exact .refl w.hierarchy k
  · refine stays_put forest held ?_ _ k
    exact ⟨rfl, rfl, rfl⟩

theorem stays_leaveCookie (cookie : Option LaunchCookie) (k : NodeId) :
    Stays w.hierarchy
      (leaveCookie w cookie (w.hierarchy.topRunningActivity? j)).hierarchy k := by
  rcases leaveCookie_eq_or w cookie j with same | ⟨i, a, held, _, same⟩ <;> rw [same]
  · exact .refl w.hierarchy k
  · refine stays_put forest held ?_ _ k
    exact ⟨rfl, rfl, rfl⟩

end

/-- Where an intent has gone to a task as it is, every activity that is left has stayed. -/
theorem stays_of_landing (formed : h₀.WellFormed)
    (landing : Landing env r h₀ record goal w w' out result)
    (settles : result = .taskToFront ∨ result = .deliveredToTop) (k : NodeId) :
    Stays h₀ w'.hierarchy k := by
  cases landing with
  | failed _ fails => rcases settles with rfl | rfl <;> contradiction
  | added => rcases settles with same | same <;> contradiction
  | @delivered l h j moved _ _ _ arrived reuses =>
    obtain ⟨standing, cleared⟩ := reuses.cleared formed (congrArg Prod.fst arrived)
    refine ((reuses.stays formed k).trans (cleared k)).trans ?_
    exact (stays_deliver (w := { w with hierarchy := h }) standing.formed.forest ..).trans
      (stays_propagate ..)
  | @kept l h moved _ _ _ arrived reuses =>
    obtain ⟨standing, cleared⟩ := reuses.cleared formed (congrArg Prod.fst arrived)
    refine ((reuses.stays formed k).trans (cleared k)).trans ?_
    exact (stays_leaveCookie (w := { w with hierarchy := h }) standing.formed.forest ..).trans
      (stays_propagate ..)
  | @topped l _ found same =>
    rw [← same] at formed ⊢
    exact (stays_deliver formed.forest ..).trans (stays_propagate ..)

/-- A launch that comes to an end with success has added one activity or none. -/
theorem stays_or_added_of_landing (formed : h₀.WellFormed)
    (landing : Landing env r h₀ record goal w w' out result)
    (succeeds : result.isSuccessful = true) :
    (∀ k, Stays h₀ w'.hierarchy k) ∨
      ∃ (l : Launch) (after : Hierarchy) (k : NodeId), l.Of r h₀ ∧
        Lodging r h₀ record l goal w.hierarchy ∧
        w.hierarchy.addActivity goal record .top = .ok (after, k) ∧
        ∀ j, Stays after w'.hierarchy j := by
  by_cases settles : result = .taskToFront ∨ result = .deliveredToTop
  · exact .inl (stays_of_landing formed landing settles)
  cases landing with
  | failed _ fails =>
    rw [fails] at succeeds
    contradiction
  | @added l h h' k display chosen made front _ lodging =>
    refine .inr ⟨l, h, k, chosen, lodging, made, fun j => ?_⟩
    have raised : Stays h h' j := by
      rw [front]
      split
      · exact ((lodging.wellFormed formed).addActivity made).stays_moveTaskToFront goal j
      · exact .refl h j
    exact raised.trans (stays_propagate (w := { w with hierarchy := h' }) ..)
  | delivered | kept => exact absurd (by split <;> simp) settles
  | topped => exact absurd (.inr rfl) settles

/-- The end of a start: it fails and leaves every node as it was, or it lands. -/
inductive Ending (host : Host) (s t : Starter) (h₀ h : Hierarchy) :
    Except StartError StartResult → Prop
  | failed {outcome : Except StartError StartResult}
      (fails : ∀ result, outcome = .ok result → result.isSuccessful = false)
      (nodes : SameNodes h₀ h) : Ending host s t h₀ h outcome
  | landed {u v : World} {r : StartRequest} {uid : Uid} {info : ActivityInfo} {goal : NodeId}
      {result : StartResult} (admitted : Admitted host s.request r info h₀)
      (known : t.request.info = some info) (kept : Kept h₀ u.hierarchy)
      (landing : Landing host.environment r h₀ (r.newRecord uid info) goal u v t.outActivity result)
      (ends : h = v.hierarchy) (succeeds : result.isSuccessful = true) :
      Ending host s t h₀ h (.ok result)

theorem ending_execute {host : Host} {s t : Starter} {outcome : Except StartError StartResult}
    (formed : w.hierarchy.WellFormed) (ran : execute host s w = (t, w', outcome)) :
    Ending host s t w.hierarchy w'.hierarchy outcome := by
  rcases course_execute ran with ⟨_, rfl, _, rfl⟩ | ⟨result, rfl, course⟩
  · exact .failed (fun _ same => by contradiction) (.refl _)
  cases course with
  | refused asked _ fails =>
    rw [asked.hierarchy]
    exact .failed (fun _ same => Except.ok.inj same ▸ fails) (.refl _)
  | @placed _ w₁ _ r caller info admitted before after out known =>
    rw [← before.hierarchy] at formed ⊢
    cases succeeds : (place host r caller info w₁).2.isSuccessful with
    | false =>
      rw [after.hierarchy]
      exact .failed (fun _ same => Except.ok.inj same ▸ succeeds)
        (harmless_place formed succeeds).nodes
    | true =>
      obtain ⟨_, _, approaches, landing, _⟩ := (lands_place host r caller info w₁).exists_landing
      rw [← out] at landing
      exact .landed admitted known (kept_approaches approaches) landing after.hierarchy succeeds

theorem wellFormed_execute {host : Host} {s t : Starter}
    {outcome : Except StartError StartResult} (reached : Reachable w.hierarchy)
    (ran : execute host s w = (t, w', outcome)) : w'.hierarchy.WellFormed := by
  have steps : Steps true w (execute host s w).2.1 := steps_execute host s w
  rw [ran] at steps
  exact (steps.reached reached).wellFormed

theorem upshot_execute (reached : Reachable w.hierarchy) (host : Host) (s : Starter) :
    Upshot host s.request w.hierarchy (execute host s w).2.1.hierarchy := by
  have formed := reached.wellFormed
  rcases ran : execute host s w with ⟨t, w', outcome⟩
  cases ending_execute formed ran with
  | failed _ nodes => exact .still (nodes.stays formed.forest)
  | landed admitted _ _ landing ends succeeds =>
    rw [ends]
    rcases stays_or_added_of_landing formed landing succeeds with
      stays | ⟨l, _, _, chosen, lodging, made, later⟩
    · exact .still stays
    · exact .added admitted chosen lodging made later

end WindowHost.Start
