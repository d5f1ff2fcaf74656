import WindowHost.Proofs.Run.Steps

/-! One activity in a run. What every touch of it keeps, and no other call disturbs, holds after
every run, also once the activity is gone. -/
namespace WindowHost
open Hierarchy
variable {silent : Bool} {w w' : World} {k : NodeId} {before : List Call}
  {P : Option ActivityRecord → List Call → Prop}

/-- The call has the client of this activity do something. -/
def Call.Reaches (k : NodeId) (call : Call) : Prop :=
  call.reachesClient = true ∧ call.activity? = some k

/-- What is known of an activity and of the calls since then, and stays known. -/
structure Follows (silent : Bool) (k : NodeId) (P : Option ActivityRecord → List Call → Prop) :
    Prop where
  touch : ∀ r s calls later, Touch silent k r s calls → P (some r) later →
    P (some s) (later ++ calls)
  aside : ∀ a calls later, (∀ call ∈ calls, ¬ call.Reaches k) → P a later → P a (later ++ calls)
  gone : ∀ a later, P a later → P none later

/-- The key of the activity is taken for good. -/
structure Followed (k : NodeId) (P : Option ActivityRecord → List Call → Prop)
    (before : List Call) (w : World) : Prop where
  issued : k.index < w.hierarchy.nodes.next
  exists_later : ∃ later, w.calls = before ++ later ∧ P (w.hierarchy.activity? k) later

theorem Follows.step (follows : Follows silent k P) (followed : Followed k P before w)
    (step : Step silent w w') : Followed k P before w' := by
  obtain ⟨issued, later, made, known⟩ := followed
  cases step with
  | @touch j r s calls held touch =>
    refine ⟨Nat.lt_of_lt_of_eq issued (Arena.next_modify ..).symm, later ++ calls, ?_, ?_⟩
    · rw [World.put, made, List.append_assoc]
    · by_cases same : k = j
      · subst same
        rw [World.activity?_put held]
        exact follows.touch _ _ _ _ touch (held ▸ known)
      · rw [World.activity?_put_of_ne same]
        refine follows.aside _ _ _ (fun call member reaches => same ?_) known
        exact Option.some.inj (reaches.2.symm.trans (touch.activity?_of_mem member))
  | ask asked =>
    obtain ⟨same, more, told, quiet⟩ := asked
    refine ⟨same ▸ issued, later ++ more, by rw [told, made, List.append_assoc], ?_⟩
    rw [same]
    refine follows.aside _ _ _ (fun call member reaches => ?_) known
    exact absurd reaches.1 (by simp [quiet call member])
  | @reshape h kept =>
    refine ⟨Nat.lt_of_lt_of_le issued kept.next, later, made, ?_⟩
    dsimp only
    cases found : h.activity? k with
    | none => exact follows.gone _ _ known
    | some r => rwa [kept.activity k r found] at known
  | @create h _ j record added _ =>
    obtain ⟨grown, fresh⟩ := addActivity_eq_ok_iff.mp added
    have next := next_insertUnder grown
    refine ⟨by dsimp only; omega, later, made, ?_⟩
    have other : k ≠ j := by
      rintro rfl
      rw [← fresh] at issued
      exact Nat.lt_irrefl _ issued
    dsimp only
    rwa [activity?_addActivity added, if_neg other]

theorem Follows.followed (follows : Follows silent k P) (steps : Steps silent w w')
    (followed : Followed k P before w) : Followed k P before w' := by
  induction steps with
  | refl => exact followed
  | tail _ step ih => exact follows.step ih step

theorem Follows.steps (follows : Follows silent k P) (steps : Steps silent w w')
    (live : w.hierarchy.contains k = true) (known : P (w.hierarchy.activity? k) []) :
    ∃ later, w'.calls = w.calls ++ later ∧ P (w'.hierarchy.activity? k) later :=
  (follows.followed steps
    ⟨index_lt_next live, [], (List.append_nil _).symm, known⟩).exists_later

end WindowHost
