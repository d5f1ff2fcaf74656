import WindowHost.Proofs.Visibility.Containers
import WindowHost.Proofs.Visibility.Focus
import WindowHost.Proofs.Visibility.News

/-! Requests for processes. A pass asks for the process of an activity that has none whenever it
shows one that is at the top of its container, was not wanted on screen before or is still to begin.
Below the top, one that is wanted and has begun is left alone. -/
namespace WindowHost
open Hierarchy Visibility
variable {w : World} {h h' : Hierarchy} {k : NodeId} {r : ActivityRecord}
  {p : VisibilityParams} {v : Verdict} {vs : List Verdict}

/-- The call asks for the process of this activity. -/
def Call.asksFor (k : NodeId) : Call → Bool
  | .startProcess j _ _ => j == k
  | _ => false

/-- How often the process of an activity has been asked for so far. -/
def World.requests (w : World) (k : NodeId) : Nat := w.calls.countP (Call.asksFor k)

/-- The activity is the top running one of the node that it lies in. -/
def Hierarchy.isForemost (h : Hierarchy) (k : NodeId) : Bool :=
  (h.parent? k).any fun p => h.topRunningActivity? p == some k

theorem World.requests_put (w : World) (j : NodeId) (r : ActivityRecord) (calls : List Call)
    (k : NodeId) : (w.put j r calls).requests k = w.requests k + calls.countP (Call.asksFor k) :=
  List.countP_append

namespace Visibility

/-- The verdict has the process of the activity asked for. -/
structure Verdict.Asks (p : VisibilityParams) (v : Verdict) (r : ActivityRecord) : Prop where
  lasts : r.finishing = false
  apart : p.starting ≠ some v.activity
  opens : v.isTop = true ∨ r.visibleRequested = false ∨ r.state = .initializing
  wanted : (v.turn p r).record.visibleRequested = true
  noted : (v.turn p r).record.restarting = true

theorem Turn.countP_makeActive (j : NodeId) :
    (Turn.makeActive j r).calls.countP (Call.asksFor k) = 0 := by
  refine List.countP_eq_zero.mpr fun call made => ?_
  rw [Turn.calls_makeActive made]
  simp [Call.asksFor]

theorem Turn.countP_hide (j : NodeId) : (Turn.hide j r).calls.countP (Call.asksFor k) = 0 := by
  unfold Turn.hide
  split
  · dsimp only
    split <;> rfl
  · rfl

theorem Verdict.countP_told : (v.told p).countP (Call.asksFor k) = 0 := by
  unfold Verdict.told
  split <;> rfl

theorem Verdict.countP_present_of_attached (hosted : r.attached = true) :
    (v.present p r).calls.countP (Call.asksFor k) = 0 := by
  unfold Verdict.present
  rw [if_neg (by simp [hosted])]
  split
  · unfold Turn.refresh
    split
    · exact Turn.countP_makeActive _
    · rfl
  · unfold Turn.reveal
    split
    · rfl
    split
    · exact Turn.countP_makeActive _
    · rfl

theorem Verdict.note_of_uncovered (uncovered : v.uncovered = true) :
    v.note r = { r with visibleIgnoringKeyguard := true } := by
  simp [Verdict.note, uncovered]

/-- A restart that asks for the process shows the activity and notes that. -/
theorem Turn.restart_of_asked {changes : ConfigChanges} {isTop andResume : Bool} {j : NodeId}
    (asked : (Turn.restart p changes isTop andResume j r).calls.countP (Call.asksFor k) ≠ 0) :
    j = k ∧ p.starting ≠ some j ∧
      (isTop = true ∨ r.visibleRequested = false ∨ r.state = .initializing) ∧
      Turn.restart p changes isTop andResume j r =
        ⟨{ r.startFreezingScreen changes with visibleRequested := true, restarting := true },
          [.startProcess j andResume true]⟩ := by
  unfold Turn.restart at asked ⊢
  split at asked
  · exact absurd rfl asked
  split at asked
  · exact absurd rfl asked
  rename_i opens apart
  rw [if_neg opens, if_neg apart]
  refine ⟨by simpa [Call.asksFor] using asked, apart, ?_, rfl⟩
  cases top : isTop with
  | true => exact .inl rfl
  | false =>
    cases wanted : r.visibleRequested with
    | false => exact .inr (.inl rfl)
    | true => exact .inr (.inr (by simpa [top, wanted] using opens))

/-- A visit asks once at most. -/
theorem Verdict.asks_of_turn (asked : (v.turn p r).calls.countP (Call.asksFor k) ≠ 0) :
    v.activity = k ∧ (v.turn p r).calls.countP (Call.asksFor k) = 1 ∧ v.Asks p r := by
  by_cases visible : v.visible = true
  · by_cases ends : r.finishing = true
    · simp [Verdict.turn, visible, ends] at asked
    have noted := Verdict.note_of_uncovered (r := r) ((Bool.and_eq_true ..).mp visible).1
    have turned : v.turn p r = { v.present p (v.note r) with
        calls := v.told p ++ (v.present p (v.note r)).calls } := by
      simp [Verdict.turn, visible, ends]
    have count : (v.turn p r).calls.countP (Call.asksFor k) =
        (v.present p (v.note r)).calls.countP (Call.asksFor k) := by
      rw [turned, List.countP_append, Verdict.countP_told, Nat.zero_add]
    rw [count] at asked ⊢
    cases hosted : (v.note r).attached with
    | true => exact absurd (Verdict.countP_present_of_attached hosted) asked
    | false =>
      have restarted : v.present p (v.note r) =
          Turn.restart p v.changes v.isTop v.resumes v.activity (v.note r) :=
        if_pos (by simp [hosted])
      rw [restarted] at asked turned ⊢
      obtain ⟨same, apart, opens, asking⟩ := Turn.restart_of_asked asked
      rw [asking] at turned ⊢
      rw [noted] at opens
      refine ⟨same, by simp [Call.asksFor, same], by simpa using ends, apart, opens, ?_, ?_⟩
      · rw [turned]
      · rw [turned]
  · simp [Verdict.turn, visible, Turn.countP_hide] at asked

/-- A pass asks once at most for the process of an activity. -/
theorem requests_carryOut (nodup : (vs.map Verdict.activity).Nodup) (w : World) :
    (carryOut p w vs).requests k = w.requests k ∨
      (carryOut p w vs).requests k = w.requests k + 1 ∧
        ∃ v ∈ vs, v.activity = k ∧ ∃ r, w.hierarchy.activity? k = some r ∧ v.Asks p r := by
  induction vs generalizing w with
  | nil => exact .inl rfl
  | cons v rest ih =>
    obtain ⟨single, nodup⟩ := List.nodup_cons.mp nodup
    have later := ih nodup (v.apply p w)
    have first : (v.apply p w).requests k = w.requests k ∨
        (v.apply p w).requests k = w.requests k + 1 ∧ v.activity = k ∧
          ∃ r, w.hierarchy.activity? k = some r ∧ v.Asks p r := by
      unfold Verdict.apply
      split
      · rename_i r held
        rw [World.requests_put]
        by_cases asked : (v.turn p r).calls.countP (Call.asksFor k) = 0
        · exact .inl (by rw [asked, Nat.add_zero])
        · obtain ⟨same, once, asks⟩ := Verdict.asks_of_turn asked
          exact .inr ⟨by rw [once], same, r, same ▸ held, asks⟩
      · exact .inl rfl
    change (carryOut p (v.apply p w) rest).requests k = _ ∨
      (carryOut p (v.apply p w) rest).requests k = _ ∧ _
    obtain none | ⟨once, same, r, held, asks⟩ := first
    · rw [none] at later
      refine later.imp_right fun ⟨once, u, member, same, r, held, asks⟩ => ⟨once, u,
        List.mem_cons_of_mem _ member, same, r, ?_, asks⟩
      have other : k ≠ v.activity := by
        rintro rfl
        exact single (same ▸ List.mem_map_of_mem member)
      rwa [activity?_apply_of_ne other] at held
    · -- Nothing further comes to the activity.
      obtain none | ⟨_, u, member, again, _⟩ := later
      · exact .inr ⟨none.trans once, v, List.mem_cons_self, same, r, held, asks⟩
      · subst same
        exact absurd (again ▸ List.mem_map_of_mem member) single

theorem requests_foldl_yieldFocus (ks : List NodeId) (w : World) :
    (ks.foldl yieldFocus w).requests k = w.requests k := by
  induction ks generalizing w with
  | nil => rfl
  | cons j ks ih =>
    refine (ih _).trans ?_
    cases held : w.hierarchy.activity? j with
    | none => rw [yieldFocus_of_absent held]
    | some r =>
      rw [yieldFocus_eq_put held, World.requests_put]
      unfold Turn.yieldFocus
      split
      · split <;> rfl
      · rfl

theorem isForemost_of_mem_verdicts {locked : DisplayId → Bool} {a : NodeId} (forest : Forest h)
    (member : v ∈ verdicts locked p h a) (top : v.isTop = true) :
    h.isForemost v.activity = true := by
  obtain ⟨C, s, r, placed, _, same⟩ := exists_judge_of_mem_verdicts forest member
  rw [same] at top
  simp only [isForemost, placed, Option.any_some]
  exact top

end Visibility

theorem Hierarchy.SameView.isForemost (same : SameView h h') (k : NodeId) :
    h'.isForemost k = h.isForemost k := by
  simp only [Hierarchy.isForemost, same.parent?, same.topRunningActivity?]

end WindowHost
