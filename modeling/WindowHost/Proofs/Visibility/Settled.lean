import WindowHost.Proofs.Visibility.Visit

/-! A second visit with the same verdict finds nothing left to do: the record stays as it is, and
besides the news of the configuration only the process is asked for again. -/
namespace WindowHost

/-- The call may be made again by a pass that has nothing left to do. -/
def Call.recurs : Call → Bool
  | .startProcess .. | .transaction _ (.configuration _) => true
  | _ => false

theorem Flags.union_union_self {κ : Type} (s t : Flags κ) : (s.union t).union t = s.union t := by
  simp [Flags.union, UInt32.or_assoc]

namespace Visibility
variable {p : VisibilityParams} {v : Verdict} {k : NodeId} {r : ActivityRecord}

/-- The record without what the steps of a visit may write. -/
def base (r : ActivityRecord) : ActivityRecord :=
  { r with
    state := if r.state = .destroyed then .destroyed else .stopped
    visibleRequested := false
    clientVisibilityDeferred := false
    restarting := false
    frozenConfigChanges := none }

theorem Turn.base_makeActive : base (Turn.makeActive k r).record = base r := by
  unfold Turn.makeActive
  split
  · simp_all [base]
  · rfl

theorem Turn.base_reveal : base (Turn.reveal p k r).record = base r := by
  unfold Turn.reveal
  split
  · rfl
  split
  · exact Turn.base_makeActive
  · rfl

theorem Turn.base_refresh : base (Turn.refresh p k r).record = base r := by
  unfold Turn.refresh
  split
  · exact Turn.base_makeActive
  · rfl

theorem Turn.base_hide : base (Turn.hide k r).record = base r := by
  unfold Turn.hide
  split
  · dsimp only
    split
    · rename_i shown
      rcases shown with same | same <;> simp [base, same]
    · rfl
  · rfl

theorem Turn.base_restart {changes : ConfigChanges} {isTop andResume : Bool} :
    base (Turn.restart p changes isTop andResume k r).record = base r := by
  unfold Turn.restart
  split
  · rfl
  split <;> rfl

theorem Verdict.base_present : base (v.present p r).record = base r := by
  unfold Verdict.present
  split
  · exact Turn.base_restart
  split
  · exact Turn.base_refresh
  · exact Turn.base_reveal

theorem still_eq_of_base {r' : ActivityRecord} (same : base r' = base r) : r'.still = r.still :=
  congrArg (fun b : ActivityRecord => { b with visibleIgnoringKeyguard := false }) same

theorem Verdict.still_note : (v.note r).still = r.still := by
  unfold Verdict.note
  dsimp only
  split
  · rfl
  · unfold ActivityRecord.cancelInitializing
    split <;> simp_all [ActivityRecord.still]

theorem Verdict.seen_note : (v.note r).visibleIgnoringKeyguard = v.uncovered := by
  unfold Verdict.note
  dsimp only
  split
  · rfl
  · unfold ActivityRecord.cancelInitializing
    split <;> rfl

theorem Verdict.visibleRequested_note : (v.note r).visibleRequested = r.visibleRequested := by
  unfold Verdict.note ActivityRecord.cancelInitializing
  dsimp only
  split
  · rfl
  split <;> rfl

theorem Verdict.base_turn : base (v.turn p r).record = base (v.note r) := by
  unfold Verdict.turn
  split
  · split
    · rfl
    · exact Verdict.base_present
  · exact Turn.base_hide

/-- No question of a pass is answered otherwise after a visit. -/
theorem Verdict.still_turn : (v.turn p r).record.still = r.still :=
  (still_eq_of_base Verdict.base_turn).trans Verdict.still_note

/-- A visit leaves in the record whether anything hid the activity. -/
theorem Verdict.seen_turn : (v.turn p r).record.visibleIgnoringKeyguard = v.uncovered :=
  (congrArg ActivityRecord.visibleIgnoringKeyguard Verdict.base_turn).trans Verdict.seen_note

/-- An activity that was made active is not asleep. -/
theorem Turn.awake_makeActive : ((Turn.makeActive k r).record.visibleRequested &&
    (Turn.makeActive k r).record.state == .stopped) = false := by
  by_cases sleeps : (r.visibleRequested && r.state == .stopped) = true
  · simp [Turn.makeActive, sleeps]
  · rw [Turn.makeActive, if_neg sleeps]
    exact Bool.eq_false_iff.mpr sleeps

theorem Turn.visibleRequested_makeActive :
    (Turn.makeActive k r).record.visibleRequested = r.visibleRequested := by
  unfold Turn.makeActive
  split <;> rfl

theorem Turn.visibleRequested_hide : (Turn.hide k r).record.visibleRequested = false := by
  unfold Turn.hide
  split
  · dsimp only
    split <;> rfl
  · rename_i absent
    simpa using absent

theorem Turn.hide_twice :
    Turn.hide k (Turn.hide k r).record = { record := (Turn.hide k r).record } := by
  have hidden : (Turn.hide k r).record.visibleRequested = false := Turn.visibleRequested_hide
  generalize Turn.hide k r = t at hidden
  simp [Turn.hide, hidden]

theorem Turn.restart_twice {changes : ConfigChanges} {isTop andResume : Bool} :
    (Turn.restart p changes isTop andResume k
      (Turn.restart p changes isTop andResume k r).record).record =
        (Turn.restart p changes isTop andResume k r).record := by
  by_cases stays : (!isTop && r.visibleRequested && r.state != .initializing) = true
  · simp [Turn.restart, stays]
  by_cases starts : p.starting = some k
  · have written : Turn.restart p changes isTop andResume k r =
        { record := { r with visibleRequested := true } } := by
      simp [Turn.restart, stays, starts]
    rw [written, Turn.restart]
    split <;> rfl
  · have written : (Turn.restart p changes isTop andResume k r).record =
        { r.startFreezingScreen changes with visibleRequested := true, restarting := true } := by
      simp [Turn.restart, stays, starts]
    rw [written, Turn.restart]
    split
    · rfl
    · simp [ActivityRecord.startFreezingScreen, Flags.union_union_self]

theorem Turn.recurs_restart {changes : ConfigChanges} {isTop andResume : Bool} :
    ∀ call ∈ (Turn.restart p changes isTop andResume k r).calls, call.recurs = true := by
  unfold Turn.restart
  split
  · simp
  split <;> simp [Call.recurs]

theorem Turn.visibleRequested_refresh :
    (Turn.refresh p k r).record.visibleRequested = r.visibleRequested := by
  unfold Turn.refresh
  split
  · exact Turn.visibleRequested_makeActive
  · rfl

theorem Turn.refresh_eq_self (awake : (r.visibleRequested && r.state == .stopped) = false)
    (heard : r.clientVisibilityDeferred = false) : Turn.refresh p k r = { record := r } := by
  have idle : Turn.makeActive k r = { record := r } := by simp [Turn.makeActive, awake]
  have same : { r with clientVisibilityDeferred := false } = r := by rw [← heard]
  unfold Turn.refresh
  split
  · rw [idle]
    exact congrArg (fun r => ({ record := r } : Turn)) same
  · rfl

theorem Turn.refresh_twice :
    Turn.refresh p k (Turn.refresh p k r).record = { record := (Turn.refresh p k r).record } := by
  by_cases notifies : p.notifyClients = true
  · have written : (Turn.refresh p k r).record =
        { (Turn.makeActive k r).record with clientVisibilityDeferred := false } := by
      simp [Turn.refresh, notifies]
    rw [written]
    exact Turn.refresh_eq_self Turn.awake_makeActive rfl
  · simp [Turn.refresh, notifies]

/-- An activity that is revealed is either shown by other means, or it is up to date. -/
theorem Turn.reveal_cases (k : NodeId) (r : ActivityRecord) :
    Turn.reveal p k r = { record := r } ∨ (Turn.reveal p k r).record.visibleRequested = true ∧
      Turn.refresh p k (Turn.reveal p k r).record = { record := (Turn.reveal p k r).record } := by
  by_cases aside : (p.starting = some k || r.state == .resumed) = true
  · exact .inl (by simp only [Turn.reveal, if_pos aside])
  by_cases notifies : p.notifyClients = true
  · let shown := { r with visibleRequested := true, clientVisibilityDeferred := false }
    have written : (Turn.reveal p k r).record = (Turn.makeActive k shown).record := by
      simp only [Turn.reveal, if_neg aside, if_pos notifies, shown]
    have heard : (Turn.makeActive k shown).record.clientVisibilityDeferred = false := by
      unfold Turn.makeActive
      split <;> rfl
    rw [written]
    exact .inr ⟨Turn.visibleRequested_makeActive,
      Turn.refresh_eq_self Turn.awake_makeActive heard⟩
  · have written : (Turn.reveal p k r).record =
        { r with visibleRequested := true, clientVisibilityDeferred := true } := by
      simp only [Turn.reveal, if_neg aside, if_neg notifies]
    rw [written]
    exact .inr ⟨rfl, by simp [Turn.refresh, notifies]⟩

/-- A visit with this verdict leaves the record as it is, and makes no call that counts. -/
structure Settled (p : VisibilityParams) (v : Verdict) (r : ActivityRecord) : Prop where
  record : (v.turn p r).record = r
  calls : ∀ call ∈ (v.turn p r).calls, call.recurs = true

theorem Verdict.present_twice :
    (v.present p (v.present p r).record).record = (v.present p r).record ∧
      ∀ call ∈ (v.present p (v.present p r).record).calls, call.recurs = true := by
  have kept : base (v.present p r).record = base r := Verdict.base_present
  have attached : (v.present p r).record.attached = r.attached :=
    (congrArg ActivityRecord.attached kept :)
  by_cases hosted : r.attached = true
  · rw [hosted] at attached
    by_cases wanted : r.visibleRequested = true
    · have first : v.present p r = Turn.refresh p v.activity r := by
        simp [Verdict.present, hosted, wanted]
      rw [first] at attached ⊢
      have still : (Turn.refresh p v.activity r).record.visibleRequested = true :=
        Turn.visibleRequested_refresh.trans wanted
      simp [Verdict.present, attached, still, Turn.refresh_twice]
    · have first : v.present p r = Turn.reveal p v.activity r := by
        simp [Verdict.present, hosted, wanted]
      rw [first] at attached ⊢
      rcases Turn.reveal_cases (p := p) v.activity r with same | ⟨shown, done⟩
      · rw [same]
        simp [Verdict.present, hosted, wanted, same]
      · simp [Verdict.present, attached, shown, done]
  · have first : v.present p r =
        Turn.restart p v.changes v.isTop v.resumes v.activity r := by
      simp [Verdict.present, hosted]
    rw [first, Bool.eq_false_iff.mpr hosted] at attached
    rw [first]
    simp only [Verdict.present, attached, Bool.not_false, if_true]
    exact ⟨Turn.restart_twice, Turn.recurs_restart⟩

theorem Verdict.note_eq_self (seen : r.visibleIgnoringKeyguard = v.uncovered)
    (begun : v.uncovered = false → r.state ≠ .initializing) : v.note r = r := by
  cases covered : v.uncovered with
  | true => simp [Verdict.note, covered, ← seen.trans covered]
  | false => simp [Verdict.note, covered, ← seen.trans covered,
      ActivityRecord.cancelInitializing, begun covered]

theorem Turn.begun_hide (begun : r.state ≠ .initializing) :
    (Turn.hide k r).record.state ≠ .initializing := by
  unfold Turn.hide
  split
  · dsimp only
    split
    · simp
    · exact begun
  · exact begun

theorem Verdict.begun_note (covered : v.uncovered = false) :
    (v.note r).state ≠ .initializing := by
  simp only [Verdict.note, covered, Bool.false_eq_true, if_false]
  unfold ActivityRecord.cancelInitializing
  split
  · simp
  · assumption

/-- After one visit the same visit has nothing left to do. -/
theorem settled_turn : Settled p v (v.turn p r).record := by
  have kept := Verdict.still_turn (p := p) (v := v) (r := r)
  have seen := Verdict.seen_turn (p := p) (v := v) (r := r)
  by_cases visible : v.visible = true
  · have uncovered : v.uncovered = true := by
      simp only [Verdict.visible, Bool.and_eq_true] at visible
      exact visible.1
    have exempt : ∀ {r : ActivityRecord}, v.uncovered = false → r.state ≠ .initializing := by
      simp [uncovered]
    by_cases ends : r.finishing = true
    · have written : (v.turn p r).record = v.note r := by simp [Verdict.turn, visible, ends]
      rw [written] at kept seen ⊢
      have again : (v.note r).finishing = true :=
        (congrArg ActivityRecord.finishing kept).trans ends
      constructor
      · simp [Verdict.turn, visible, again, Verdict.note_eq_self seen exempt]
      · simp [Verdict.turn, visible, again]
    · have written : (v.turn p r).record = (v.present p (v.note r)).record := by
        simp [Verdict.turn, visible, ends]
      rw [written] at kept seen ⊢
      have again : (v.present p (v.note r)).record.finishing = false :=
        (congrArg ActivityRecord.finishing kept).trans (Bool.eq_false_iff.mpr ends)
      have noted := Verdict.note_eq_self seen exempt
      obtain ⟨same, recurring⟩ := Verdict.present_twice (p := p) (v := v) (r := v.note r)
      constructor
      · simp [Verdict.turn, visible, again, noted, same]
      · intro call member
        simp only [Verdict.turn, visible, again, noted] at member
        rcases List.mem_append.mp member with news | rest
        · unfold Verdict.told at news
          split at news <;> simp_all [Call.recurs]
        · exact recurring call rest
  · have written : (v.turn p r).record = (Turn.hide v.activity (v.note r)).record := by
      simp [Verdict.turn, visible]
    rw [written] at seen ⊢
    have noted := Verdict.note_eq_self seen fun covered =>
      Turn.begun_hide (Verdict.begun_note covered)
    constructor
    · simp [Verdict.turn, visible, noted, Turn.hide_twice]
    · simp [Verdict.turn, visible, noted, Turn.hide_twice]

end Visibility
end WindowHost
