import WindowHost.Proofs.Visibility.Settled

/-! A pass is its verdicts, carried out one after the other. What a walk finds depends on nothing
that its visits write, so it can be found in advance, on the hierarchy as it was before the pass. -/
namespace WindowHost.Visibility
open Hierarchy
variable {locked : DisplayId → Bool} {c : Container} {s : Walk} {w w' : World} {k : NodeId}
  {r : ActivityRecord} {p : VisibilityParams} {counts : NodeId → Bool}

/-- The verdict on an activity that a walk comes to. -/
def Walk.judge (c : Container) (s : Walk) (k : NodeId) (r : ActivityRecord) : Verdict where
  activity := k
  uncovered := !s.occluded || r.launchTaskBehind
  admitted := c.shouldBeVisible && (!c.keyguardLocked || r.info.showWhenLocked)
  isTop := c.top == some k
  resumes := c.resumesTop && c.top == some k
  changes := s.configChanges

/-- How far a walk is after a visit, the world aside. -/
def Walk.pass (c : Container) (s : Walk) (k : NodeId) (r : ActivityRecord) : Walk :=
  let v := s.judge c k r
  let s :=
    { s with aboveTop := false, occluded := if v.uncovered then r.occludesParent else s.occluded }
  if v.visible then
    if r.finishing then s
    else Walk.closeHome c { s with configChanges := s.configChanges.union r.configChangeFlags } k
  else s.closeHome c k

/-- The walk over a container's children without its visits: how far it comes, and its verdicts in
order. The world stays the one that the walk starts from. -/
def survey (locked : DisplayId → Bool) (c : Container) (s : Walk) : Layers → Walk × List Verdict
  | .nil => (s, [])
  | .node k inside below =>
    let h := s.world.hierarchy
    let (next, here) :=
      if h.isFragmentLike k then
        if h.hasRunningActivity k then
          let nested := Container.look locked c.params h k
          let (inner, verdicts) := survey locked nested (nested.begin s.world s.occluded) inside
          (s.leave c k inner, verdicts)
        else (s, [])
      else
        match h.activity? k with
        | some r =>
          if s.aboveTop && c.top != some k then (s, []) else (s.pass c k r, [s.judge c k r])
        | none => (s, [])
    let (last, later) := survey locked c next below
    (last, here ++ later)

/-- Carries out verdicts in order. -/
def carryOut (p : VisibilityParams) (w : World) (verdicts : List Verdict) : World :=
  verdicts.foldl (Verdict.apply p) w

theorem sameView_put {t : ActivityRecord} {calls : List Call}
    (held : w.hierarchy.activity? k = some r) (same : t.still = r.still) :
    SameView w.hierarchy (w.put k t calls).hierarchy := by
  apply sameView_modifyActivity
  intro r' found
  rw [held, Option.some.injEq] at found
  rw [← found, same]

theorem sameView_apply (w : World) (v : Verdict) :
    SameView w.hierarchy (v.apply p w).hierarchy := by
  unfold Verdict.apply
  split
  · exact sameView_put ‹_› Verdict.still_turn
  · exact .refl _

theorem sameView_carryOut (verdicts : List Verdict) (w : World) :
    SameView w.hierarchy (carryOut p w verdicts).hierarchy := by
  induction verdicts generalizing w with
  | nil => exact .refl _
  | cons v rest ih => exact (sameView_apply w v).trans (ih _)

theorem present_eq (held : s.world.hierarchy.activity? k = some r) {v : Verdict}
    (activity : v.activity = k) (isTop : v.isTop = (c.top == some k))
    (resumes : v.resumes = (c.resumesTop && c.top == some k))
    (changes : v.changes = s.configChanges) :
    s.present c k =
      { s with
        world := s.world.put k (v.present c.params r).record
          (v.told c.params ++ (v.present c.params r).calls)
        configChanges := s.configChanges.union r.configChangeFlags } := by
  have heard : (if c.params.notifyClients && c.params.starting != some k then
      s.world.send k (.configuration c.params.preserveWindows) else s.world) =
        s.world.put k r (v.told c.params) := by
    unfold Verdict.told
    rw [activity]
    split
    · exact World.emit_eq_put held _
    · simp [World.put_self held]
  have found := World.activity?_put held r (v.told c.params)
  have stepped : (if !r.attached then
      restart c.params s.configChanges (c.top == some k) (c.resumesTop && c.top == some k)
        (s.world.put k r (v.told c.params)) k
      else if r.visibleRequested then refresh c.params (s.world.put k r (v.told c.params)) k
      else reveal c.params (s.world.put k r (v.told c.params)) k) =
        s.world.put k (v.present c.params r).record
          (v.told c.params ++ (v.present c.params r).calls) := by
    unfold Verdict.present
    rw [activity, isTop, resumes, changes]
    split
    · rw [restart_eq_put found, World.put_put]
    split
    · rw [refresh_eq_put found, World.put_put]
    · rw [reveal_eq_put found, World.put_put]
  have kept : base (v.present c.params r).record = base r := Verdict.base_present
  have flags : (v.present c.params r).record.configChangeFlags = r.configChangeFlags :=
    (congrArg ActivityRecord.configChangeFlags kept :)
  unfold Walk.present
  simp only [heard, activityHas_of_activity? found, stepped, World.activity?_put held,
    Option.map_some, Option.getD_some, flags]

theorem closeHome_world (same : SameSight counts s.world.hierarchy w.hierarchy) :
    Walk.closeHome c { s with world := w } k = { s.closeHome c k with world := w } := by
  simp only [Walk.closeHome, same.isRootOfTask]
  split <;> rfl

theorem visitActivity_of_activity? (held : s.world.hierarchy.activity? k = some r)
    (met : (s.aboveTop && c.top != some k) = false) :
    s.visitActivity c k =
      let v := s.judge c k r
      let t :=
        { s with
          world := s.world.modifyActivity k v.note
          aboveTop := false
          occluded := if v.uncovered then r.occludesParent else s.occluded }
      if v.visible then if r.finishing then t else (t.present c k).closeHome c k
      else Walk.closeHome c { t with world := hide t.world k } k := by
  have visible : (s.judge c k r).visible = ((!s.occluded || r.launchTaskBehind) &&
      c.shouldBeVisible && (!c.keyguardLocked || r.info.showWhenLocked)) :=
    (Bool.and_assoc ..).symm
  unfold Walk.visitActivity
  rw [if_neg (by simp [met])]
  simp only [held, visible]
  rfl

theorem visitActivity_eq (same : SameView s.world.hierarchy w.hierarchy)
    (held : w.hierarchy.activity? k = some r)
    (met : (s.aboveTop && c.top != some k) = false) :
    Walk.visitActivity c { s with world := w } k =
      { s.pass c k r with world := (s.judge c k r).apply c.params w } := by
  let v := s.judge c k r
  let t : Walk :=
    { s with aboveTop := false, occluded := if v.uncovered then r.occludesParent else s.occluded }
  have noted : w.modifyActivity k v.note = w.put k (v.note r) [] :=
    World.modifyActivity_eq_put held _
  have found := World.activity?_put held (v.note r) []
  have applied : v.apply c.params w =
      w.put k (v.turn c.params r).record (v.turn c.params r).calls := by
    simp only [Verdict.apply, show v.activity = k from rfl, held]
  have sameNoted : SameView s.world.hierarchy (v.apply c.params w).hierarchy :=
    same.trans (sameView_apply w v)
  refine (visitActivity_of_activity? (s := { s with world := w }) held met).trans ?_
  change (if v.visible then if r.finishing then { t with world := w.modifyActivity k v.note } else
      (Walk.present c { t with world := w.modifyActivity k v.note } k).closeHome c k
    else Walk.closeHome c { t with world := hide (w.modifyActivity k v.note) k } k) = _
  have kept : (v.note r).still = r.still := Verdict.still_note
  have flags : (v.note r).configChangeFlags = r.configChangeFlags :=
    (congrArg ActivityRecord.configChangeFlags kept :)
  have passed : s.pass c k r = if v.visible then if r.finishing then t else Walk.closeHome c
      { t with configChanges := s.configChanges.union r.configChangeFlags } k
    else t.closeHome c k := rfl
  rw [noted, passed, applied] at *
  by_cases visible : v.visible = true
  · by_cases ends : r.finishing = true
    · simp only [Verdict.turn, if_pos visible, if_pos ends]
    · simp only [Verdict.turn, if_pos visible, if_neg ends] at sameNoted ⊢
      rw [present_eq (s := { t with world := w.put k (v.note r) [] }) (v := v)
        found rfl rfl rfl rfl]
      simp only [World.put_put, List.nil_append, flags]
      exact closeHome_world
        (s := { t with configChanges := s.configChanges.union r.configChangeFlags }) sameNoted
  · simp only [Verdict.turn, if_neg visible] at sameNoted ⊢
    simp only [hide_eq_put found, World.put_put, List.nil_append]
    exact closeHome_world (s := t) sameNoted

section
variable {r' : ActivityRecord} {seen : Bool} (same : r'.sight seen = r.sight seen)
include same

theorem judge_congr : s.judge c k r' = s.judge c k r := by
  have behind : r'.launchTaskBehind = r.launchTaskBehind :=
    ActivityRecord.eq_of_sight (fun _ => rfl) (fun _ => rfl) same
  have locked : r'.info.showWhenLocked = r.info.showWhenLocked :=
    ActivityRecord.eq_of_sight (g := (·.info.showWhenLocked)) (fun _ => rfl) (fun _ => rfl) same
  simp only [Walk.judge, behind, locked]

theorem pass_congr
    (covers : (s.judge c k r).uncovered = true → r'.occludesParent = r.occludesParent) :
    s.pass c k r' = s.pass c k r := by
  have finishing : r'.finishing = r.finishing :=
    ActivityRecord.eq_of_sight (fun _ => rfl) (fun _ => rfl) same
  have flags : r'.configChangeFlags = r.configChangeFlags :=
    ActivityRecord.eq_of_sight (fun _ => rfl) (fun _ => rfl) same
  have flag : (if (s.judge c k r).uncovered then r'.occludesParent else s.occluded) =
      if (s.judge c k r).uncovered then r.occludesParent else s.occluded := by
    split
    · exact covers ‹_›
    · rfl
  simp only [Walk.pass, judge_congr same, flag, finishing, flags]

end

/-- What a visit leaves: it sets the flag, and may close the root task of a home activity. -/
theorem pass_induct {motive : Walk → Prop}
    (flag : ∀ changes, motive { s with
      aboveTop := false
      occluded := if (s.judge c k r).uncovered then r.occludesParent else s.occluded
      configChanges := changes })
    (close : ∀ t : Walk, motive t → motive (t.closeHome c k)) : motive (s.pass c k r) := by
  unfold Walk.pass
  dsimp only
  split
  · split
    · exact flag s.configChanges
    · exact close _ (flag _)
  · exact close _ (flag s.configChanges)

/-- A visit in another world comes as far, if closing a home root task does. -/
theorem pass_of_closeHome {c' : Container}
    (uncovered : (Walk.judge c' { s with world := w } k r).uncovered = (s.judge c k r).uncovered)
    (visible : (Walk.judge c' { s with world := w } k r).visible = (s.judge c k r).visible)
    (closes : ∀ t : Walk, t.world = s.world →
      Walk.closeHome c' { t with world := w } k = { t.closeHome c k with world := w }) :
    Walk.pass c' { s with world := w } k r = { s.pass c k r with world := w } := by
  let next : Walk :=
    { s with aboveTop := false,
             occluded := if (s.judge c k r).uncovered then r.occludesParent else s.occluded }
  simp only [Walk.pass, uncovered, visible]
  split
  · split
    · rfl
    · exact closes { next with configChanges := s.configChanges.union r.configChangeFlags } rfl
  · exact closes next rfl

theorem leave_world {inner : Walk} (same : SameSight counts inner.world.hierarchy w'.hierarchy)
    (counted : ∀ j, c.params.starting = some j → counts j = true) :
    Walk.leave c { s with world := w } k { inner with world := w' } =
      { s.leave c k inner with world := w' } := by
  simp only [Walk.leave, same.bounds, same.isTranslucent counted, same.isDescendantOf,
    same.adjacent?]
  split
  · rfl
  split <;> rfl

theorem world_leave (s inner : Walk) : (s.leave c k inner).world = inner.world := by
  unfold Walk.leave
  dsimp only
  split
  · rfl
  split <;> rfl

theorem world_closeHome (s : Walk) : (s.closeHome c k).world = s.world := by
  unfold Walk.closeHome
  split <;> rfl

theorem world_pass (s : Walk) : (s.pass c k r).world = s.world :=
  pass_induct (motive := fun t => t.world = s.world) (fun _ => rfl)
    fun t kept => (world_closeHome t).trans kept

theorem world_survey (L : Layers) :
    ∀ (c : Container) (s : Walk), (survey locked c s L).1.world = s.world := by
  induction L with
  | nil => exact fun _ _ => rfl
  | node k inside below inner rest =>
    intro c s
    rw [survey]
    dsimp only
    refine (rest _ _).trans ?_
    split
    · split
      · exact (world_leave ..).trans (inner ..)
      · rfl
    split
    · split
      · rfl
      · exact world_pass s
    · rfl

theorem carryOut_append (w : World) (first second : List Verdict) :
    carryOut p w (first ++ second) = carryOut p (carryOut p w first) second :=
  List.foldl_append

theorem leave_carryOut {inner : Walk} (same : SameView s.world.hierarchy w.hierarchy)
    (kept : inner.world = s.world) {verdicts : List Verdict} :
    Walk.leave c { s with world := w } k { inner with world := carryOut p w verdicts } =
      { s.leave c k inner with world := carryOut p w verdicts } := by
  have further : SameView inner.world.hierarchy (carryOut p w verdicts).hierarchy :=
    kept ▸ same.trans (sameView_carryOut verdicts w)
  exact leave_world further fun _ _ => rfl

/-- A walk comes as far as its survey does, and leaves the world that its verdicts make. -/
theorem run_eq_survey (locked : DisplayId → Bool) (L : Layers) :
    ∀ (c : Container) (s : Walk) (w : World), SameView s.world.hierarchy w.hierarchy →
      Walk.run locked c { s with world := w } L =
        { (survey locked c s L).1 with
          world := carryOut c.params w (survey locked c s L).2 } := by
  induction L with
  | nil => exact fun _ _ _ _ => rfl
  | node k inside below inner rest =>
    intro c s w same
    -- once the node itself is done, what lies below it goes on from there
    have further : ∀ (t : Walk) (here : List Verdict), t.world = s.world →
        Walk.run locked c { t with world := carryOut c.params w here } below =
          { (survey locked c t below).1 with
            world := carryOut c.params w (here ++ (survey locked c t below).2) } := by
      intro t here kept
      rw [carryOut_append]
      exact rest c t _ (kept ▸ same.trans (sameView_carryOut here w))
    rw [Walk.run, survey]
    simp only [same.isFragmentLike, same.hasRunningActivity, same.isActivity]
    split
    · split
      · let nested := Container.look locked c.params s.world.hierarchy k
        let found := survey locked nested (nested.begin s.world s.occluded) inside
        have walked := inner nested (nested.begin s.world s.occluded) w same
        have kept : found.1.world = s.world := world_survey ..
        rw [same.look]
        refine (congrArg (Walk.run locked c · below) ?_).trans
          (further (s.leave c k found.1) found.2 ((world_leave ..).trans kept))
        exact (congrArg (Walk.leave c { s with world := w } k) walked).trans
          (leave_carryOut same kept)
      · exact further s [] rfl
    · cases found : s.world.hierarchy.activity? k with
      | none =>
        have idle : s.world.hierarchy.isActivity k = false := by simp [isActivity, found]
        rw [if_neg (by simp [idle])]
        exact further s [] rfl
      | some r =>
        have lives : s.world.hierarchy.isActivity k = true := by simp [isActivity, found]
        rw [if_pos lives]
        dsimp only
        split
        · rename_i above
          have skipped : Walk.visitActivity c { s with world := w } k = { s with world := w } :=
            if_pos above
          rw [skipped]
          exact further s [] rfl
        · rename_i met
          obtain ⟨r', held, kept⟩ := same.exists_activity? found
          have alike : r'.sight true = r.sight true := kept
          have covers : r'.occludesParent = r.occludesParent :=
            (congrArg ActivityRecord.occludesParent kept :)
          rw [visitActivity_eq same held (Bool.eq_false_iff.mpr met),
            pass_congr alike fun _ => covers, judge_congr alike]
          exact further (s.pass c k r) [s.judge c k r] (world_pass s)

end WindowHost.Visibility
