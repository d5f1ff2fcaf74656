import WindowHost.Proofs.Run.Acts
import WindowHost.Proofs.Run.Follow
import WindowHost.Proofs.Run.UpToDate
import WindowHost.Proofs.Visibility.News

/-! The resumed and the destroyed state in runs. A resumed activity that is not on its way out is
wanted on screen, a destroyed one stays destroyed, and only a change of the focus resumes an
activity. -/
namespace WindowHost
open Hierarchy Start
variable {silent : Bool} {w w' : World} {h h' h'' : Hierarchy} {k p display : NodeId}
  {r s : ActivityRecord} {calls : List Call}

theorem Touch.steady (touch : Touch silent k r s calls)
    (steady : r.state = .resumed → r.finishing = false → r.visibleRequested = true) :
    s.state = .resumed → s.finishing = false → s.visibleRequested = true := by
  cases touch with
  | see | configure | hear | start | deliver | mark => exact steady
  | want | restart | reveal | defer => exact fun _ _ => rfl
  | hide _ rests => exact fun up => absurd up rests.1
  | cancel | wake | hideAndStop | pause | stop => simp
  | resume _ wanted => exact fun _ _ => wanted

theorem Step.steady (step : Step silent w w') (steady : Steady w.hierarchy) :
    Steady w'.hierarchy := by
  cases step with
  | touch held touch => exact steady.put held (touch.steady (steady _ _ held)) _
  | ask asked => exact asked.hierarchy ▸ steady
  | reshape kept => exact fun k a held => steady k a (kept.activity k a held)
  | create added fresh =>
    intro k a held up lasts
    rw [activity?_addActivity added] at held
    split at held
    · cases held
      rw [fresh.state] at up
      contradiction
    · exact steady k a held up lasts

theorem Steps.steady (steps : Steps silent w w') (steady : Steady w.hierarchy) :
    Steady w'.hierarchy := by
  induction steps with
  | refl => exact steady
  | tail _ step ih => exact step.steady ih

theorem Touch.destroyed (touch : Touch silent k r s calls) (gone : r.state = .destroyed) :
    s.state = .destroyed := by
  cases touch with
  | see | configure | want | restart | hear | reveal | defer | hide | start | deliver | mark =>
    exact gone
  | cancel other | wake _ _ _ other | hideAndStop _ other | pause other | stop other =>
    simp [gone] at other
  | resume runs => simp [ActivityRecord.isRunning, gone] at runs

/-- The activity is destroyed, if it is there. -/
def Destroyed (a : Option ActivityRecord) (_ : List Call) : Prop :=
  ∀ r, a = some r → r.state = .destroyed

theorem follows_destroyed (silent : Bool) (k : NodeId) : Follows silent k Destroyed where
  touch r s calls later touch gone := by
    rintro _ ⟨⟩
    exact touch.destroyed (gone r rfl)
  aside a calls later _ gone := gone
  gone a later _ := by
    rintro r ⟨⟩

/-- Nothing is resumed in the second hierarchy that is not in the first one. -/
def ResumesNone (h h' : Hierarchy) : Prop :=
  ∀ k s, h'.activity? k = some s → s.state = .resumed →
    ∃ r, h.activity? k = some r ∧ r.state = .resumed

namespace ResumesNone

theorem refl (h : Hierarchy) : ResumesNone h h := fun _ s held up => ⟨s, held, up⟩

theorem trans (first : ResumesNone h h') (second : ResumesNone h' h'') : ResumesNone h h'' := by
  intro k s held up
  obtain ⟨r, between, up⟩ := second k s held up
  exact first k r between up

theorem of_kept (kept : Kept h h') : ResumesNone h h' :=
  fun k s held up => ⟨s, kept.activity k s held, up⟩

theorem put (held : w.hierarchy.activity? k = some r)
    (rests : s.state = .resumed → r.state = .resumed) (calls : List Call) :
    ResumesNone w.hierarchy (w.put k s calls).hierarchy := by
  intro j a found up
  rcases World.activity?_put_cases held found with ⟨rfl, rfl⟩ | ⟨_, before⟩
  · exact ⟨r, held, rests up⟩
  · exact ⟨a, before, up⟩

theorem addActivity {record : ActivityRecord}
    (added : h.addActivity p record .top = .ok (h', k)) (fresh : record.Fresh) :
    ResumesNone h h' := by
  intro j a held up
  rw [activity?_addActivity added] at held
  split at held
  · cases held
    rw [fresh.state] at up
    contradiction
  · exact ⟨a, held, up⟩

end ResumesNone

namespace Visibility
variable {locked : DisplayId → Bool} {q : VisibilityParams} {v : Verdict}

theorem Turn.resumed_makeActive (up : (Turn.makeActive k r).record.state = .resumed) :
    r.state = .resumed := by
  unfold Turn.makeActive at up
  split at up
  · contradiction
  · exact up

theorem Turn.resumed_hide (up : (Turn.hide k r).record.state = .resumed) :
    r.state = .resumed := by
  unfold Turn.hide at up
  split at up
  · dsimp only at up
    split at up
    · contradiction
    · exact up
  · exact up

theorem Verdict.resumed_note (up : (v.note r).state = .resumed) : r.state = .resumed := by
  unfold Verdict.note ActivityRecord.cancelInitializing at up
  dsimp only at up
  split at up
  · exact up
  split at up
  · contradiction
  · exact up

theorem Verdict.resumed_present (up : (v.present q r).record.state = .resumed) :
    r.state = .resumed := by
  rcases v.present_cases q r with same | ⟨_, same⟩ | ⟨_, same⟩ <;> rw [same] at up
  · unfold Turn.restart at up
    split at up
    · exact up
    split at up <;> exact up
  · unfold Turn.refresh at up
    split at up
    · exact Turn.resumed_makeActive up
    · exact up
  · unfold Turn.reveal at up
    split at up
    · exact up
    split at up
    · exact Turn.resumed_makeActive
        (r := { r with visibleRequested := true, clientVisibilityDeferred := false }) up
    · exact up

/-- A visit resumes no activity. -/
theorem Verdict.resumed_turn (up : (v.turn q r).record.state = .resumed) :
    r.state = .resumed := by
  unfold Verdict.turn at up
  split at up
  · split at up
    · exact Verdict.resumed_note up
    · exact Verdict.resumed_note (Verdict.resumed_present up)
  · exact Verdict.resumed_note (Turn.resumed_hide up)

theorem resumesNone_carryOut (vs : List Verdict) (w : World) :
    ResumesNone w.hierarchy (carryOut q w vs).hierarchy := by
  have single : ∀ (w : World) (v : Verdict),
      ResumesNone w.hierarchy (v.apply q w).hierarchy := by
    intro w v
    unfold Verdict.apply
    split
    · exact .put ‹_› Verdict.resumed_turn _
    · exact .refl _
  induction vs generalizing w with
  | nil => exact .refl _
  | cons v vs ih => exact (single w v).trans (ih _)

theorem resumesNone_updateContainer (w : World) (k : NodeId) :
    ResumesNone w.hierarchy (updateContainer locked q w k).1.hierarchy := by
  rw [updateContainer_world (.refl _) k]
  exact resumesNone_carryOut _ w

theorem resumesNone_updateEach {update : World → NodeId → World × ConfigChanges}
    (each : ∀ w k, ResumesNone w.hierarchy (update w k).1.hierarchy) (w : World)
    (ks : List NodeId) : ResumesNone w.hierarchy (updateEach update q w ks).1.hierarchy := by
  unfold updateEach
  generalize q.configChanges = changes
  induction ks generalizing w changes with
  | nil => exact .refl _
  | cons k ks ih => exact (each w k).trans (ih _ _)

theorem resumesNone_updateDisplay (w : World) (display : NodeId) :
    ResumesNone w.hierarchy (updateDisplay locked q w display).1.hierarchy :=
  resumesNone_updateEach resumesNone_updateContainer w _

theorem resumesNone_updateAll (w : World) :
    ResumesNone w.hierarchy (updateAll locked q w).1.hierarchy :=
  resumesNone_updateEach resumesNone_updateDisplay w _

theorem resumesNone_foldl_yieldFocus (ks : List NodeId) (w : World) :
    ResumesNone w.hierarchy (ks.foldl yieldFocus w).hierarchy := by
  have single : ∀ (w : World) k, ResumesNone w.hierarchy (yieldFocus w k).hierarchy := by
    intro w k
    cases held : w.hierarchy.activity? k with
    | none =>
      rw [yieldFocus_of_absent held]
      exact .refl _
    | some r =>
      rw [yieldFocus_eq_put held]
      refine .put held (fun up => ?_) _
      unfold Turn.yieldFocus at up
      split at up
      · assumption
      · exact up
  induction ks generalizing w with
  | nil => exact .refl _
  | cons k ks ih => exact (single w k).trans (ih _)

/-- An activity that is there, is wanted on screen, runs and has its process. -/
def Ready (h : Hierarchy) (k : NodeId) : Prop :=
  ∃ r, h.activity? k = some r ∧ r.attached = true ∧ r.visibleRequested = true ∧ r.isRunning = true

/-- A change of the focus resumes nothing but the activity that is to have it, and that one only
when it is ready. -/
theorem ready_of_resumeFocused (held : (resumeFocused w display).1.hierarchy.activity? k = some s)
    (up : s.state = .resumed) :
    (∃ r, w.hierarchy.activity? k = some r ∧ r.state = .resumed) ∨ Ready w.hierarchy k := by
  cases focus : focusOf? w.hierarchy display with
  | none =>
    rw [resumeFocused_of_none focus] at held
    exact .inl ⟨s, held, up⟩
  | some top =>
    obtain ⟨r, found, runs⟩ := isRunning_of_focusOf? focus
    let rest := rivals w.hierarchy display top
    have yielded := resumesNone_foldl_yieldFocus rest w
    have kept : (rest.foldl yieldFocus w).hierarchy.activity? top = some r :=
      (activity?_foldl_yieldFocus (not_mem_rivals w.hierarchy display top) w).trans found
    rw [resumeFocused_of_some focus found] at held
    split at held
    · rename_i wanted
      by_cases here : k = top
      · subst here
        cases hosted : r.attached with
        | true => exact .inr ⟨r, found, hosted, wanted, runs⟩
        | false =>
          rw [World.activity?_put kept, Option.some.injEq] at held
          have same : (Turn.takeFocus k r).record.state = r.state := by
            unfold Turn.takeFocus
            simp only [hosted, Bool.false_eq_true, if_false]
            split <;> rfl
          exact .inl ⟨r, found, by rw [← same, held, up]⟩
      · rw [World.activity?_put_of_ne here] at held
        exact .inl (yielded k s held up)
    · exact .inl (yielded k s held up)

end Visibility

namespace Start
open Visibility

theorem resumesNone_opening (opening : Opening w w') : ResumesNone w.hierarchy w'.hierarchy := by
  cases opening with
  | ask asked => exact asked.hierarchy ▸ .refl _
  | reshape kept => exact .of_kept kept
  | create added fresh => exact .addActivity added fresh
  | deliver held | mark held =>
    refine .put held ?_ _
    exact id

theorem resumesNone_openings (openings : Openings w w') :
    ResumesNone w.hierarchy w'.hierarchy := by
  induction openings with
  | refl => exact .refl _
  | tail _ opening ih => exact ih.trans (resumesNone_opening opening)

/-- A start resumes nothing, or nothing before a change of the focus with which it ends. -/
theorem exists_resumeFocused_of_execute (host : Host) (s : Starter) (w : World) :
    ResumesNone w.hierarchy (execute host s w).2.1.hierarchy ∨ ∃ u display,
      ResumesNone w.hierarchy u.hierarchy ∧
        Asked (resumeFocused u display).1 (execute host s w).2.1 := by
  obtain whole | ⟨u, display, starting, first, after, _⟩ := exists_propagate_of_execute host s w
  · exact .inl (resumesNone_openings whole)
  · rw [propagate_eq] at after
    exact .inr ⟨_, display,
      (resumesNone_openings first).trans (resumesNone_updateDisplay u display), after⟩

end Start

/-- One thing that a host does, or has an activity do. -/
inductive Deed where
  | act (act : Act)
  | finish (k : NodeId)

namespace World

def deed (w : World) : Deed → World
  | .act act => w.act act
  | .finish k => w.modifyActivity k ActivityRecord.finish

def afterDeeds (w : World) (deeds : List Deed) : World := deeds.foldl deed w

end World

/-- The focus of a display changes in the world `v`, on its own or as the last part of a start.
What a start does before that resumes nothing, and after it the start only asks and reports. -/
inductive Deed.ChangesFocus (u : World) : Deed → World → NodeId → Prop where
  | resume (display : NodeId) : ChangesFocus u (.act (.resumeFocused display)) u display
  | start {host : Host} {starter : Starter} {v : World} {display : NodeId}
      (before : ResumesNone u.hierarchy v.hierarchy)
      (after : Asked (Visibility.resumeFocused v display).1 (Start.execute host starter u).2.1) :
      ChangesFocus u (.act (.start host starter)) v display

theorem Start.Steady.deed (steady : Steady w.hierarchy) (deed : Deed) :
    Steady (w.deed deed).hierarchy := by
  cases deed with
  | act act =>
    have steps : Steps true w (w.act act) := steps_act w fun _ => rfl
    exact steps.steady steady
  | finish k =>
    intro j a held up lasts
    change (w.hierarchy.modifyActivity k ActivityRecord.finish).activity? j = some a at held
    rw [activity?_modifyActivity] at held
    split at held
    · obtain ⟨r, before, rfl⟩ := Option.map_eq_some_iff.mp held
      unfold ActivityRecord.finish at lasts
      split at lasts
      · simp_all
      · contradiction
    · exact steady j a held up lasts

theorem Start.Steady.afterDeeds (steady : Steady w.hierarchy) (deeds : List Deed) :
    Steady (w.afterDeeds deeds).hierarchy := by
  induction deeds generalizing w with
  | nil => exact steady
  | cons deed deeds ih => exact ih (steady.deed deed)

theorem Followed.deed {P : Option ActivityRecord → List Call → Prop} {before : List Call}
    (follows : Follows true k P)
    (finishes : ∀ r later, P (some r) later → P (some r.finish) later)
    (followed : Followed k P before w) (deed : Deed) : Followed k P before (w.deed deed) := by
  cases deed with
  | act act =>
    have steps : Steps true w (w.act act) := steps_act w fun _ => rfl
    exact follows.followed steps followed
  | finish j =>
    obtain ⟨issued, later, made, known⟩ := followed
    refine ⟨Nat.lt_of_lt_of_eq issued (Arena.next_modify ..).symm, later, made, ?_⟩
    change P ((w.hierarchy.modifyActivity j ActivityRecord.finish).activity? k) later
    rw [activity?_modifyActivity]
    split
    · cases held : w.hierarchy.activity? k <;> rw [held] at known
      · exact known
      · exact finishes _ later known
    · exact known

theorem Followed.afterDeeds {P : Option ActivityRecord → List Call → Prop} {before : List Call}
    (follows : Follows true k P)
    (finishes : ∀ r later, P (some r) later → P (some r.finish) later)
    (followed : Followed k P before w) (deeds : List Deed) :
    Followed k P before (w.afterDeeds deeds) := by
  induction deeds generalizing w with
  | nil => exact followed
  | cons deed deeds ih => exact ih (followed.deed follows finishes deed)

theorem ActivityRecord.state_finish (r : ActivityRecord) : r.finish.state = r.state := by
  unfold finish
  split <;> rfl

/-- Whatever a deed resumes it resumes with a change of the focus, and it is ready then. -/
theorem exists_changesFocus_of_resumed (w : World) (deed : Deed)
    (held : (w.deed deed).hierarchy.activity? k = some s) (up : s.state = .resumed)
    (rested : ∀ r, w.hierarchy.activity? k = some r → r.state ≠ .resumed) :
    ∃ v display, deed.ChangesFocus w v display ∧ Visibility.Ready v.hierarchy k := by
  have stays {v : World} (none : ResumesNone w.hierarchy v.hierarchy) :
      ¬ ∃ r, v.hierarchy.activity? k = some r ∧ r.state = .resumed := by
    rintro ⟨r, found, up⟩
    obtain ⟨t, before, risen⟩ := none k r found up
    exact rested t before risen
  have quiet : ¬ ResumesNone w.hierarchy (w.deed deed).hierarchy :=
    fun none => stays none ⟨s, held, up⟩
  cases deed with
  | finish j =>
    refine absurd ?_ quiet
    intro i a found risen
    change (w.hierarchy.modifyActivity j ActivityRecord.finish).activity? i = some a at found
    rw [activity?_modifyActivity] at found
    split at found
    · obtain ⟨r, before, rfl⟩ := Option.map_eq_some_iff.mp found
      exact ⟨r, before, r.state_finish ▸ risen⟩
    · exact ⟨a, found, risen⟩
  | act act =>
    cases act with
    | updateContainer => exact absurd (Visibility.resumesNone_updateContainer w _) quiet
    | updateDisplay => exact absurd (Visibility.resumesNone_updateDisplay w _) quiet
    | updateAll => exact absurd (Visibility.resumesNone_updateAll w) quiet
    | resumeFocused display =>
      exact ⟨w, display, .resume display,
        (Visibility.ready_of_resumeFocused held up).resolve_left (stays (.refl _))⟩
    | start host starter =>
      obtain none | ⟨v, display, none, after⟩ :=
        Start.exists_resumeFocused_of_execute host starter w
      · exact absurd none quiet
      · change (Start.execute host starter w).2.1.hierarchy.activity? k = some s at held
        rw [after.hierarchy] at held
        exact ⟨v, display, .start none after,
          (Visibility.ready_of_resumeFocused held up).resolve_left (stays none)⟩

/-- In any run of passes, changes of the focus, starts and ends of activities, every resumed
activity is finishing or wanted on screen, a destroyed one stays destroyed, and what a deed resumes
it resumes with a change of the focus, for which the activity was ready. -/
theorem resumed_afterDeeds (steady : Steady w.hierarchy) (deeds : List Deed) :
    let u := w.afterDeeds deeds
    (∀ k a, u.hierarchy.activity? k = some a → a.state = .resumed →
      a.finishing = true ∨ a.visibleRequested = true) ∧
    (∀ more k a b, u.hierarchy.activity? k = some a → a.state = .destroyed →
      (u.afterDeeds more).hierarchy.activity? k = some b → b.state = .destroyed) ∧
    ∀ deed k b, (u.deed deed).hierarchy.activity? k = some b → b.state = .resumed →
      (∀ a, u.hierarchy.activity? k = some a → a.state ≠ .resumed) →
        ∃ v display, deed.ChangesFocus u v display ∧ Visibility.Ready v.hierarchy k := by
  intro u
  refine ⟨fun k a held up => ?_, fun more k a b held gone found => ?_,
    fun deed k b held up rested => exists_changesFocus_of_resumed u deed held up rested⟩
  · cases lasts : a.finishing with
    | true => exact .inl rfl
    | false => exact .inr (steady.afterDeeds deeds k a held up lasts)
  · have known : Destroyed (u.hierarchy.activity? k) [] := by
      rw [held]
      rintro _ ⟨⟩
      exact gone
    have followed : Followed k Destroyed u.calls u :=
      ⟨index_lt_next (contains_of_activity? held), [], (List.append_nil _).symm, known⟩
    have finishes : ∀ r later, Destroyed (some r) later → Destroyed (some r.finish) later := by
      rintro r later gone _ ⟨⟩
      rw [r.state_finish]
      exact gone r rfl
    obtain ⟨_, _, _, stays⟩ := followed.afterDeeds (follows_destroyed true k) finishes more
    exact stays b found

/-- The inbox finishes while it is resumed, below an activity that is destroyed and stays so. The
list below them has been shown by a pass, and the next change of the focus resumes it. -/
theorem resumed_afterDeeds_of_list :
    let record (name : String) : ActivityRecord :=
      { ActivityRecord.create { component := ⟨"mail", name⟩, uid := ⟨10010⟩ } {} with
        state := .stopped, attached := true }
    let inbox := { record "Inbox" with state := .resumed, visibleRequested := true }
    let gone := { record "Gone" with state := .destroyed }
    let h := ([.addDisplay ⟨0⟩ ⟨0, 0, 1920, 1080⟩, .createRootTask ⟨2⟩ .fullscreen .standard .top,
      .addActivity ⟨3⟩ (record "List") .top, .addActivity ⟨3⟩ inbox .top,
      .addActivity ⟨3⟩ gone .top] : List Mutation).foldl mutate empty
    let u := World.afterDeeds { hierarchy := h }
      [.finish ⟨5⟩, .act (.updateDisplay (fun _ => false) {} ⟨1⟩)]
    let deed : Deed := .act (.resumeFocused ⟨1⟩)
    (∃ a, u.hierarchy.activity? ⟨5⟩ = some a ∧ a.state = .resumed ∧ a.visibleRequested = false ∧
        a.finishing = true) ∧
      (∃ b, (u.afterDeeds [deed]).hierarchy.activity? ⟨6⟩ = some b ∧ b.state = .destroyed) ∧
      (∃ b, (u.deed deed).hierarchy.activity? ⟨4⟩ = some b ∧ b.state = .resumed) ∧
      ∃ v display, deed.ChangesFocus u v display ∧ Visibility.Ready v.hierarchy ⟨4⟩ := by
  intro record inbox gone h u deed
  have steady : Steady ({ hierarchy := h } : World).hierarchy :=
    forall_activity_of_lt_next (by decide +kernel)
  have finished : u.hierarchy.activity? ⟨5⟩ = some inbox.finish := by decide +kernel
  have below : u.hierarchy.activity? ⟨4⟩ = some { record "List" with
      state := .paused, visibleRequested := true, visibleIgnoringKeyguard := true } := by
    decide +kernel
  have above : u.hierarchy.activity? ⟨6⟩ = some gone := by decide +kernel
  have still : (u.afterDeeds [deed]).hierarchy.activity? ⟨6⟩ = some gone := by decide +kernel
  have risen : (u.deed deed).hierarchy.activity? ⟨4⟩ = some { record "List" with
      state := .resumed, visibleRequested := true, visibleIgnoringKeyguard := true } := by
    decide +kernel
  obtain ⟨wanted, destroyed, changes⟩ := resumed_afterDeeds (w := { hierarchy := h }) steady
    [.finish ⟨5⟩, .act (.updateDisplay (fun _ => false) {} ⟨1⟩)]
  refine ⟨⟨_, finished, rfl, rfl, ?_⟩, ⟨_, still, ?_⟩, ⟨_, risen, rfl⟩, ?_⟩
  · exact (wanted _ _ finished rfl).resolve_right (by decide)
  · exact destroyed [deed] _ _ _ above rfl still
  · refine changes deed _ _ risen rfl fun a held => ?_
    rw [below, Option.some.injEq] at held
    rw [← held]
    decide

end WindowHost
