import WindowHost.Proofs.Run.Delivery
import WindowHost.Proofs.Start.Clearance

/-! What a start adds to the activities and takes from them. It adds one exactly if it succeeds,
takes those that it clears from the task that it reuses, and hands its intent to none but the one
that it ends at. -/
namespace WindowHost.Start
open Hierarchy
variable {w w' : World} {env : Environment} {h h' h₀ : Hierarchy} {given r : StartRequest}
  {l : Launch} {record a b : ActivityRecord} {j k goal task : NodeId} {host : Host}
  {s t : Starter} {out : Option NodeId} {result : StartResult}
  {outcome : Except StartError StartResult}

theorem isActivity_deliver (w : World) (k : NodeId) (intent : Intent)
    (cookie : Option LaunchCookie) :
    (deliver w k intent cookie).hierarchy.isActivity j = w.hierarchy.isActivity j :=
  isActivity_congr ((sameFrame_deliver w k intent cookie).tag j)

theorem isActivity_leaveCookie (w : World) (cookie : Option LaunchCookie) (top : Option NodeId) :
    (leaveCookie w cookie top).hierarchy.isActivity j = w.hierarchy.isActivity j :=
  isActivity_congr ((sameFrame_leaveCookie w cookie top).tag j)

theorem isActivity_propagate (env : Environment) (w : World) (display : NodeId)
    (starting : Option NodeId) :
    (propagate env w display starting).hierarchy.isActivity j = w.hierarchy.isActivity j :=
  isActivity_congr ((sameFrame_propagate env w display starting).tag j)

/-- What a launch with success has come to, told by the activities that are there afterwards: all
that were there before and are not cleared, and a new one or none. -/
inductive Census (r : StartRequest) (h₀ : Hierarchy) (record : ActivityRecord) (h' : Hierarchy) :
    Option NodeId → StartResult → Prop where
  | added {k : NodeId} (fresh : h₀.contains k = false)
      (counts : ∀ j, h'.isActivity j = true ↔
        j = k ∨ h₀.isActivity j = true ∧ ¬ Lost r h₀ record j) :
      Census r h₀ record h' (some k) .success
  | settled {k : NodeId} {a : ActivityRecord} {result : StartResult}
      (delivered : result = .taskToFront ∨ result = .deliveredToTop)
      (held : h₀.activity? k = some a) (runs : a.isRunning = true)
      (counts : ∀ j, h'.isActivity j = true ↔ h₀.isActivity j = true ∧ ¬ Lost r h₀ record j) :
      Census r h₀ record h' (some k) result

theorem delivered_of_moved (moved : Bool) {result : StartResult}
    (same : result = if moved then .taskToFront else .deliveredToTop) :
    result = .taskToFront ∨ result = .deliveredToTop := by
  cases moved
  · exact .inr same
  · exact .inl same

theorem census_of_landing (applied : r.intent.flags = given.effectiveFlags h₀ record.info)
    (formed : h₀.WellFormed) (kept : Kept h₀ w.hierarchy)
    (landing : Landing env r h₀ record goal w w' out result)
    (succeeds : result.isSuccessful = true) : Census r h₀ record w'.hierarchy out result := by
  cases landing with
  | failed _ fails =>
    rw [fails] at succeeds
    contradiction
  | @added l h h' k display chosen made front _ lodging =>
    obtain ⟨_, fresh⟩ := addActivity_eq_ok_iff.mp made
    refine .added (fresh ▸ kept.not_contains_nextId) fun j => ?_
    have raised : h'.isActivity j = h.isActivity j := by
      rw [front]
      split
      · exact isActivity_congr (tag?_moveTaskToFront h goal j)
      · rfl
    rw [isActivity_propagate, raised, ← lodging.isActivity_iff chosen applied formed, isActivity,
      activity?_addActivity made]
    by_cases new : j = k <;> simp [new, isActivity]
  | @delivered l h k moved chosen _ _ arrived reuses =>
    obtain ⟨a, held, runs⟩ := exists_running_of_arrive arrived
    refine .settled (delivered_of_moved moved rfl) (kept.activity k a held) runs fun j => ?_
    rw [isActivity_propagate, isActivity_deliver]
    exact reuses.isActivity_iff chosen applied formed (congrArg Prod.fst arrived)
  | @kept l h moved chosen _ _ arrived reuses =>
    obtain rfl := arrive_keep arrived
    obtain ⟨k, a, top, held, runs⟩ := reuses.exists_topRunningActivity? formed
    have counts : ∀ display j, (propagate env (leaveCookie w l.cookie
          (w.hierarchy.topRunningActivity? goal)) display none).hierarchy.isActivity j = true ↔
        h₀.isActivity j = true ∧ ¬ Lost r h₀ record j := by
      intro display j
      rw [isActivity_propagate, isActivity_leaveCookie]
      exact reuses.isActivity_iff chosen applied formed (congrArg Prod.fst arrived)
    rw [top] at counts ⊢
    exact .settled (delivered_of_moved moved rfl) held runs (counts _)
  | @topped l _ found same idle =>
    rw [same] at found
    obtain ⟨a, held, runs⟩ := exists_running_of_deliverableTop? found
    refine .settled (.inr rfl) held runs fun j => ?_
    rw [isActivity_propagate, isActivity_deliver, same]
    exact (and_iff_left (not_lost_of_idle idle)).symm

/-- An activity that was no node before. -/
def Created (h h' : Hierarchy) (k : NodeId) : Prop :=
  h'.isActivity k = true ∧ h.contains k = false

/-- What a start does to the activities, by its outcome. -/
structure Tally (given : StartRequest) (h h' : Hierarchy) (s : Starter)
    (outcome : Except StartError StartResult) : Prop where
  created : outcome = .ok .success ↔ ∃! k, Created h h' k
  ended : outcome = .ok .success → ∀ k, Created h h' k → s.outActivity = some k
  settled : outcome = .ok .taskToFront ∨ outcome = .ok .deliveredToTop →
    (∀ k, ¬ Created h h' k) ∧
      ∃ k a, s.outActivity = some k ∧ h.activity? k = some a ∧ a.isRunning = true
  /-- An activity hears of no new intent, or the start ends at it and it hears of one. -/
  told : ∀ k a b, h.activity? k = some a → h'.activity? k = some b →
    b.newIntents = a.newIntents ∨
      (outcome = .ok .taskToFront ∨ outcome = .ok .deliveredToTop) ∧ s.outActivity = some k ∧
        ∃ intent, b.newIntents = a.newIntents ++ [intent]
  /-- What goes is cleared from the task that is reused, once the start succeeds. -/
  gone : ∀ k, h.isActivity k = true → (h'.isActivity k = false ↔
    (∃ result, outcome = .ok result ∧ result.isSuccessful = true) ∧
      ∃ info task, s.request.info = some info ∧ taskToReuse? given h info = some task ∧
        k ∈ evicted h (given.effectiveFlags h info) info task)

theorem not_created_of_isActivity (was : h.isActivity k = true) : ¬ Created h h' k := by
  rintro ⟨_, fresh⟩
  obtain ⟨a, held⟩ := Option.isSome_iff_exists.mp was
  rw [contains_of_activity? held] at fresh
  contradiction

namespace Census
variable (census : Census r h record h' out result)
include census

theorem success_iff : result = .success ↔ ∃! k, Created h h' k := by
  cases census with
  | @added k fresh counts =>
    refine iff_of_true rfl ⟨k, ⟨(counts k).mpr (.inl rfl), fresh⟩, fun j created => ?_⟩
    rcases (counts j).mp created.1 with same | ⟨was, _⟩
    · exact same
    · exact absurd created (not_created_of_isActivity was)
  | settled delivered _ _ counts =>
    refine iff_of_false ?_ ?_
    · rcases delivered with rfl | rfl <;> decide
    · rintro ⟨k, created, _⟩
      exact not_created_of_isActivity ((counts k).mp created.1).1 created

theorem of_delivered (delivered : result = .taskToFront ∨ result = .deliveredToTop) :
    (∀ k, ¬ Created h h' k) ∧
      ∃ k a, out = some k ∧ h.activity? k = some a ∧ a.isRunning = true := by
  cases census with
  | added => rcases delivered with same | same <;> contradiction
  | @settled k a _ _ held runs counts =>
    refine ⟨fun j created => ?_, k, a, rfl, held, runs⟩
    exact not_created_of_isActivity ((counts j).mp created.1).1 created

theorem ends_of_created (created : Created h h' k) : out = some k := by
  cases census with
  | added fresh counts =>
    rcases (counts k).mp created.1 with rfl | ⟨was, _⟩
    · rfl
    · exact absurd created (not_created_of_isActivity was)
  | settled _ _ _ counts =>
    exact absurd created (not_created_of_isActivity ((counts k).mp created.1).1)

theorem gone_iff (was : h.isActivity k = true) : h'.isActivity k = false ↔ Lost r h record k := by
  cases census with
  | @added new fresh counts =>
    have other : k ≠ new := by
      rintro rfl
      obtain ⟨a, held⟩ := Option.isSome_iff_exists.mp was
      rw [contains_of_activity? held] at fresh
      contradiction
    rw [← Bool.not_eq_true, counts, was]
    simp [other]
  | settled _ _ _ counts =>
    rw [← Bool.not_eq_true, counts, was]
    simp

end Census

/-- A start that does not succeed makes, tells and takes nobody. -/
theorem tally_of_fails (fails : ∀ result, outcome = .ok result → result.isSuccessful = false)
    (nodes : SameNodes h h') : Tally given h h' s outcome := by
  have unsuccessful : ∀ result, result.isSuccessful = true → outcome ≠ .ok result := by
    rintro result succeeds same
    rw [fails result same] at succeeds
    contradiction
  have same : ∀ k, h'.activity? k = h.activity? k := fun k => activity?_of_data? (nodes.data? k)
  have still : ∀ k, h'.isActivity k = h.isActivity k := fun k => congrArg Option.isSome (same k)
  refine ⟨⟨fun ended => ?_, ?_⟩, fun ended => ?_, ?_, fun k a b held held' => ?_, fun k was => ?_⟩
  · exact absurd ended (unsuccessful .success rfl)
  · rintro ⟨k, created, _⟩
    exact absurd created (not_created_of_isActivity (still k ▸ created.1))
  · exact absurd ended (unsuccessful .success rfl)
  · rintro (ended | ended)
    · exact absurd ended (unsuccessful .taskToFront rfl)
    · exact absurd ended (unsuccessful .deliveredToTop rfl)
  · rw [same, held, Option.some.injEq] at held'
    exact .inl (congrArg ActivityRecord.newIntents held').symm
  · rw [still, was]
    refine iff_of_false (by decide) ?_
    rintro ⟨⟨result, ended, succeeds⟩, _⟩
    exact unsuccessful result succeeds ended

theorem tally_of_landing {uid : Uid} {info : ActivityInfo}
    (admitted : Admitted host given r info h₀) (formed : h₀.WellFormed)
    (kept : Kept h₀ w.hierarchy) (known : s.request.info = some info)
    (landing : Landing env r h₀ (r.newRecord uid info) goal w w' s.outActivity result)
    (succeeds : result.isSuccessful = true) : Tally given h₀ w'.hierarchy s (.ok result) := by
  have census := census_of_landing admitted.flags formed kept landing succeeds
  refine ⟨?_, ?_, ?_, fun k a b held held' => ?_, fun k was => ?_⟩
  · rw [Except.ok.injEq]
    exact census.success_iff
  · exact fun _ k created => census.ends_of_created created
  · rw [Except.ok.injEq, Except.ok.injEq]
    exact census.of_delivered
  · rcases unheard_or_handed_of_landing (contains_of_activity? held) kept landing with
      unheard | handed
    · exact .inl (unheard.newIntents held held')
    · rw [Except.ok.injEq, Except.ok.injEq]
      exact .inr ⟨handed.delivered, handed.ended, _, handed.once a b held held'⟩
  · rw [census.gone_iff was, Lost, admitted.taskToReuse?, admitted.flags]
    constructor
    · rintro ⟨task, reused, member⟩
      exact ⟨⟨_, rfl, succeeds⟩, info, task, known, reused, member⟩
    · rintro ⟨_, info', task, known', reused, member⟩
      obtain rfl : info = info' := Option.some.inj (known.symm.trans known')
      exact ⟨task, reused, member⟩

/-- A start adds an activity exactly if it succeeds, tells none but the one that it ends at, and
takes those that it is told to clear. -/
theorem tally_execute (reached : Reachable w.hierarchy)
    (ran : execute host s w = (t, w', outcome)) :
    Tally s.request w.hierarchy w'.hierarchy t outcome := by
  rcases course_execute ran with ⟨_, rfl, e, rfl⟩ | ⟨result, rfl, course⟩
  · exact tally_of_fails (by simp) (.refl w'.hierarchy)
  cases course with
  | refused asked _ fails =>
    rw [asked.hierarchy]
    refine tally_of_fails ?_ (.refl w.hierarchy)
    rintro _ ⟨⟩
    exact fails
  | @placed _ w₁ _ r caller info admitted before after out known =>
    have formed : w₁.hierarchy.WellFormed := before.hierarchy ▸ reached.wellFormed
    rw [← before.hierarchy, after.hierarchy]
    cases succeeds : (place host r caller info w₁).2.isSuccessful with
    | false =>
      refine tally_of_fails ?_ (harmless_place formed succeeds).nodes
      rintro _ ⟨⟩
      exact succeeds
    | true =>
      obtain ⟨_, _, approaches, landing, _⟩ := (lands_place host r caller info w₁).exists_landing
      rw [← out] at landing
      exact tally_of_landing admitted formed (kept_approaches approaches) known landing succeeds

/-- The inbox lies between the list and a draft. Started again from outside it is replaced, the
draft above it goes, and the list below it stays. -/
theorem tally_execute_of_clearTop :
    let draft : Act := .start mailHost { request := mailRequest "Draft" 0 [] (some ⟨6⟩) }
    let before := blankWorld.afterActs (openInbox 0 ++ [draft])
    let ended := execute mailHost
      { request := mailRequest "Inbox" 0 [.newTask, .clearTop] none } before
    before.hierarchy.activities ⟨4⟩ = [⟨7⟩, ⟨6⟩, ⟨5⟩] ∧ ended.2.2 = .ok .success ∧
      ended.1.outActivity = some ⟨8⟩ ∧ (∃! k, Created before.hierarchy ended.2.1.hierarchy k) ∧
        ∀ k, before.hierarchy.isActivity k = true →
          (ended.2.1.hierarchy.isActivity k = false ↔ k = ⟨7⟩ ∨ k = ⟨6⟩) := by
  intro draft before ended
  have steps : Steps true blankWorld before :=
    steps_afterActs (openInbox 0 ++ [draft]) (fun _ _ _ => rfl) blankWorld
  have ran : execute mailHost { request := mailRequest "Inbox" 0 [.newTask, .clearTop] none }
      before = (ended.1, ended.2.1, ended.2.2) := rfl
  have tally := tally_execute (steps.reached reachable_blankWorld) ran
  have success : ended.2.2 = .ok .success := by decide +kernel
  let info : ActivityInfo := { component := ⟨"mail", "Inbox"⟩, uid := ⟨10010⟩ }
  have launched : ended.1.request.info = some info := by decide +kernel
  have reused : taskToReuse? (mailRequest "Inbox" 0 [.newTask, .clearTop] none) before.hierarchy
      info = some ⟨4⟩ := by decide +kernel
  have cleared : evicted before.hierarchy
      ((mailRequest "Inbox" 0 [.newTask, .clearTop] none).effectiveFlags before.hierarchy info)
      info ⟨4⟩ = [⟨7⟩, ⟨6⟩] := by decide +kernel
  refine ⟨by decide +kernel, success, by decide +kernel, tally.created.mp success, fun k was => ?_⟩
  rw [tally.gone k was]
  constructor
  · rintro ⟨_, info', task, launched', reused', member⟩
    obtain rfl : info = info' := Option.some.inj (launched.symm.trans launched')
    obtain rfl : ⟨4⟩ = task := Option.some.inj (reused.symm.trans reused')
    rw [cleared] at member
    simpa using member
  · intro member
    refine ⟨⟨_, success, rfl⟩, info, ⟨4⟩, launched, reused, ?_⟩
    rw [cleared]
    simpa using member

end WindowHost.Start
