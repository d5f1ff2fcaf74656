import WindowHost.Proofs.Hierarchy.Partners
import WindowHost.Proofs.Hierarchy.Undisturbed
import WindowHost.Proofs.Run.Upshot

/-! Where a start adds its activity. The place is one that the launch has found on the terms of the
request, and the tasks, fragments and areas that are there by then stay what they are. -/
namespace WindowHost
open Hierarchy
variable {w w' : World} {env : Environment} {host : Host} {given r : StartRequest}
  {record : ActivityRecord} {info : ActivityInfo} {h h₀ : Hierarchy} {l : Launch} {s t : Starter}
  {out : Option NodeId} {goal : NodeId}

/-- The request says nothing of where the activity is to go. -/
structure StartRequest.Unplaced (r : StartRequest) : Prop where
  inTask : r.inTask = none
  inFragment : r.inFragment = none
  rootTask : r.options.bind LaunchOptions.rootTask = none

namespace Start

theorem Admitted.unplaced (admitted : Admitted host given r info h) (free : given.Unplaced) :
    r.Unplaced where
  inTask := admitted.terms.inTask.trans free.inTask
  inFragment := admitted.terms.inFragment.trans free.inFragment
  rootTask := by rw [admitted.terms.options, free.rootTask]

theorem Admitted.has_launchAdjacent (admitted : Admitted host given r info h) :
    r.intent.flags.has .launchAdjacent = given.intent.flags.has .launchAdjacent := by
  rw [admitted.flags, StartRequest.effectiveFlags]
  split
  · exact Flags.has_insert_of_apart _ (by decide)
  · rfl

section
variable (chosen : l.Of r h)
include chosen

theorem flags_of_chosen : l.flags = r.intent.flags := by
  obtain ⟨_, _, _, rfl⟩ := chosen
  rfl

theorem source_of_chosen : l.source = r.source? h := by
  obtain ⟨_, _, _, rfl⟩ := chosen
  rfl

theorem rootTask_of_unplaced (free : r.Unplaced) : l.rootTask = none := by
  obtain ⟨_, _, _, rfl⟩ := chosen
  rw [launch, free.rootTask, Option.filter_none]

end

/-- A new task lies in the root task that it is made in. -/
theorem parent?_newTask {h' : Hierarchy} {root task : NodeId} {spec : TaskSpec}
    {position : Position} (made : h.createTask root spec position = .ok (h', task))
    (layout : LaunchParams) : (applyBounds h' task layout).parent? task = some root :=
  ((sameFrame_applyBounds h' task layout).parent task).trans (parent?_new_createTask made)

/-- The start has added an activity. When its place was found the hierarchy was `before`, and
nothing that was there has another place, kind, mode or partner now. -/
structure Addition (host : Host) (given : StartRequest) (info : ActivityInfo)
    (h before h' : Hierarchy) (place k : NodeId) : Prop where
  exists_lodging : ∃ (r : StartRequest) (uid : Uid) (l : Launch), Admitted host given r info h ∧
    l.Of r h ∧ Lodging r h (r.newRecord uid info) l place before
  placed : h'.parent? k = some place
  post : ∀ j, before.contains j = true → SamePost before h' j
  partner : ∀ j, before.contains j = true → h'.adjacent? j = before.adjacent? j

theorem exists_addition_of_landing
    (landing : Landing env r h₀ record goal w w' out .success) :
    ∃ l k, out = some k ∧ l.Of r h₀ ∧ Lodging r h₀ record l goal w.hierarchy ∧
      w'.hierarchy.parent? k = some goal ∧ ∀ j, w.hierarchy.contains j = true →
        SamePost w.hierarchy w'.hierarchy j ∧
          w'.hierarchy.adjacent? j = w.hierarchy.adjacent? j := by
  generalize same : StartResult.success = result at landing
  cases landing with
  | failed _ fails =>
    rw [← same] at fails
    contradiction
  | @added l h h' k display chosen made front _ lodging =>
    have raised : ∀ j, h'.parent? j = h.parent? j ∧ h'.data? j = h.data? j := fun j => by
      rw [front]
      split
      · exact ⟨parent?_moveTaskToFront .., data?_moveTaskToFront ..⟩
      · exact ⟨rfl, rfl⟩
    have shown := sameView_propagate env { w with hierarchy := h' } display (some k)
    refine ⟨l, k, rfl, chosen, lodging, ?_, fun j live => ?_⟩
    · rw [shown.parent?, (raised k).1, parent?_addActivity made]
    have old : j ≠ k := by
      obtain ⟨_, rfl⟩ := addActivity_eq_ok_iff.mp made
      exact ne_nextId_of_contains live
    have data : h.data? j = w.hierarchy.data? j := by rw [data?_addActivity made, if_neg old]
    have data' : h'.data? j = w.hierarchy.data? j := (raised j).2.trans data
    have later : h'.contains j = true := (contains_congr data').trans live
    constructor
    · have added := (undisturbed_addActivity made).same j live ((contains_congr data).trans live)
      have lifted : SamePost h h' j := .of_data? (raised j).1 (raised j).2
      exact (added.trans lifted).trans
        (shown.undisturbed.same j later ((congrFun shown.contains j).trans later))
    · rw [shown.adjacent?]
      exact adjacent?_of_data? data'
  | @delivered _ _ _ moved => cases moved <;> cases same
  | @kept _ _ moved => cases moved <;> cases same
  | topped => cases same

theorem exists_addition (formed : w.hierarchy.WellFormed)
    (ran : execute host { request := given } w = (s, w', .ok .success)) :
    ∃ info k place before, s.request.info = some info ∧ s.outActivity = some k ∧
      Addition host given info w.hierarchy before w'.hierarchy place k := by
  cases ending_execute formed ran with
  | failed fails => exact absurd (fails _ rfl) Bool.noConfusion
  | @landed u v r uid info goal _ admitted known _ landing ends =>
    obtain ⟨l, k, ended, chosen, lodging, placed, same⟩ := exists_addition_of_landing landing
    rw [← ends] at placed same
    exact ⟨info, k, goal, u.hierarchy, known, ended, ⟨r, uid, l, admitted, chosen, lodging⟩,
      placed, fun j live => (same j live).1, fun j live => (same j live).2⟩

end Start
end WindowHost
