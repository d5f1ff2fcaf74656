import WindowHost.Proofs.Run.Addition
import WindowHost.Proofs.Run.Delivery
import WindowHost.Proofs.Start.Clearance

/-! Starts that are to land beside the activity that asks for them. One that reuses no task does:
its place is the partner of the fragment that the asking activity lies in, or else a new task in the
partner of its root task. A task that is reused comes first, and stays the place. -/
namespace WindowHost
variable {w w' : World} {host : Host} {given r : StartRequest} {record : ActivityRecord}
  {info : ActivityInfo} {h h' before : Hierarchy} {l : Launch} {s : Starter}
  {k partner place source : NodeId}

namespace Hierarchy

/-- The partner of the fragment that a node lies in. -/
def fragmentBeside? (h : Hierarchy) (k : NodeId) : Option NodeId := do
  let parent ← h.parent? k
  let _ ← h.fragment? parent
  h.adjacent? parent

/-- The partner of the root task around a node, if it is a root task too. -/
def rootBeside? (h : Hierarchy) (k : NodeId) : Option NodeId :=
  ((h.rootTaskOf? k).bind h.adjacent?).filter h.isRootTask

/-- A node has come to lie beside the place that another one had. -/
structure Beside (h h' : Hierarchy) (source k : NodeId) : Prop where
  fragment : ∀ partner, h.fragmentBeside? source = some partner → h'.parent? k = some partner
  root : h.fragmentBeside? source = none →
    ∀ partner, h.rootBeside? source = some partner → Inside h' k partner

end Hierarchy

open Hierarchy

namespace Start

theorem Admitted.has_newTask (admitted : Admitted host given r info h)
    (flagged : given.intent.flags.has .launchAdjacent = true) :
    r.intent.flags.has .newTask = true := by
  rw [admitted.flags, StartRequest.effectiveFlags, if_pos (by simp [flagged])]
  exact Flags.has_insert ..

section
variable (chosen : l.Of r h) (flagged : r.intent.flags.has .launchAdjacent = true)
  (asked : r.source? h = some source)
include chosen flagged asked

theorem existingPlace?_of_launchAdjacent (free : r.Unplaced)
    (new : r.intent.flags.has .newTask = true) :
    existingPlace? h r l = h.fragmentBeside? source := by
  have unnamed := rootTask_of_unplaced chosen free
  have fragment : adjacentFragment? h l = h.fragmentBeside? source := by
    simp [adjacentFragment?, fragmentBeside?, unnamed, flags_of_chosen chosen, flagged,
      source_of_chosen chosen, asked]
  simp [existingPlace?, StartRequest.inFragment?, StartRequest.inTask?, free.inFragment,
    free.inTask, fragment, flags_of_chosen chosen, new]

theorem adjacentRoot?_of_rootBeside? (beside : h.rootBeside? source = some partner) :
    adjacentRoot? h l = some partner := by
  obtain ⟨found, _⟩ := Option.filter_eq_some_iff.mp beside
  obtain ⟨root, around, found⟩ := Option.bind_eq_some_iff.mp found
  simp [adjacentRoot?, flags_of_chosen chosen, flagged, source_of_chosen chosen, asked, around,
    found]

theorem Rooting.eq_of_rootBeside? {type : ActivityType} {root : NodeId}
    (rooting : Rooting h l type root h') (free : r.Unplaced)
    (beside : h.rootBeside? source = some partner) : root = partner := by
  have found := adjacentRoot?_of_rootBeside? chosen flagged asked beside
  cases rooting with
  | named named =>
    rw [rootTask_of_unplaced chosen free] at named
    contradiction
  | beside _ taken => exact Option.some.inj (taken.symm.trans found)
  | ofKind _ alone =>
    rw [alone] at found
    contradiction

end

/-- The place that the launch has found is the reused task, or beside the asking activity. -/
theorem Addition.beside (addition : Addition host given info h before h' place k)
    (free : given.Unplaced) (flagged : given.intent.flags.has .launchAdjacent = true)
    (asked : given.source? h = some source) :
    (∀ task, taskToReuse? given h info = some task → h'.parent? k = some task) ∧
      (taskToReuse? given h info = none → Beside h h' source k) := by
  obtain ⟨r, uid, l, admitted, chosen, lodging⟩ := addition.exists_lodging
  have flagged' := admitted.has_launchAdjacent.trans flagged
  have asked' := (admitted.terms.source? h).trans asked
  have existing := existingPlace?_of_launchAdjacent chosen flagged' asked'
    (admitted.unplaced free) (admitted.has_newTask flagged)
  rw [← admitted.taskToReuse? uid]
  cases lodging with
  | reused reuses =>
    rw [reuses.chosen]
    exact ⟨fun task same => addition.placed.trans same, fun idle => by contradiction⟩
  | existing idle found =>
    rw [existing] at found
    rw [idle]
    refine ⟨fun _ reused => by contradiction, fun _ => ⟨fun partner beside => ?_, fun none => ?_⟩⟩
    · exact addition.placed.trans (found.symm.trans beside)
    · rw [none] at found
      contradiction
  | made idle homeless rooting made layout =>
    rw [existing] at homeless
    rw [idle]
    refine ⟨fun _ reused => by contradiction, fun _ => ⟨fun partner beside => ?_,
      fun _ partner beside => ?_⟩⟩
    · rw [homeless] at beside
      contradiction
    obtain rfl := rooting.eq_of_rootBeside? chosen flagged' asked' (admitted.unplaced free) beside
    have under := parent?_newTask made layout
    have kept := (addition.post place (contains_of_parent? under)).parent
    exact .deeper addition.placed (.child (kept.trans under))

/-- A start that is to land beside the asking activity and adds an activity puts it into the task
that it reuses; where it reuses none, the activity is in the partner of the fragment that the asking
one lay in, or else inside the partner of its root task. -/
theorem beside_execute (reached : Reachable w.hierarchy)
    (asked : given.source? w.hierarchy = some source)
    (flagged : given.intent.flags.has .launchAdjacent = true) (free : given.Unplaced)
    (ran : execute host { request := given } w = (s, w', .ok .success)) :
    ∃ info k, s.request.info = some info ∧ s.outActivity = some k ∧
      (∀ task, taskToReuse? given w.hierarchy info = some task →
        w'.hierarchy.parent? k = some task) ∧
      (taskToReuse? given w.hierarchy info = none →
        Beside w.hierarchy w'.hierarchy source k) := by
  obtain ⟨info, k, place, before, known, ended, addition⟩ :=
    exists_addition reached.wellFormed ran
  exact ⟨info, k, known, ended, addition.beside free flagged asked⟩

/-- A split pair, and in its upper half a task with two panes side by side: a list in the left one,
and a note over both. -/
def panes : World where
  hierarchy := afterCalls
    [.addDisplay ⟨0⟩ ⟨0, 0, 1920, 1080⟩, .createSplitPair ⟨2⟩,
      .createTask ⟨4⟩ { affinity := some "mail" } .top,
      .createFragment ⟨5⟩ none .top, .createFragment ⟨5⟩ none .top, .setAdjacent ⟨6⟩ ⟨7⟩,
      .addActivity ⟨6⟩
        (ActivityRecord.create { component := ⟨"mail", "List"⟩, uid := ⟨10010⟩ } {}) .top,
      .addActivity ⟨5⟩
        (ActivityRecord.create { component := ⟨"mail", "Note"⟩, uid := ⟨10010⟩ } {}) .top]

theorem reachable_panes : Reachable panes.hierarchy := Reachable.empty.foldl_mutate _

/-- A draft that is to open beside the list or beside the note. -/
def draftBeside (flags : List IntentFlag) (source : NodeId) : StartRequest :=
  mailRequest "Draft" 0 (.launchAdjacent :: flags) (some source)

def openDraft (flags : List IntentFlag) (source : NodeId) :
    Starter × World × Except StartError StartResult :=
  execute mailHost { request := draftBeside flags source } panes

/-- Where no task may be reused, a draft from the list opens in the pane beside it. -/
theorem beside_execute_of_panes :
    let fromList := openDraft [.multipleTask] ⟨8⟩
    (draftBeside [.multipleTask] ⟨8⟩).source? panes.hierarchy = some ⟨8⟩ ∧
      fromList.2.2 = .ok .success ∧ fromList.1.outActivity = some ⟨10⟩ ∧
      fromList.2.1.hierarchy.parent? ⟨10⟩ = some ⟨7⟩ := by
  intro fromList
  have asked : (draftBeside [.multipleTask] ⟨8⟩).source? panes.hierarchy = some ⟨8⟩ := by
    decide +kernel
  have succeeds : fromList.2.2 = .ok .success := by decide +kernel
  have out : fromList.1.outActivity = some ⟨10⟩ := by decide +kernel
  have launched : fromList.1.request.info = (draftBeside [.multipleTask] ⟨8⟩).info := by
    decide +kernel
  have idle : ∀ info, (draftBeside [.multipleTask] ⟨8⟩).info = some info →
      taskToReuse? (draftBeside [.multipleTask] ⟨8⟩) panes.hierarchy info = none := by
    rintro _ ⟨⟩
    decide +kernel
  have ran : openDraft [.multipleTask] ⟨8⟩ = (fromList.1, fromList.2.1, .ok .success) := by
    rw [← succeeds]
  obtain ⟨info, k, known, ended, _, beside⟩ :=
    beside_execute reachable_panes asked rfl ⟨rfl, rfl, rfl⟩ ran
  obtain rfl : ⟨10⟩ = k := Option.some.inj (out.symm.trans ended)
  have beside := beside (idle info (launched.symm.trans known))
  exact ⟨asked, succeeds, out, beside.fragment ⟨7⟩ (by decide +kernel)⟩

/-- Without that, both drafts open in the task of the note and the list. -/
theorem not_beside_of_panes :
    let fromList := openDraft [] ⟨8⟩
    let fromNote := openDraft [] ⟨9⟩
    Reachable panes.hierarchy ∧
      (∀ source, (draftBeside [] source).Unplaced ∧
        (draftBeside [] source).intent.flags.has .launchAdjacent = true) ∧
      (draftBeside [] ⟨8⟩).source? panes.hierarchy = some ⟨8⟩ ∧
      panes.hierarchy.fragmentBeside? ⟨8⟩ = some ⟨7⟩ ∧ fromList.2.2 = .ok .success ∧
      fromList.1.outActivity = some ⟨10⟩ ∧ fromList.2.1.hierarchy.parent? ⟨10⟩ ≠ some ⟨7⟩ ∧
      (draftBeside [] ⟨9⟩).source? panes.hierarchy = some ⟨9⟩ ∧
      panes.hierarchy.fragmentBeside? ⟨9⟩ = none ∧ panes.hierarchy.rootBeside? ⟨9⟩ = some ⟨3⟩ ∧
      fromNote.2.2 = .ok .success ∧ fromNote.1.outActivity = some ⟨10⟩ ∧
      ¬ Inside fromNote.2.1.hierarchy ⟨10⟩ ⟨3⟩ := by
  intro fromList fromNote
  have steps : Steps true panes fromNote.2.1 := by
    simp only [fromNote, openDraft]
    exact steps_execute ..
  have forest : Forest fromNote.2.1.hierarchy := (steps.reached reachable_panes).wellFormed.forest
  have outside : fromNote.2.1.hierarchy.isDescendantOf ⟨10⟩ ⟨3⟩ = false := by decide +kernel
  refine ⟨reachable_panes, fun _ => ⟨⟨rfl, rfl, rfl⟩, Flags.has_insert ..⟩, by decide +kernel,
    by decide +kernel, by decide +kernel, by decide +kernel, by decide +kernel, by decide +kernel,
    by decide +kernel, by decide +kernel, by decide +kernel, by decide +kernel, fun inside => ?_⟩
  exact Bool.false_ne_true (outside.symm.trans (forest.isDescendantOf_iff.mpr inside))

end Start
end WindowHost
