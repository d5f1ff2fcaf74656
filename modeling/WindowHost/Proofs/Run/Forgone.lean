import WindowHost.Proofs.Run.Stages

/-! Modifiers that may be missing. Where two chains always come to the same, a start does the same
with either of them, and tells the world the same, as long as the world does not hear the questions
to the modifiers. -/
namespace WindowHost
open Hierarchy
open Told (told)
variable {σ τ β : Type} {env : Environment} {c d : List Call} {chain chain' : List Modifier}

/-- The calls other than questions to layout modifiers. -/
def plain (calls : List Call) : List Call := calls.filter fun call => call.modifier?.isNone

/-- The world does not hear what the modifiers are asked: the services answer by the calls that are
made to them, and a question to a modifier goes to none of them. -/
def Deaf (env : Environment) : Prop := ∀ c d, plain d = plain c → env d = env c

/-- The two have asked the modifiers different questions, and are the same beyond that. -/
def Alike [Told σ] (s s' : σ) : Prop := ∃ c, plain c = plain (Told.calls s) ∧ s' = told s c

/-- Whatever the two chains start from, they come to the same. -/
def SameUpshot (chain chain' : List Modifier) : Prop :=
  ∀ request initial, (refine chain' request initial).1 = (refine chain request initial).1

theorem plain_append (calls later : List Call) :
    plain (calls ++ later) = plain calls ++ plain later :=
  List.filter_append ..

theorem plain_append_modifier (calls : List Call) (asked : List ModifierCall) :
    plain (calls ++ asked.map .modifier) = plain calls := by
  simp [plain, Call.modifier?]

theorem Deaf.sameAnswers (deaf : Deaf env) (same : plain d = plain c) : SameAnswers env c d := by
  intro later
  refine deaf _ _ ?_
  rw [plain_append, plain_append, same]

namespace Alike
variable [Told σ] [Told τ] {s s' : σ}

theorem refl (s : σ) : Alike s s := ⟨Told.calls s, rfl, (Told.told_calls s).symm⟩

theorem of_told (same : plain c = plain (Told.calls s)) : Alike s (told s c) := ⟨c, same, rfl⟩

theorem of_oblivious {f : σ → τ} (deaf : Deaf env) (oblivious : Oblivious env f s)
    (alike : Alike s s') : Alike (f s) (f s') := by
  obtain ⟨c, same, rfl⟩ := alike
  obtain ⟨later, _, made, goesOn⟩ := oblivious.calls_eq
  refine ⟨c ++ later, ?_, goesOn c (deaf.sameAnswers same)⟩
  rw [made, plain_append, plain_append, same]

theorem withResult (alike : Alike s s') (x : β) : Alike (s, x) (s', x) := by
  obtain ⟨c, same, rfl⟩ := alike
  exact ⟨c, same, rfl⟩

end Alike

theorem Flight.alike_refineLayout {s s' : Flight} (agree : SameUpshot chain chain')
    (alike : Alike s s') (request : LayoutRequest) (current : LaunchParams) :
    Alike (s.refineLayout chain request current) (s'.refineLayout chain' request current) := by
  obtain ⟨c, same, rfl⟩ := alike
  refine ⟨c ++ (refine chain' request current).2.map .modifier, ?_, ?_⟩
  · rw [plain_append_modifier, same]
    exact (plain_append_modifier ..).symm
  · exact Prod.ext rfl (agree request current)

theorem Flight.exists_alike_refineLayout {s s' : Flight} (agree : SameUpshot chain chain')
    (alike : Alike s s') (request : LayoutRequest) (current : LaunchParams) :
    ∃ t t' layout, s.refineLayout chain request current = (t, layout) ∧
      s'.refineLayout chain' request current = (t', layout) ∧ Alike t t' := by
  obtain ⟨d, same, refined⟩ := alike_refineLayout agree alike request current
  exact ⟨_, _, _, rfl, refined, d, same, rfl⟩

namespace Start
variable {l : Launch} {r : StartRequest} {record : ActivityRecord}

theorem alike_startInNewTask {s s' : Flight} (agree : SameUpshot chain chain') (deaf : Deaf env)
    (alike : Alike s s') (request : LayoutRequest) (layout : LaunchParams) :
    Alike (startInNewTask env chain s l r record request layout)
      (startInNewTask env chain' s' l r record request layout) := by
  have fails : ∀ {s s' : Flight}, Alike s s' → Alike s.fail s'.fail := fun alike =>
    alike.of_oblivious deaf (oblivious_fail _)
  obtain ⟨c, same, rfl⟩ := id alike
  rw [startInNewTask_eq_lodge, startInNewTask_eq_lodge, launchRoot_told]
  rcases found : launchRoot s l layout.mode record.info.type with _ | ⟨rooted, root⟩
  · exact fails alike
  have calls : rooted.world.calls = s.world.calls :=
    (sameNotes_of_rooted (sameOrRooted_launchRoot found)).calls
  have same : plain c = plain rooted.world.calls := calls ▸ same
  have pair : told (rooted, root) c = (told rooted c, root) := rfl
  rw [Option.map_some, pair]
  dsimp only
  rw [Flight.hierarchy_told]
  rcases rooted.hierarchy.createTask root (newTaskSpec r record) _ with e | ⟨h, task⟩
  · exact fails ⟨c, same, rfl⟩
  · have grown : Alike (rooted.withNew h task) ((told rooted c).withNew h task) := ⟨c, same, rfl⟩
    exact (Flight.alike_refineLayout agree grown _ layout).of_oblivious deaf
      (oblivious_lodge l record task _)

/-- The host with another chain of modifiers. -/
def withChain (host : Host) (chain : List Modifier) : Host := { host with modifiers := chain }

section
variable {host : Host} {caller : Caller} {info : ActivityInfo} {w w' : World} {s : Starter}
  (agree : SameUpshot host.modifiers chain) (deaf : Deaf host.environment)
include agree deaf

theorem alike_place (alike : Alike w w') (r : StartRequest) (caller : Caller)
    (info : ActivityInfo) :
    Alike (place host r caller info w) (place (withChain host chain) r caller info w') := by
  obtain ⟨c, same, rfl⟩ := alike
  have start : Alike ({ world := w } : Flight) { world := told w c } := ⟨c, same, rfl⟩
  unfold place
  dsimp only [withChain]
  rw [hierarchy_told]
  obtain ⟨s, s', picked, first, first', picks⟩ := Flight.exists_alike_refineLayout agree start
    { phase := .display
      info := info
      sourceDisplay := r.sourceDisplay? w.hierarchy
      requestedBounds := r.requestedLayout.bounds } r.requestedLayout
  rw [first, first']
  dsimp only
  cases launchDisplay? r w.hierarchy picked with
  | none => exact picks.withResult StartResult.canceled
  | some display =>
    dsimp only
    obtain ⟨t, t', estimated, second, second', here⟩ := Flight.exists_alike_refineLayout agree picks
      { phase := .bounds
        info := info
        task := ((reusableTask? r w.hierarchy (r.newRecord caller.uid info)).bind
          w.hierarchy.task?).map Task.id
        sourceDisplay := r.sourceDisplay? w.hierarchy
        requestedBounds := r.requestedLayout.bounds } picked
    rw [second, second']
    dsimp only
    generalize launch r w.hierarchy picked display = l
    generalize r.newRecord caller.uid info = record
    cases reusableTask? r w.hierarchy record with
    | some task => exact here.of_oblivious deaf (oblivious_recycle t l record task)
    | none =>
      dsimp only
      generalize (if (r.wantsResult w.hierarchy || r.namesPlace w.hierarchy) = true then none
        else deliverableTop? w.hierarchy display record) = top
      cases top with
      | some top =>
        exact .of_oblivious (f := (deliverToTop host.environment · l record top)) deaf
          (oblivious_deliverToTop t l record top) here
      | none =>
        dsimp only
        cases existingPlace? w.hierarchy r l with
        | some parent => exact here.of_oblivious deaf (oblivious_addTo t l record parent)
        | none => exact alike_startInNewTask agree deaf here _ estimated

theorem alike_decideAndPlace (alike : Alike w w') (caller : Caller) (info : ActivityInfo)
    (s : Starter) :
    Alike (decideAndPlace host caller info s w)
      (decideAndPlace (withChain host chain) caller info s w') := by
  obtain ⟨c, same, rfl⟩ := id alike
  have passes := passesPolicy_told (deaf.sameAnswers same) caller s.callerIsRecents info
  obtain ⟨d, same, entered⟩ := alike.of_oblivious deaf (oblivious_logged host caller info s w)
  have entered : logged (withChain host chain) caller info s (told w c) =
      told (logged host caller info s w) d := entered
  have passes : passesPolicy (withChain host chain) caller s.callerIsRecents info (told w c) =
      passesPolicy host caller s.callerIsRecents info w := passes
  rw [decideAndPlace_eq, decideAndPlace_eq, passes, entered]
  cases passesPolicy host caller s.callerIsRecents info w with
  | false => exact ⟨d, same, rfl⟩
  | true =>
    unfold placeIf
    rw [if_pos rfl, if_pos rfl, hierarchy_told]
    dsimp only
    obtain ⟨e, same, placed⟩ := alike_place agree deaf (.of_told same) _ caller info
    rw [placed]
    exact ⟨e, same, rfl⟩

theorem alike_admission (alike : Alike w w') (caller : Caller) (s : Starter) :
    Alike (admission host caller s w) (admission (withChain host chain) caller s w') := by
  obtain ⟨c, same, checked⟩ :=
    alike.of_oblivious deaf (oblivious_checkPreconditions caller s.request w)
  unfold admission
  dsimp only [withChain] at checked ⊢
  rw [checked]
  rcases found : checkPreconditions host.environment caller s.request w with
    ⟨r, w₁, result | info⟩ <;> rw [found] at same
  · exact ⟨c, same, rfl⟩
  · exact alike_decideAndPlace agree deaf ⟨c, same, rfl⟩ caller info _

theorem alike_run (alike : Alike w w') (s : Starter) :
    Alike (run host s w) (run (withChain host chain) s w') := by
  obtain ⟨c, same, rfl⟩ := id alike
  have now : host.environment (told w c).calls = host.environment w.calls := deaf _ _ same
  rw [run_eq, run_eq]
  dsimp only [withChain]
  rw [now]
  generalize s.request.resolveCaller (host.environment w.calls) = caller
  have freezes := alike.of_oblivious deaf (oblivious_engageFreeze caller s w)
  generalize engageFreeze host.environment caller s w = frozen at freezes ⊢
  obtain ⟨⟨s, w⟩, ⟨d, same, froze⟩⟩ := frozen, freezes
  have froze : engageFreeze host.environment caller _ _ = (s, told w d) := froze
  rw [froze]
  dsimp only
  have admits := alike_admission agree deaf (.of_told same) caller s
  generalize admission host caller s w = ended at admits ⊢
  obtain ⟨⟨t, u, result⟩, ⟨e, same, ended⟩⟩ := ended, admits
  have ended : admission { host with modifiers := chain } caller s (told w d) =
    (t, told u e, result) := ended
  rw [ended]
  dsimp only
  rw [hierarchy_told]
  have told' : Alike u (told u e) := .of_told same
  have posts := told'.of_oblivious deaf
    (oblivious_post t u t.outActivity result (t.outActivity.bind u.hierarchy.rootTaskOf?))
  generalize post t u t.outActivity result (t.outActivity.bind u.hierarchy.rootTaskOf?) = settled
    at posts ⊢
  obtain ⟨f, same, posted⟩ := posts
  rw [posted]
  exact ⟨f, same, rfl⟩

theorem alike_execute (s : Starter) (w : World) :
    Alike (execute host s w) (execute (withChain host chain) s w) := by
  unfold execute
  split
  · exact .refl _
  split
  · exact .refl _
  · obtain ⟨c, same, ran⟩ := alike_run agree deaf (.refl w) s
    rw [ran]
    exact ⟨c, same, rfl⟩

end

/-- A start asks the modifiers in stages, and only once it is cleared. One that never has anything
to say may as well be missing, and so may one behind another that always settles the layout: the
start goes the same way, and ends with the same nodes in the same places. -/
theorem execute_consults {w : World} (reached : Reachable w.hierarchy) (host : Host)
    (s : Starter) :
    let ended := execute host s w
    Consults host.modifiers w (cleared? host s w) ended.1.outActivity ended.2.1 ended.2.2 ∧
      ∀ chain, Forgoes host.modifiers chain → Deaf host.environment →
        let other := execute (withChain host chain) s w
        other.1 = ended.1 ∧ other.2.2 = ended.2.2 ∧
          other.2.1.hierarchy = ended.2.1.hierarchy ∧
            plain other.2.1.calls = plain ended.2.1.calls := by
  refine ⟨consults_execute reached.wellFormed host s, fun chain forgoes deaf => ?_⟩
  obtain ⟨c, same, ran⟩ := alike_execute forgoes.refine_eq deaf s w
  rw [ran]
  exact ⟨rfl, rfl, rfl, same⟩

/-- A new task of freeform windows. Three of four modifiers are asked in each stage, and the first
one of them changes nothing. -/
theorem execute_consults_of_four :
    let screen : Rect := ⟨0, 0, 1920, 1080⟩
    let world : World := { hierarchy := empty.mutate (.addDisplay ⟨0⟩ screen) }
    let silent : Modifier := fun _ _ => .skip
    let floats : Modifier := fun _ params => .adjust { params with mode := .freeform }
    let places : Modifier := fun _ params => .settle { params with bounds := some ⟨0, 0, 800, 600⟩ }
    let host : Host :=
      { environment := fun _ => {}, modifiers := [silent, floats, places, floats] }
    let info : ActivityInfo := { component := ⟨"mail", "Inbox"⟩, uid := ⟨10010⟩ }
    let s : Starter :=
      { request := { intent := .ofComponent info.component, info := some info } }
    let ended := execute host s world
    let other := execute (withChain host [floats, places, floats]) s world
    ended.2.2 = .ok .success ∧
      (questions ended.2.1.calls).map (fun call => (call.request.phase, call.index)) =
        LaunchPhase.all.flatMap (fun phase => [(phase, 0), (phase, 1), (phase, 2)]) ∧
      Consults host.modifiers world (cleared? host s world) ended.1.outActivity ended.2.1
        ended.2.2 ∧
      (questions other.2.1.calls).length = 6 ∧
      other.2.1.hierarchy = ended.2.1.hierarchy := by
  intro screen world silent floats places host info s ended other
  have reached : Reachable world.hierarchy := Reachable.empty.call (.addDisplay ⟨0⟩ screen)
  obtain ⟨consults, same⟩ := execute_consults reached host s
  let rest : List Modifier := [floats, places, floats]
  have forgoes : Forgoes ([] ++ silent :: rest) ([] ++ rest) := .silent fun _ _ => rfl
  obtain ⟨_, _, nodes, _⟩ := same rest forgoes fun _ _ _ => rfl
  exact ⟨by decide +kernel, by decide +kernel, consults, by decide +kernel, nodes⟩

end Start
end WindowHost
