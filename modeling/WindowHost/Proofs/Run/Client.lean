import WindowHost.Proofs.Run.Acts
import WindowHost.Proofs.Run.Follow

/-! Clients never drift from the host. What the transactions make of the state that a client starts
from is what the host has on record, as long as no pass is silent. -/
namespace WindowHost
open Hierarchy
variable {w : World} {k : NodeId} {r s : ActivityRecord} {calls : List Call}

/-- What a client knows of its activity. -/
structure ClientView where
  state : ActivityState
  visible : Bool
  deriving DecidableEq

def ActivityRecord.clientView (r : ActivityRecord) : ClientView := ⟨r.state, r.visibleRequested⟩

def ClientView.hear (v : ClientView) : Transaction → ClientView
  | .visibility shown => { v with visible := shown }
  | .resume => { v with state := .resumed }
  | .makeActive | .pause => { v with state := .paused }
  | .stop => { v with state := .stopped }
  | .configuration _ | .newIntent => v

/-- The transaction that a call sends to an activity. -/
def Call.newsFor? (k : NodeId) : Call → Option Transaction
  | .transaction j t => if j = k then some t else none
  | _ => none

/-- What the calls make of what the client of an activity knows. -/
def ClientView.replay (k : NodeId) (calls : List Call) (v : ClientView) : ClientView :=
  (calls.filterMap (Call.newsFor? k)).foldl ClientView.hear v

theorem ClientView.replay_append (before after : List Call) (v : ClientView) :
    v.replay k (before ++ after) = (v.replay k before).replay k after := by
  rw [replay, List.filterMap_append, List.foldl_append]
  rfl

theorem ClientView.replay_of_silent (silent : ∀ call ∈ calls, call.newsFor? k = none)
    (v : ClientView) : v.replay k calls = v := by
  rw [replay, List.filterMap_eq_nil_iff.mpr silent]
  rfl

theorem Call.newsFor?_of_not_reaches {call : Call} (aside : ¬ call.Reaches k) :
    call.newsFor? k = none := by
  cases call <;> simp_all [Reaches, reachesClient, activity?, newsFor?]

/-- Every touch of an activity that has a client is told to it in full. -/
theorem Touch.replay (touch : Touch false k r s calls) (hosted : r.attached = true)
    (begun : r.state ≠ .initializing) :
    s.attached = true ∧ s.state ≠ .initializing ∧ s.clientView = r.clientView.replay k calls := by
  cases touch <;> simp_all [ActivityRecord.clientView, ClientView.replay, Call.newsFor?,
    ClientView.hear, ActivityRecord.deliverNewIntent]

/-- Since it knew the view, the client knows all that the host has on record. -/
def Informed (k : NodeId) (v : ClientView) (a : Option ActivityRecord) (later : List Call) : Prop :=
  ∀ r, a = some r → r.attached = true ∧ r.state ≠ .initializing ∧ r.clientView = v.replay k later

theorem follows_informed (k : NodeId) (v : ClientView) : Follows false k (Informed k v) where
  touch r s calls later touch informed := by
    rintro _ ⟨⟩
    obtain ⟨hosted, begun, view⟩ := informed r rfl
    rw [ClientView.replay_append, ← view]
    exact touch.replay hosted begun
  aside a calls later aside informed := by
    intro r held
    rw [ClientView.replay_append,
      ClientView.replay_of_silent fun call member =>
        Call.newsFor?_of_not_reaches (aside call member)]
    exact informed r held
  gone a later _ := by
    intro r held
    contradiction

/-- After any run without silent passes, replaying the transactions that an attached activity was
sent gives the state and the visibility that the host has on record for it. -/
theorem replay_afterActs {acts : List Act} (aloud : ∀ act ∈ acts, act.notifies = true)
    (held : w.hierarchy.activity? k = some r) (hosted : r.attached = true)
    (begun : r.state ≠ .initializing) :
    ∃ later, (w.afterActs acts).calls = w.calls ++ later ∧
      ∀ r', (w.afterActs acts).hierarchy.activity? k = some r' →
        r.clientView.replay k later = r'.clientView := by
  have steps : Steps false w (w.afterActs acts) :=
    steps_afterActs acts (fun act member mute => by simp [aloud act member] at mute) w
  have informed : Informed k r.clientView (w.hierarchy.activity? k) [] := by
    intro t found
    rw [held, Option.some.injEq] at found
    rw [← found]
    exact ⟨hosted, begun, rfl⟩
  obtain ⟨later, made, known⟩ := (follows_informed k r.clientView).steps steps
    (contains_of_activity? held) informed
  exact ⟨later, made, fun r' found => (known r' found).2.2.symm⟩

/-- An activity is resumed, and then stopped by the start of another one. -/
theorem replay_afterActs_of_covered :
    let info (name : String) : ActivityInfo := { component := ⟨"mail", name⟩, uid := ⟨10010⟩ }
    let record := { ActivityRecord.create (info "Inbox") {} with
      state := .paused, visibleRequested := true, attached := true }
    let h := ((empty.mutate (.addDisplay ⟨0⟩ ⟨0, 0, 1920, 1080⟩)).mutate
      (.createRootTask ⟨2⟩ .fullscreen .standard .top)).mutate (.addActivity ⟨3⟩ record .top)
    let request : StartRequest :=
      { intent := .ofComponent (info "Draft").component, info := some (info "Draft") }
    let acts :=
      [Act.resumeFocused ⟨1⟩, .start { environment := fun _ => {} } { request := request }]
    let ended := World.afterActs { hierarchy := h } acts
    ended.calls.filterMap (Call.newsFor? ⟨4⟩) = [.resume, .visibility false, .stop] ∧
      record.clientView.replay ⟨4⟩ ended.calls = ⟨.stopped, false⟩ := by
  intro info record h request acts ended
  have aloud : ∀ act ∈ acts, act.notifies = true := by decide
  obtain ⟨later, made, known⟩ := replay_afterActs (w := { hierarchy := h }) (k := ⟨4⟩) (r := record)
    aloud (by decide +kernel) rfl (by decide)
  have all : ended.calls = later := made
  have stopped : ended.hierarchy.activity? ⟨4⟩ =
      some { record with state := .stopped, visibleRequested := false } := by decide +kernel
  refine ⟨by decide +kernel, ?_⟩
  rw [all]
  exact known _ stopped

end WindowHost
