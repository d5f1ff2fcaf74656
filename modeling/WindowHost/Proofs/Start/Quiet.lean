import WindowHost.Start.Execute

/-! Everything that a start asks before it places anything: the hierarchy stays as it is, and no
client hears of it. -/
namespace WindowHost
variable {w w' w'' : World}

/-- The call has a client do something. -/
def Call.reachesClient : Call → Bool
  | .startProcess .. | .transaction .. => true
  | _ => false

/-- No call between the two worlds reaches a client. -/
def Quiet (w w' : World) : Prop :=
  ∃ later, w'.calls = w.calls ++ later ∧ ∀ call ∈ later, call.reachesClient = false

theorem Quiet.refl (w : World) : Quiet w w := ⟨[], (List.append_nil _).symm, by simp⟩

theorem Quiet.trans (first : Quiet w w') (second : Quiet w' w'') : Quiet w w'' := by
  obtain ⟨before, sameBefore, quietBefore⟩ := first
  obtain ⟨after, sameAfter, quietAfter⟩ := second
  refine ⟨before ++ after, by rw [sameAfter, sameBefore, List.append_assoc], fun call member => ?_⟩
  rcases List.mem_append.mp member with early | late
  · exact quietBefore call early
  · exact quietAfter call late

/-- The second world knows more answers, and nothing else has happened. -/
structure Asked (w w' : World) : Prop where
  hierarchy : w'.hierarchy = w.hierarchy
  quiet : Quiet w w'

theorem Asked.refl (w : World) : Asked w w := ⟨rfl, .refl w⟩

theorem Asked.trans (first : Asked w w') (second : Asked w' w'') : Asked w w'' :=
  ⟨second.hierarchy.trans first.hierarchy, first.quiet.trans second.quiet⟩

theorem Asked.calls_grow (asked : Asked w w') : w.calls <+: w'.calls := by
  obtain ⟨later, made, _⟩ := asked.quiet
  exact ⟨later, made.symm⟩

theorem asked_emit (w : World) {call : Call} (silent : call.reachesClient = false) :
    Asked w (w.emit call) :=
  ⟨rfl, [call], rfl, fun c member => by rwa [List.mem_singleton.mp member]⟩

/-- The call asks whether a request may go on. -/
def Call.isQuestion : Call → Bool
  | .resolve .. | .permission .. | .supports .. => true
  | _ => false

/-- Between the two worlds only such questions are asked. -/
def Inquired (w w' : World) : Prop :=
  ∃ later, w' = { w with calls := w.calls ++ later } ∧ ∀ call ∈ later, call.isQuestion = true

theorem Inquired.refl (w : World) : Inquired w w := ⟨[], by rw [List.append_nil], by simp⟩

theorem Inquired.trans (first : Inquired w w') (second : Inquired w' w'') : Inquired w w'' := by
  obtain ⟨before, rfl, questions⟩ := first
  obtain ⟨after, rfl, further⟩ := second
  exact ⟨before ++ after, by simp, List.forall_mem_append.mpr ⟨questions, further⟩⟩

theorem inquired_emit (w : World) {call : Call} (question : call.isQuestion = true) :
    Inquired w (w.emit call) :=
  ⟨[call], rfl, by simpa⟩

theorem Call.reachesClient_of_isQuestion {call : Call} (question : call.isQuestion = true) :
    call.reachesClient = false := by
  cases call <;> simp_all [Call.isQuestion, Call.reachesClient]

theorem Inquired.asked (inquired : Inquired w w') : Asked w w' := by
  obtain ⟨later, rfl, questions⟩ := inquired
  exact ⟨rfl, later, rfl,
    fun call member => Call.reachesClient_of_isQuestion (questions call member)⟩

namespace Start
variable {env : Environment} {caller : Caller} {r : StartRequest} {s : Starter}
  {info : ActivityInfo} {component : ComponentName}

theorem asked_engageFreeze : Asked w (engageFreeze env caller s w).2 := by
  unfold engageFreeze
  dsimp only
  split
  · exact asked_emit w rfl
  · exact .refl w

theorem outActivity_engageFreeze :
    (engageFreeze env caller s w).1.outActivity = s.outActivity := by
  unfold engageFreeze
  dsimp only
  split <;> rfl

theorem inquired_resolveInfo : Inquired w (resolveInfo env caller r w).1 := by
  unfold resolveInfo
  split
  · exact .refl w
  · exact inquired_emit w rfl

theorem inquired_askSupport {intent : Intent} :
    Inquired w (askSupport env component intent w).1 :=
  inquired_emit w rfl

theorem inquired_checkVoiceSource :
    Inquired w (checkVoiceSource env component info r w).2.1 := by
  unfold checkVoiceSource
  split
  · exact inquired_askSupport
  · exact .refl w

theorem inquired_checkVoiceTarget : Inquired w (checkVoiceTarget env component r w).1 := by
  unfold checkVoiceTarget
  split
  · exact inquired_askSupport
  · exact .refl w

theorem inquired_askPermission : Inquired w (askPermission env caller info r w).1 :=
  inquired_emit w rfl

theorem inquired_checkPreconditions : Inquired w (checkPreconditions env caller r w).2.1 := by
  unfold checkPreconditions
  split
  · exact .refl w
  split
  · exact .refl w
  split
  · exact .refl w
  rename_i component named
  have resolved : Inquired w (resolveInfo env caller r w).1 := inquired_resolveInfo
  split <;> rename_i known <;> rw [known] at resolved
  · exact resolved
  rename_i found info
  have voiced : Inquired found
      (checkVoiceSource env component info { r with info := some info } found).2.1 :=
    inquired_checkVoiceSource
  split <;> rename_i known <;> rw [known] at voiced
  · exact resolved.trans voiced
  rename_i request spoken
  have targeted : Inquired spoken (checkVoiceTarget env component request spoken).1 :=
    inquired_checkVoiceTarget
  split <;> rename_i known <;> rw [known] at targeted
  · exact (resolved.trans voiced).trans targeted
  rename_i heard
  have permitted : Inquired heard (askPermission env caller info request heard).1 :=
    inquired_askPermission
  split <;> rename_i known <;> rw [known] at permitted
  · exact ((resolved.trans voiced).trans targeted).trans permitted
  · exact ((resolved.trans voiced).trans targeted).trans permitted

theorem asked_checkPreconditions : Asked w (checkPreconditions env caller r w).2.1 :=
  inquired_checkPreconditions.asked

theorem asked_releaseFailed : Asked w (releaseFailed s w).2 := by
  unfold releaseFailed
  dsimp only
  split
  · exact asked_emit w rfl
  · exact .refl w

theorem outActivity_abort (s : Starter) : s.abort.outActivity = s.outActivity := by
  unfold Starter.abort
  split
  · split <;> rfl
  · rfl

theorem outActivity_releaseFailed : (releaseFailed s w).1.outActivity = s.outActivity :=
  outActivity_abort _

theorem asked_reportRestart {task rootTask : Option NodeId} :
    Asked w (reportRestart s w task rootTask) := by
  unfold reportRestart
  dsimp only
  split
  · exact asked_emit w rfl
  · exact .refl w

theorem asked_post {activity rootTask : Option NodeId} {result : StartResult} :
    Asked w (post s w activity result rootTask).2 := by
  have released : Asked w (if result.isSuccessful then (s, w) else releaseFailed s w).2 := by
    split
    · exact .refl w
    · exact asked_releaseFailed
  unfold post
  dsimp only
  generalize (if result.isSuccessful then (s, w) else releaseFailed s w) = pair at released ⊢
  obtain ⟨s, after⟩ := pair
  dsimp only at released ⊢
  refine .trans ?_ (asked_emit _ rfl)
  have told : Asked w (if result = .taskToFront ∨ result = .deliveredToTop then
      reportRestart s after (activity.bind after.hierarchy.taskAround?) rootTask else after) := by
    split
    · exact released.trans asked_reportRestart
    · exact released
  split
  · split
    · exact told.trans (asked_emit _ rfl)
    · exact told
  · exact told

theorem outActivity_post {activity rootTask : Option NodeId} {result : StartResult} :
    (post s w activity result rootTask).1.outActivity = s.outActivity := by
  unfold post
  dsimp only
  split
  · rfl
  · exact outActivity_releaseFailed

end Start
end WindowHost
