import WindowHost.Proofs.Start.Course

/-! The abort hook of a request. A start that ends without success runs it, and leaves it run, so
that no later attempt runs it again. A request that is refused for its file descriptors never comes
to its end, and its hook never runs. -/
namespace WindowHost.Start
variable {w : World} {host : Host} {s : Starter} {given : StartRequest} {result : StartResult}

/-- There is a hook that has not run. -/
def hasHook (r : StartRequest) : Bool := r.options.any LaunchOptions.abortHook

theorem hookRuns_abort (s : Starter) :
    s.abort.hookRuns = s.hookRuns + if hasHook s.request then 1 else 0 := by
  unfold Starter.abort hasHook
  split
  · rename_i options known
    rw [known, Option.any_some]
    split <;> rfl
  · rename_i missing
    rw [missing]
    rfl

/-- The hook runs when the report says that the start has failed. -/
theorem hookRuns_post (s : Starter) (w : World) (out : Option NodeId) (result : StartResult)
    (rootTask : Option NodeId) : (post s w out result rootTask).1.hookRuns =
      s.hookRuns + if !result.isSuccessful && hasHook s.request then 1 else 0 := by
  unfold post
  dsimp only
  cases result.isSuccessful with
  | true => rfl
  | false => exact hookRuns_abort { s with froze := false }

theorem hookRuns_engageFreeze {env : Environment} {caller : Caller} :
    (engageFreeze env caller s w).1.hookRuns = s.hookRuns := by
  unfold engageFreeze
  dsimp only
  split <;> rfl

theorem hookRuns_run (host : Host) (s : Starter) (w : World) : (run host s w).1.hookRuns =
    s.hookRuns + if !(run host s w).2.2.isSuccessful && hasHook s.request then 1 else 0 := by
  rw [run_eq]
  dsimp only
  generalize s.request.resolveCaller (host.environment w.calls) = caller
  have frozen : (engageFreeze host.environment caller s w).1.hookRuns = s.hookRuns :=
    hookRuns_engageFreeze
  have kept : (engageFreeze host.environment caller s w).1.request = s.request :=
    request_engageFreeze
  rw [hookRuns_post, sameBooks_admission.hookRuns, frozen, hasHook, sameBooks_admission.options,
    kept, hasHook]

/-- Tries a starter again and again, wherever and whenever. -/
def retry (s : Starter) (attempts : List (Host × World)) : Starter :=
  attempts.foldl (fun s (host, w) => (execute host s w).1) s

theorem retry_of_done (done : s.progress ≠ .building) (attempts : List (Host × World)) :
    retry s attempts = s := by
  induction attempts with
  | nil => rfl
  | cons attempt attempts ih =>
    have turned : (execute attempt.1 s attempt.2).1 = s := by rw [execute_of_done done]
    exact (congrArg (retry · attempts) turned).trans ih

/-- The hook of a request without file descriptors runs once in all if the first attempt ends
without success, and never if it succeeds. -/
theorem hookRuns_retry (hooked : hasHook given = true)
    (plain : given.intent.hasFileDescriptors = false) (host : Host) (w : World)
    (attempts : List (Host × World)) :
    ∃ result, (execute host { request := given } w).2.2 = .ok result ∧
      (retry (execute host { request := given } w).1 attempts).hookRuns =
        if result.isSuccessful then 0 else 1 := by
  rw [execute_of_plain plain]
  refine ⟨_, rfl, ?_⟩
  rw [retry_of_done (by simp)]
  have runs := hookRuns_run host { request := given } w
  dsimp only at runs ⊢
  rw [runs, hooked, Bool.and_true, Nat.zero_add]
  cases (run host { request := given } w).2.2.isSuccessful <;> rfl

/-- Lock task mode stops a start with a hook, which has run once when the starter has been tried
twice more with lock task mode off. -/
theorem hookRuns_retry_of_locked :
    let world : World :=
      { hierarchy := Hierarchy.empty.mutate (.addDisplay ⟨0⟩ ⟨0, 0, 1920, 1080⟩) }
    let locked : Host := { environment := fun _ => { violatesLockTask := fun _ => true } }
    let free : Host := { environment := fun _ => {} }
    let info : ActivityInfo := { component := ⟨"mail", "Inbox"⟩, uid := ⟨10010⟩ }
    let given : StartRequest :=
      { intent := .ofComponent info.component
        info := some info
        options := some { abortHook := true } }
    let first := execute locked { request := given } world
    hasHook given = true ∧ given.intent.hasFileDescriptors = false ∧
      first.2.2 = .ok .lockTaskModeViolation ∧
        (retry first.1 [(free, world), (free, world)]).hookRuns = 1 := by
  intro world locked free info given first
  have hooked : hasHook given = true := rfl
  have plain : given.intent.hasFileDescriptors = false := rfl
  have ended : first.2.2 = .ok .lockTaskModeViolation := by decide +kernel
  obtain ⟨result, known, runs⟩ :=
    hookRuns_retry hooked plain locked world [(free, world), (free, world)]
  obtain rfl : result = .lockTaskModeViolation := Except.ok.inj (known.symm.trans ended)
  exact ⟨hooked, plain, ended, runs⟩

/-- A request that passes on a file descriptor is refused, and its hook never runs. -/
theorem not_hookRuns_of_fileDescriptor :
    let host : Host := { environment := fun _ => {} }
    let given : StartRequest :=
      { intent := { component := some ⟨"mail", "Inbox"⟩, extras := [.fileDescriptor "log" 3] }
        options := some { abortHook := true } }
    let first := execute host { request := given } { hierarchy := .empty }
    hasHook given = true ∧ first.2.2 = .error .fileDescriptorsInIntent ∧
      ∀ attempts, (retry first.1 attempts).hookRuns = 0 := by
  intro host given first
  refine ⟨rfl, by decide +kernel, fun attempts => ?_⟩
  have done : first.1.progress ≠ .building := by decide +kernel
  rw [retry_of_done done]
  decide +kernel

end WindowHost.Start
