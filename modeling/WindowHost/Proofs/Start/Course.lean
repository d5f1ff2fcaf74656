import WindowHost.Proofs.Start.Landing

/-! The course of a whole start. A request is refused before anything is placed, or it is placed on
its own terms, and what comes before and after the placing changes no node. -/
namespace WindowHost.Start
variable {w w' : World} {host : Host} {s t : Starter} {env : Environment} {caller : Caller}
  {given r r' : StartRequest} {info : ActivityInfo} {h : Hierarchy}
  {outcome : Starter × World × StartResult}

/-- A request is for a component that it names, or for one that the packages name at some time where
it names none. -/
def MayLaunch (host : Host) (r : StartRequest) (info : ActivityInfo) : Prop :=
  r.info = some info ∨ r.info = none ∧
    ∃ calls user, (host.environment calls).resolve? r.intent user = some info

/-- What the admission of a request never changes. -/
structure SameTerms (given r : StartRequest) : Prop where
  options : r.options = given.options
  resultTo : r.resultTo = given.resultTo
  requestCode : r.requestCode = given.requestCode
  inTask : r.inTask = given.inTask
  inFragment : r.inFragment = given.inFragment

/-- The request that is placed asks for a component on the terms of the given one, with the flags
that really apply. -/
structure Admitted (host : Host) (given r : StartRequest) (info : ActivityInfo) (h : Hierarchy) :
    Prop where
  terms : SameTerms given r
  names : r.info = some info
  launches : MayLaunch host given info
  flags : r.intent.flags = given.effectiveFlags h info

theorem SameTerms.trans (first : SameTerms given r) (second : SameTerms r r') :
    SameTerms given r' where
  options := second.options.trans first.options
  resultTo := second.resultTo.trans first.resultTo
  requestCode := second.requestCode.trans first.requestCode
  inTask := second.inTask.trans first.inTask
  inFragment := second.inFragment.trans first.inFragment

section
variable (same : SameTerms given r)
include same

theorem SameTerms.source? (h : Hierarchy) : r.source? h = given.source? h := by
  rw [StartRequest.source?, StartRequest.source?, same.resultTo]

theorem SameTerms.wantsResult (h : Hierarchy) : r.wantsResult h = given.wantsResult h := by
  rw [StartRequest.wantsResult, StartRequest.wantsResult, same.source?, same.requestCode]

theorem SameTerms.namesPlace (h : Hierarchy) : r.namesPlace h = given.namesPlace h := by
  simp only [StartRequest.namesPlace, StartRequest.inTask?, StartRequest.inFragment?, same.inTask,
    same.inFragment]

theorem SameTerms.effectiveFlags (flags : r.intent.flags = given.intent.flags) (h : Hierarchy)
    (info : ActivityInfo) : r.effectiveFlags h info = given.effectiveFlags h info := by
  rw [StartRequest.effectiveFlags, StartRequest.effectiveFlags, same.source?, same.namesPlace,
    flags]

end

/-- A start that makes no new task is asked for by an activity that shares its task, for one that
does so too. -/
theorem shared_of_effectiveFlags
    (same : (r.effectiveFlags h info).has .newTask = false) :
    info.launchMode.requiresNewTask = false ∧ ∀ source a, r.source? h = some source →
      h.activity? source = some a → a.launchMode ≠ .singleInstance := by
  unfold StartRequest.effectiveFlags at same
  dsimp only at same
  split at same
  · rw [Flags.has_insert] at same
    contradiction
  · rename_i kept
    simp only [Bool.or_eq_true, not_or, Bool.not_eq_true] at kept
    obtain ⟨⟨⟨_, plain⟩, shares⟩, _⟩ := kept
    refine ⟨plain, fun source a known held alone => ?_⟩
    simp [known, Hierarchy.activityHas, held, alone] at shares

inductive Course (host : Host) (s : Starter) (w : World) :
    Starter × World × StartResult → Prop where
  | refused {s' : Starter} {w' : World} {result : StartResult} (asked : Asked w w')
      (out : s'.outActivity = s.outActivity) (fails : result.isSuccessful = false) :
      Course host s w (s', w', result)
  | placed {s' : Starter} {w₁ w' : World} {r : StartRequest} {caller : Caller}
      {info : ActivityInfo} (admitted : Admitted host s.request r info w₁.hierarchy)
      (before : Asked w w₁) (after : Asked (place host r caller info w₁).1.world w')
      (out : s'.outActivity = (place host r caller info w₁).1.outActivity)
      (known : s'.request.info = some info) :
      Course host s w (s', w', (place host r caller info w₁).2)

theorem Course.before (course : Course host t w' outcome) (asked : Asked w w')
    (out : t.outActivity = s.outActivity) (terms : ∀ {r info h},
      Admitted host t.request r info h → Admitted host s.request r info h) :
    Course host s w outcome := by
  cases course with
  | refused further same fails => exact .refused (asked.trans further) (same.trans out) fails
  | placed admitted before after same known =>
    exact .placed (terms admitted) (asked.trans before) after same known

theorem info_post {activity rootTask : Option NodeId} {result : StartResult} :
    (Start.post s w activity result rootTask).1.request.info = s.request.info := by
  unfold Start.post releaseFailed Starter.abort
  dsimp only
  split
  · rfl
  · dsimp only
    split
    · split <;> rfl
    · rfl

theorem Course.post {result : StartResult} (course : Course host s w (t, w', result))
    (activity rootTask : Option NodeId) :
    Course host s w ((Start.post t w' activity result rootTask).1,
      (Start.post t w' activity result rootTask).2, result) := by
  cases course with
  | refused asked out fails =>
    exact .refused (asked.trans asked_post) (outActivity_post.trans out) fails
  | placed admitted before after out known =>
    exact .placed admitted before (after.trans asked_post) (outActivity_post.trans out)
      (info_post.trans known)

theorem request_engageFreeze : (engageFreeze env caller s w).1.request = s.request := by
  unfold engageFreeze
  dsimp only
  split <;> rfl

/-- The request with what the preconditions may fill in: the component, and a category. -/
structure Filled (given r : StartRequest) : Prop where
  terms : SameTerms given r
  flags : r.intent.flags = given.intent.flags

theorem filled_checkVoiceSource (env : Environment) (component : ComponentName)
    (info : ActivityInfo) (r : StartRequest) (w : World) :
    Filled r (checkVoiceSource env component info r w).1 ∧
      (checkVoiceSource env component info r w).1.info = r.info := by
  unfold checkVoiceSource
  split
  · refine ⟨⟨⟨rfl, rfl, rfl, rfl, rfl⟩, ?_⟩, rfl⟩
    show (r.intent.addCategory Intent.voiceCategory).flags = r.intent.flags
    unfold Intent.addCategory
    split <;> rfl
  · exact ⟨⟨⟨rfl, rfl, rfl, rfl, rfl⟩, rfl⟩, rfl⟩

theorem mayLaunch_of_resolveInfo
    (resolved : resolveInfo host.environment caller r w = (w', some info)) :
    MayLaunch host r info := by
  unfold resolveInfo at resolved
  split at resolved
  · rename_i known
    cases resolved
    exact .inl known
  · rename_i missing
    exact .inr ⟨missing, w.calls, caller.uid.userId, (Prod.mk.inj resolved).2⟩

/-- What the preconditions refuse is no success, and what they let through is for a component that
the request may launch. -/
theorem checkPreconditions_spec (host : Host) (caller : Caller) (r : StartRequest) (w : World) :
    (∀ result, (checkPreconditions host.environment caller r w).2.2 = .error result →
        result.isSuccessful = false) ∧
      ∀ info, (checkPreconditions host.environment caller r w).2.2 = .ok info →
        Filled r (checkPreconditions host.environment caller r w).1 ∧
          (checkPreconditions host.environment caller r w).1.info = some info ∧
            MayLaunch host r info := by
  unfold checkPreconditions
  split
  · exact ⟨by rintro _ ⟨⟩; rfl, by simp⟩
  split
  · exact ⟨by rintro _ ⟨⟩; rfl, by simp⟩
  split
  · exact ⟨by rintro _ ⟨⟩; rfl, by simp⟩
  rename_i component named
  split
  · exact ⟨by rintro _ ⟨⟩; rfl, by simp⟩
  rename_i found info resolved
  have may := mayLaunch_of_resolveInfo resolved
  obtain ⟨filled, known⟩ := filled_checkVoiceSource host.environment component info
    { r with info := some info } found
  split <;> rename_i voiced <;> rw [voiced] at filled known
  · exact ⟨by rintro _ ⟨⟩; rfl, by simp⟩
  split
  · exact ⟨by rintro _ ⟨⟩; rfl, by simp⟩
  split
  · exact ⟨by rintro _ ⟨⟩; rfl, by simp⟩
  · refine ⟨by simp, ?_⟩
    rintro _ ⟨⟩
    obtain ⟨⟨options, resultTo, code, inTask, inFragment⟩, flags⟩ := filled
    exact ⟨⟨⟨options, resultTo, code, inTask, inFragment⟩, flags⟩, known, may⟩

/-- A request that the preconditions have filled in is placed on the terms of the given one. -/
theorem Filled.admitted {launched : ActivityInfo} (filled : Filled given r)
    (known : r.info = some launched) (may : MayLaunch host given launched)
    (admitted : Admitted host r r' info h) : Admitted host given r' info h where
  terms := filled.terms.trans admitted.terms
  names := admitted.names
  launches := by
    have named : r.info = some info := by
      rcases admitted.launches with named | ⟨missing, _⟩
      · exact named
      · rw [known] at missing
        contradiction
    rw [known, Option.some.injEq] at named
    rwa [← named]
  flags := admitted.flags.trans (filled.terms.effectiveFlags filled.flags h info)

theorem course_decideAndPlace (known : s.request.info = some info) :
    Course host s w (decideAndPlace host caller info s w) := by
  unfold decideAndPlace
  dsimp only
  generalize same : (if host.options.logsStarts = true then w.emit _ else w) = logged
  have asked : Asked w logged := by
    rw [← same]
    split
    · exact asked_emit w rfl
    · exact .refl w
  split
  · exact .refused asked rfl rfl
  · exact .placed ⟨⟨rfl, rfl, rfl, rfl, rfl⟩, known, .inl known, rfl⟩ asked (.refl _) rfl known

theorem course_admission : Course host s w (admission host caller s w) := by
  have checked : Asked w (checkPreconditions host.environment caller s.request w).2.1 :=
    asked_checkPreconditions
  obtain ⟨fails, admits⟩ := checkPreconditions_spec host caller s.request w
  unfold admission
  split <;> rename_i found <;> rw [found] at checked fails admits
  · exact .refused checked rfl (fails _ rfl)
  · obtain ⟨filled, known, may⟩ := admits _ rfl
    exact (course_decideAndPlace known).before checked rfl (filled.admitted known may)

theorem course_run (host : Host) (s : Starter) (w : World) : Course host s w (run host s w) := by
  rw [run_eq]
  have frozen : Asked w (engageFreeze host.environment
      (s.request.resolveCaller (host.environment w.calls)) s w).2 := asked_engageFreeze
  refine (course_admission.before frozen outActivity_engageFreeze fun admitted => ?_).post _ _
  rwa [request_engageFreeze] at admitted

/-- A starter is turned away at once, or its start takes its course. -/
theorem course_execute {ended : Except StartError StartResult}
    (ran : execute host s w = (t, w', ended)) :
    (t.outActivity = s.outActivity ∧ w' = w ∧ ∃ e, ended = .error e) ∨
      ∃ result, ended = .ok result ∧ Course host s w (t, w', result) := by
  unfold execute at ran
  split at ran
  · cases ran
    exact .inl ⟨rfl, rfl, _, rfl⟩
  split at ran
  · cases ran
    exact .inl ⟨rfl, rfl, _, rfl⟩
  · have course := course_run host s w
    generalize run host s w = done at course ran
    cases ran
    refine .inr ⟨_, rfl, ?_⟩
    cases course with
    | refused asked out fails => exact .refused asked out fails
    | placed admitted before after out known => exact .placed admitted before after out known

/-- A starter that is turned away does nothing. -/
theorem exists_course_execute (host : Host) (s : Starter) (w : World) :
    (execute host s w).2.1 = w ∨
      ∃ result, Course host s w ((execute host s w).1, (execute host s w).2.1, result) := by
  rcases ran : execute host s w with ⟨t, w', ended⟩
  rcases course_execute ran with ⟨_, same, _⟩ | ⟨result, _, course⟩
  · exact .inl same
  · exact .inr ⟨result, course⟩

/-- What the admission and the placing of a start leave to its report. -/
structure SameBooks (s t : Starter) : Prop where
  froze : t.froze = s.froze
  callerIsRecents : t.callerIsRecents = s.callerIsRecents
  options : t.request.options = s.request.options
  hookRuns : t.hookRuns = s.hookRuns

theorem options_checkPreconditions (env : Environment) (caller : Caller) (r : StartRequest)
    (w : World) : (checkPreconditions env caller r w).1.options = r.options := by
  unfold checkPreconditions
  split
  · rfl
  split
  · rfl
  split
  · rfl
  rename_i component _
  split
  · rfl
  rename_i found info _
  obtain ⟨filled, _⟩ :=
    filled_checkVoiceSource env component info { r with info := some info } found
  split <;> rename_i voiced <;> rw [voiced] at filled
  · exact filled.terms.options
  split
  · exact filled.terms.options
  split
  · exact filled.terms.options
  · exact filled.terms.options

theorem sameBooks_decideAndPlace : SameBooks s (decideAndPlace host caller info s w).1 := by
  unfold decideAndPlace
  dsimp only
  split <;> exact ⟨rfl, rfl, rfl, rfl⟩

theorem sameBooks_admission : SameBooks s (admission host caller s w).1 := by
  have kept := options_checkPreconditions host.environment caller s.request w
  unfold admission
  split <;> rename_i r w' _ known <;> rw [known] at kept
  · exact ⟨rfl, rfl, kept, rfl⟩
  · rename_i info
    have books : SameBooks { s with request := r }
        (decideAndPlace host caller info { s with request := r } w').1 := sameBooks_decideAndPlace
    exact ⟨books.froze, books.callerIsRecents, books.options.trans kept, books.hookRuns⟩

end WindowHost.Start
