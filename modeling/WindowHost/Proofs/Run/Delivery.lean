import WindowHost.Proofs.Run.Acts
import WindowHost.Proofs.Start.Clearance

/-! Whom a start hands its intent to. It goes to a running activity of the component that is
launched. The search for one in a reused task does not look at its user, so the activity is of the
user that is launched for as long as no task that is searched so mixes users of the component. -/
namespace WindowHost.Start
open Hierarchy
variable {w w' : World} {env : Environment} {h h' h'' h₀ : Hierarchy} {r : StartRequest}
  {l : Launch} {record a b : ActivityRecord} {j k goal task : NodeId} {c : ComponentName}
  {user : UserId} {out : Option NodeId} {result : StartResult}

/-- An activity that is still there has heard of no new intent. -/
def Unheard (h h' : Hierarchy) (k : NodeId) : Prop :=
  ∀ b, h'.activity? k = some b → ∃ a, h.activity? k = some a ∧ a.newIntents = b.newIntents

theorem Unheard.refl (h : Hierarchy) (k : NodeId) : Unheard h h k :=
  fun a held => ⟨a, held, rfl⟩

theorem Unheard.trans (first : Unheard h h' k) (second : Unheard h' h'' k) :
    Unheard h h'' k := by
  intro c held
  obtain ⟨b, held, later⟩ := second c held
  obtain ⟨a, held, earlier⟩ := first b held
  exact ⟨a, held, earlier.trans later⟩

theorem Unheard.newIntents (unheard : Unheard h h' k) (held : h.activity? k = some a)
    (held' : h'.activity? k = some b) : b.newIntents = a.newIntents := by
  obtain ⟨c, known, same⟩ := unheard b held'
  obtain rfl : a = c := Option.some.inj (held.symm.trans known)
  exact same.symm

theorem unheard_of_kept (kept : Kept h h') (k : NodeId) : Unheard h h' k :=
  fun b held => ⟨b, kept.activity k b held, rfl⟩

theorem unheard_of_sameView (same : SameView h h') (k : NodeId) : Unheard h h' k := by
  intro b held
  obtain ⟨a, held, still⟩ := same.symm.exists_activity? held
  exact ⟨a, held, (congrArg ActivityRecord.newIntents still :)⟩

theorem unheard_propagate (env : Environment) (w : World) (display : NodeId)
    (starting : Option NodeId) (k : NodeId) :
    Unheard w.hierarchy (propagate env w display starting).hierarchy k :=
  unheard_of_sameView (sameView_propagate env w display starting) k

theorem unheard_put (held : w.hierarchy.activity? j = some a)
    (heard : k = j → b.newIntents = a.newIntents) (calls : List Call) :
    Unheard w.hierarchy (w.put j b calls).hierarchy k := by
  intro b' held'
  rcases World.activity?_put_cases held held' with ⟨rfl, rfl⟩ | ⟨_, before⟩
  · exact ⟨a, held, (heard rfl).symm⟩
  · exact ⟨b', before, rfl⟩

theorem unheard_deliver (other : k ≠ j) (intent : Intent) (cookie : Option LaunchCookie) :
    Unheard w.hierarchy (deliver w j intent cookie).hierarchy k := by
  rcases deliver_eq_or w j intent cookie with same | ⟨a, held, same⟩ <;> rw [same]
  · exact .refl w.hierarchy k
  · exact unheard_put held (fun same => absurd same other) _

theorem unheard_leaveCookie (cookie : Option LaunchCookie) :
    Unheard w.hierarchy (leaveCookie w cookie (w.hierarchy.topRunningActivity? j)).hierarchy k := by
  rcases leaveCookie_eq_or w cookie j with same | ⟨i, a, held, _, same⟩ <;> rw [same]
  · exact .refl w.hierarchy k
  · refine unheard_put held (fun _ => ?_) _
    rfl

/-- The task that the start reuses, if it looks there for an instance by the component alone, has
the component running in it for no other user. -/
def Unmixed (given : StartRequest) (h : Hierarchy) (info : ActivityInfo) : Prop :=
  ∀ task, taskToReuse? given h info = some task →
    looksInside (given.effectiveFlags h info) info.launchMode = true →
      ∀ k b, h.activity? k = some b → b.isRunning = true → b.component = info.component →
        Inside h k task → b.userId = info.uid.userId

/-- The activity runs and is of the component, and of the user where users do not mix. -/
structure Meant (given : StartRequest) (h : Hierarchy) (info : ActivityInfo) (a : ActivityRecord) :
    Prop where
  runs : a.isRunning = true
  component : a.component = info.component
  owner : Unmixed given h info → a.userId = info.uid.userId

/-- The activity runs and is of the component, and of the user unless it was met in the reused task
by the component alone. -/
structure Met (r : StartRequest) (h : Hierarchy) (record : ActivityRecord) (k : NodeId)
    (a : ActivityRecord) : Prop where
  runs : a.isRunning = true
  component : a.component = record.component
  owner : a.userId = record.userId ∨ ∃ task, reusableTask? r h record = some task ∧
    looksInside r.intent.flags record.launchMode = true ∧ Inside h k task

theorem met_of_isSameActivity (held : h.activity? k = some a) (runs : a.isRunning = true)
    (same : isSameActivity h record k = true) : Met r h₀ record j a := by
  obtain ⟨b, held', fits⟩ := exists_of_activityHas same
  obtain rfl : a = b := Option.some.inj (held.symm.trans held')
  rw [Bool.and_eq_true, beq_iff_eq, beq_iff_eq] at fits
  exact ⟨runs, fits.1, .inl fits.2⟩

/-- Whoever gets the intent in a reused task is met by it. -/
theorem met_of_reuses (reuses : Reuses r h₀ record l task h) (chosen : l.Of r h₀)
    (formed : h₀.WellFormed) (arrived : arrive h l record task = (h', .deliver k))
    (held : h₀.activity? k = some a) : Met r h₀ record k a := by
  have held' := reuses.activity?_after held
  rcases arrive_deliver arrived with ⟨top, same, _⟩ | ⟨found, _, looks⟩
  · obtain ⟨b, held'', runs⟩ := exists_of_topRunningActivity? top
    obtain rfl : a = b := Option.some.inj (held'.symm.trans held'')
    exact met_of_isSameActivity held' runs same
  -- this search looks at the component alone
  obtain ⟨b, held'', fits⟩ := exists_of_activityHas (List.find?_some found)
  obtain rfl : a = b := Option.some.inj (held'.symm.trans held'')
  rw [Bool.and_eq_true, beq_iff_eq] at fits
  obtain ⟨_, _, _, rfl⟩ := chosen
  have forest := (reuses.wellFormed formed).forest
  have within : Inside h k task :=
    ((forest.mem_activities_iff reuses.isTask_after).mp (List.mem_of_find?_eq_some found)).2
  have inside := (reuses.inside_iff formed (contains_of_activity? held)).mp within
  exact ⟨fits.1, fits.2, .inr ⟨task, reuses.chosen, looks, inside⟩⟩

theorem met_of_deliverableTop? {display : NodeId}
    (found : deliverableTop? h display record = some k) (held : h.activity? k = some a) :
    Met r h record k a := by
  obtain ⟨b, held', runs⟩ := exists_running_of_deliverableTop? found
  obtain rfl : a = b := Option.some.inj (held.symm.trans held')
  unfold deliverableTop? at found
  split at found
  · have fits := (Option.filter_eq_some_iff.mp found).2
    exact met_of_isSameActivity held runs (Bool.and_eq_true_iff.mp fits).2
  · contradiction

theorem Met.meant {host : Host} {given : StartRequest} {info : ActivityInfo} {uid : Uid}
    (met : Met r h (r.newRecord uid info) k a) (admitted : Admitted host given r info h)
    (held : h.activity? k = some a) : Meant given h info a := by
  obtain ⟨runs, component, owner⟩ := met
  refine ⟨runs, component, fun unmixed => ?_⟩
  rcases owner with same | ⟨task, found, looks, inside⟩
  · exact same
  · rw [admitted.taskToReuse?] at found
    rw [admitted.flags] at looks
    exact unmixed task found looks k a held runs component inside

/-- How an activity comes to be handed the intent: it is met in the reused task, or it has the
focus. -/
inductive Addressed (r : StartRequest) (h₀ : Hierarchy) (record : ActivityRecord) :
    NodeId → Prop where
  | reused {l : Launch} {task k : NodeId} {h h' : Hierarchy} (reuses : Reuses r h₀ record l task h)
      (chosen : l.Of r h₀) (arrived : arrive h l record task = (h', .deliver k)) :
      Addressed r h₀ record k
  | topped {display k : NodeId} (found : deliverableTop? h₀ display record = some k) :
      Addressed r h₀ record k

theorem Addressed.met (addressed : Addressed r h₀ record k) (formed : h₀.WellFormed)
    (held : h₀.activity? k = some a) : Met r h₀ record k a := by
  cases addressed with
  | reused reuses chosen arrived => exact met_of_reuses reuses chosen formed arrived held
  | topped found => exact met_of_deliverableTop? found held

/-- The launch ends at the activity and has handed it the intent, once. -/
structure Handed (r : StartRequest) (h₀ h' : Hierarchy) (record : ActivityRecord) (k : NodeId)
    (out : Option NodeId) (result : StartResult) : Prop where
  addressed : Addressed r h₀ record k
  ended : out = some k
  delivered : result = .taskToFront ∨ result = .deliveredToTop
  once : ∀ a b, h₀.activity? k = some a → h'.activity? k = some b →
    b.newIntents = a.newIntents ++ [record.intent]

theorem newIntents_of_deliver (kept : Kept h₀ w.hierarchy) {intent : Intent}
    {cookie : Option LaunchCookie} {display : NodeId} (held : h₀.activity? k = some a)
    (held' : (propagate env (deliver w k intent cookie) display none).hierarchy.activity? k =
      some b) : b.newIntents = a.newIntents ++ [intent] := by
  obtain ⟨c, between, same⟩ := unheard_propagate env _ display none k b held'
  cases found : w.hierarchy.activity? k with
  | none =>
    rw [deliver, if_neg (by simp [isActivity, found]), found] at between
    cases between
  | some d =>
    obtain rfl : a = d := Option.some.inj (held.symm.trans (kept.activity k d found))
    rw [deliver_eq_put found, World.activity?_put found, Option.some.injEq] at between
    exact same.symm.trans (congrArg ActivityRecord.newIntents between).symm

/-- An activity that was there before hears of nothing, or the launch ends at it. -/
theorem unheard_or_handed_of_landing (live : h₀.contains k = true) (kept : Kept h₀ w.hierarchy)
    (landing : Landing env r h₀ record goal w w' out result) :
    Unheard h₀ w'.hierarchy k ∨ Handed r h₀ w'.hierarchy record k out result := by
  have before := unheard_of_kept kept k
  cases landing with
  | failed ks => exact .inl (unheard_of_kept (kept.trans (.foldl_remove ks _)) k)
  | @added l h h' j display _ made front =>
    obtain ⟨_, fresh⟩ := addActivity_eq_ok_iff.mp made
    -- the activity may be gone by now, but its key is not issued again
    have other : k ≠ j := by
      rintro rfl
      rw [← fresh, kept.not_contains_nextId] at live
      contradiction
    have added : Unheard w.hierarchy h k := by
      intro b held
      rw [activity?_addActivity made, if_neg other] at held
      exact ⟨b, held, rfl⟩
    have raised := unheard_of_kept (kept_front front) k
    exact .inl (((before.trans added).trans raised).trans
      (unheard_propagate env { w with hierarchy := h' } _ _ k))
  | @delivered l h j moved chosen _ _ arrived reuses =>
    have cleared : Kept w.hierarchy h := kept_arrive (congrArg Prod.fst arrived)
    by_cases same : k = j
    · subst same
      refine .inr ⟨.reused reuses chosen arrived, rfl, ?_, fun a b held held' => ?_⟩
      · cases moved
        · exact .inr rfl
        · exact .inl rfl
      · exact newIntents_of_deliver (w := { w with hierarchy := h }) (kept.trans cleared) held held'
    · have delivered := unheard_deliver (w := { w with hierarchy := h }) same record.intent l.cookie
      exact .inl (((before.trans (unheard_of_kept cleared k)).trans delivered).trans
        (unheard_propagate _ _ _ _ k))
  | @kept l h moved _ _ _ arrived =>
    have cleared := unheard_of_kept (kept_arrive (congrArg Prod.fst arrived)) k
    have marked :=
      unheard_leaveCookie (w := { w with hierarchy := h }) (k := k) (j := goal) l.cookie
    exact .inl (((before.trans cleared).trans marked).trans (unheard_propagate _ _ _ _ k))
  | @topped l _ found same =>
    by_cases target : k = goal
    · subst target
      have addressed : Addressed r h₀ record k := .topped (same ▸ found)
      refine .inr ⟨addressed, rfl, .inr rfl, fun a b held held' => ?_⟩
      exact newIntents_of_deliver kept held held'
    · have delivered := unheard_deliver (w := w) target record.intent l.cookie
      exact .inl ((before.trans delivered).trans (unheard_propagate _ _ _ _ k))

theorem exists_meant_of_execute {host : Host} {s : Starter}
    {outcome : Except StartError StartResult} (reached : Reachable w.hierarchy)
    (ran : execute host { request := r } w = (s, w', outcome))
    (held : w.hierarchy.activity? k = some a) (held' : w'.hierarchy.activity? k = some b)
    (heard : b.newIntents ≠ a.newIntents) :
    ∃ info, s.request.info = some info ∧ MayLaunch host r info ∧ Meant r w.hierarchy info a := by
  have unheard : ¬ Unheard w.hierarchy w'.hierarchy k :=
    fun unheard => heard (unheard.newIntents held held')
  rcases course_execute ran with ⟨_, rfl, _⟩ | ⟨_, _, course⟩
  · exact absurd (.refl _ k) unheard
  cases course with
  | refused asked =>
    rw [asked.hierarchy] at unheard
    exact absurd (.refl _ k) unheard
  | @placed _ w₁ _ r caller info admitted asked after _ known =>
    rw [after.hierarchy, ← asked.hierarchy] at unheard
    rw [← asked.hierarchy] at reached held
    obtain ⟨w₂, _, approaches, landing, _⟩ := (lands_place host r caller info w₁).exists_landing
    rcases unheard_or_handed_of_landing (contains_of_activity? held) (kept_approaches approaches)
      landing with still | handed
    · exact absurd still unheard
    · have met := handed.addressed.met reached.wellFormed held
      have meant := met.meant admitted held
      rw [asked.hierarchy] at meant
      exact ⟨info, known, admitted.launches, meant⟩

/-- However a run has gone so far, a start hands its intent only to a running activity of the
component that it launches, and of the user where users do not mix. -/
theorem exists_meant_of_afterActs {host : Host} {s : Starter}
    {outcome : Except StartError StartResult} (reached : Reachable w.hierarchy) (acts : List Act)
    (ran : execute host { request := r } (w.afterActs acts) = (s, w', outcome))
    (held : (w.afterActs acts).hierarchy.activity? k = some a)
    (held' : w'.hierarchy.activity? k = some b) (heard : b.newIntents ≠ a.newIntents) :
    ∃ info, s.request.info = some info ∧ MayLaunch host r info ∧
      Meant r (w.afterActs acts).hierarchy info a := by
  have steps : Steps true w (w.afterActs acts) := steps_afterActs acts (fun _ _ _ => rfl) w
  exact exists_meant_of_execute (steps.reached reached) ran held held' heard

/-- A part of the mail application, started for a user. -/
def mailRequest (name : String) (user : UInt32) (flags : List IntentFlag)
    (source : Option NodeId) : StartRequest :=
  let info : ActivityInfo := { component := ⟨"mail", name⟩, uid := ⟨user * 100000 + 10010⟩ }
  { intent := { component := some info.component, flags := flags.foldl .insert .empty }
    info := some info
    resultTo := source }

def mailHost : Host := { environment := fun _ => {} }

def blankWorld : World := { hierarchy := empty.mutate (.addDisplay ⟨0⟩ ⟨0, 0, 1920, 1080⟩) }

/-- The first user's list of mailboxes opens, and above it in its task an inbox of the user. -/
def openInbox (user : UInt32) : List Act :=
  [.start mailHost { request := mailRequest "List" 0 [] none },
    .start mailHost { request := mailRequest "Inbox" user [] (some ⟨5⟩) }]

/-- The first user's inbox is started again from outside. -/
def reopenInbox (w : World) : Starter × World × Except StartError StartResult :=
  execute mailHost
    { request := mailRequest "Inbox" 0 [.newTask, .clearTop, .singleTop] none } w

theorem reachable_blankWorld : Reachable blankWorld.hierarchy := by
  have reached : Reachable (empty.mutate (.addDisplay ⟨0⟩ ⟨0, 0, 1920, 1080⟩)) :=
    Reachable.empty.call _
  exact reached

/-- The second start goes to the inbox that the user has opened. -/
theorem exists_meant_of_openInbox :
    let before := blankWorld.afterActs (openInbox 0)
    ∃ s w' outcome a b info, reopenInbox before = (s, w', outcome) ∧
      before.hierarchy.activity? ⟨6⟩ = some a ∧ w'.hierarchy.activity? ⟨6⟩ = some b ∧
        b.newIntents ≠ a.newIntents ∧ s.request.info = some info ∧ a.isRunning = true ∧
          a.component = info.component ∧ a.userId = info.uid.userId := by
  intro before
  have first : (before.hierarchy.activity? ⟨6⟩).map (·.newIntents.length) = some 0 := by
    decide +kernel
  have second : ((reopenInbox before).2.1.hierarchy.activity? ⟨6⟩).map (·.newIntents.length) =
      some 1 := by decide +kernel
  have single : ∀ k a, before.hierarchy.activity? k = some a → a.userId = ⟨0⟩ :=
    forall_activity_of_lt_next (by decide +kernel)
  have named : (reopenInbox before).1.request.info.map (·.uid.userId) = some ⟨0⟩ := by
    decide +kernel
  obtain ⟨a, held, none⟩ := Option.map_eq_some_iff.mp first
  rcases ran : reopenInbox before with ⟨s, w', outcome⟩
  rw [ran] at second named
  obtain ⟨b, held', one⟩ := Option.map_eq_some_iff.mp second
  have heard : b.newIntents ≠ a.newIntents := by
    intro same
    rw [same, none] at one
    contradiction
  obtain ⟨info, known, _, meant⟩ :=
    exists_meant_of_afterActs reachable_blankWorld (openInbox 0) ran held held' heard
  have owner : info.uid.userId = ⟨0⟩ := by
    rw [known] at named
    exact Option.some.inj named
  refine ⟨s, w', outcome, a, b, info, rfl, held, held', heard, known, meant.runs,
    meant.component, ?_⟩
  exact meant.owner fun _ _ _ k b held _ _ _ => (single k b held).trans owner.symm

/-- An inbox that another user has opened there is taken for the first user's. -/
theorem not_owner_of_openInbox :
    let before := blankWorld.afterActs (openInbox 10)
    Reachable before.hierarchy ∧ ∃ s w' outcome a b info,
      reopenInbox before = (s, w', outcome) ∧ before.hierarchy.activity? ⟨6⟩ = some a ∧
        w'.hierarchy.activity? ⟨6⟩ = some b ∧ b.newIntents ≠ a.newIntents ∧
          s.request.info = some info ∧ a.userId ≠ info.uid.userId := by
  intro before
  have steps : Steps true blankWorld before :=
    steps_afterActs (openInbox 10) (fun _ _ _ => rfl) blankWorld
  have first : (before.hierarchy.activity? ⟨6⟩).map (fun a => (a.userId, a.newIntents.length)) =
      some (⟨10⟩, 0) := by decide +kernel
  have second : ((reopenInbox before).2.1.hierarchy.activity? ⟨6⟩).map (·.newIntents.length) =
      some 1 := by decide +kernel
  have named : (reopenInbox before).1.request.info.map (·.uid.userId) = some ⟨0⟩ := by
    decide +kernel
  obtain ⟨a, held, known⟩ := Option.map_eq_some_iff.mp first
  obtain ⟨owner, none⟩ := Prod.mk.inj known
  rcases ran : reopenInbox before with ⟨s, w', outcome⟩
  rw [ran] at second named
  obtain ⟨b, held', one⟩ := Option.map_eq_some_iff.mp second
  obtain ⟨info, launched, user⟩ := Option.map_eq_some_iff.mp named
  refine ⟨steps.reached reachable_blankWorld, s, w', outcome, a, b, info, rfl, held, held',
    fun same => ?_, launched, ?_⟩
  · rw [same, none] at one
    contradiction
  · rw [owner, user]
    decide

end WindowHost.Start
