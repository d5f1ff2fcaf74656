import WindowHost.Proofs.Run.Follow
import WindowHost.Proofs.Run.Passes
import WindowHost.Proofs.Visibility.Requests

/-! How often the process of an activity is asked for in a run. A change of the focus asks only
where that is not noted in the record yet. A pass looks at the note nowhere, so a run asks once as
long as none of its passes shows the activity again where passes ask. -/
namespace WindowHost
open Hierarchy Visibility
variable {silent : Bool} {w w' u : World} {h h' h'' : Hierarchy} {k : NodeId} {r : ActivityRecord}
  {p : VisibilityParams} {v : Verdict} {vs : List Verdict} {cause : Prop}

/-- What lies between the two hierarchies shows the activity where a pass asks for its process,
whatever is noted in its record. -/
def reopens (h h' : Hierarchy) (k : NodeId) : Bool :=
  h.activityHas (fun r => !r.finishing &&
    (!r.visibleRequested || r.state == .initializing || h'.isForemost k)) k &&
  h'.activityHas (·.visibleRequested) k

/-- A pass of the act may come to the activity and show it. The pass of a start is over the display
that the start ends on, if it ends anywhere. -/
def Act.comesTo (w : World) (k : NodeId) : Act → Bool
  | .updateContainer _ p a | .updateDisplay _ p a =>
    p.starting != some k && w.hierarchy.isDescendantOf k a
  | .updateAll _ p => p.starting != some k
  | .resumeFocused _ => false
  | .start host starter =>
    let ended := Start.execute host starter w
    let h := ended.2.1.hierarchy
    ended.1.outActivity.any fun out => (h.displayOf? out).all (h.displayOf? k == some ·)

/-- The act asks for the process of the activity, whatever is noted in its record. -/
def Act.repeats (w : World) (k : NodeId) (act : Act) : Bool :=
  act.comesTo w k && reopens w.hierarchy (w.act act).hierarchy k

theorem Quiet.requests (quiet : Quiet w w') (k : NodeId) : w'.requests k = w.requests k := by
  obtain ⟨later, made, silent⟩ := quiet
  have none : later.countP (Call.asksFor k) = 0 := by
    refine List.countP_eq_zero.mpr fun call member => ?_
    have silent := silent call member
    cases call <;> simp_all [Call.asksFor, Call.reachesClient]
  rw [World.requests, made, List.countP_append, none]
  rfl

/-- It is noted in the record that the process has been asked for. -/
def Noted (a : Option ActivityRecord) (_ : List Call) : Prop :=
  ∀ r, a = some r → r.restarting = true

theorem follows_noted (silent : Bool) (k : NodeId) : Follows silent k Noted where
  touch r s calls later touch noted := by
    have noted := noted r rfl
    rintro _ ⟨⟩
    cases touch <;> first | exact noted | rfl
  aside a calls later _ noted := noted
  gone a later _ := by
    rintro r ⟨⟩

theorem Steps.noted (steps : Steps silent w w') (issued : k.index < w.hierarchy.nodes.next)
    (noted : Noted (w.hierarchy.activity? k) []) : Noted (w'.hierarchy.activity? k) [] := by
  have followed : Followed k Noted w.calls w := ⟨issued, [], (List.append_nil _).symm, noted⟩
  obtain ⟨_, _, _, noted⟩ := (follows_noted silent k).followed steps followed
  exact noted

/-- Between the two worlds the process of an activity is asked for once at most. Then that is noted
in the end, and there is a cause if it was noted before. -/
structure Once (cause : Prop) (k : NodeId) (w w' : World) : Prop where
  most : w'.requests k = w.requests k ∨ w'.requests k = w.requests k + 1
  noted : w'.requests k ≠ w.requests k → Noted (w'.hierarchy.activity? k) []
  caused : w'.requests k ≠ w.requests k → Noted (w.hierarchy.activity? k) [] → cause

namespace Once

theorem of_same (same : w'.requests k = w.requests k) : Once cause k w w' :=
  ⟨.inl same, fun asked => absurd same asked, fun asked => absurd same asked⟩

theorem imp {reason : Prop} (once : Once cause k w w') (reasons : cause → reason) :
    Once reason k w w' :=
  ⟨once.most, once.noted, fun asked noted => reasons (once.caused asked noted)⟩

/-- What only asks where nothing is noted may follow. -/
theorem trans (first : Once cause k w u) (second : Once False k u w')
    (before : Noted (w.hierarchy.activity? k) [] → Noted (u.hierarchy.activity? k) [])
    (after : Noted (u.hierarchy.activity? k) [] → Noted (w'.hierarchy.activity? k) []) :
    Once cause k w w' := by
  by_cases asked : u.requests k = w.requests k
  · exact ⟨asked ▸ second.most, asked ▸ second.noted,
      fun again noted => (second.caused (asked.symm ▸ again) (before noted)).elim⟩
  · have noted := first.noted asked
    have same : w'.requests k = u.requests k := by
      by_contra again
      exact second.caused again noted
    exact ⟨same ▸ first.most, fun _ => after noted, fun _ => first.caused asked⟩

theorem of_quiet_start (same : u.requests k = w.requests k)
    (before : Noted (w.hierarchy.activity? k) [] → Noted (u.hierarchy.activity? k) [])
    (once : Once cause k u w') : Once cause k w w' :=
  ⟨same ▸ once.most, same ▸ once.noted,
    fun asked noted => once.caused (same ▸ asked) (before noted)⟩

theorem asked (once : Once cause k w u) (asked : Asked u w') : Once cause k w w' := by
  have same := asked.quiet.requests k
  refine ⟨same ▸ once.most, fun again => ?_, fun again => once.caused (same ▸ again)⟩
  rw [asked.hierarchy]
  exact once.noted (same ▸ again)

end Once

theorem once_carryOut (nodup : (vs.map Verdict.activity).Nodup)
    (tops : ∀ v ∈ vs, v.isTop = true → w.hierarchy.isForemost v.activity = true) :
    Once (k ∈ vs.map Verdict.activity ∧ p.starting ≠ some k ∧
      reopens w.hierarchy (carryOut p w vs).hierarchy k = true) k w (carryOut p w vs) := by
  obtain same | ⟨once, v, member, rfl, r, held, asks⟩ :=
    requests_carryOut (p := p) (k := k) nodup w
  · exact .of_same same
  have ended := activity?_carryOut (p := p) nodup member held
  refine ⟨.inr once, fun _ => ?_, fun _ _ => ⟨List.mem_map_of_mem member, asks.apart, ?_⟩⟩
  · rw [ended]
    rintro _ ⟨⟩
    exact asks.noted
  · have foremost := (sameView_carryOut (p := p) vs w).isForemost v.activity
    simp only [reopens, activityHas_of_activity? held, activityHas_of_activity? ended, asks.lasts,
      asks.wanted, foremost, Bool.not_false, Bool.true_and, Bool.and_true, Bool.or_eq_true,
      Bool.not_eq_true', beq_iff_eq]
    obtain top | unwanted | begun := asks.opens
    · exact .inr (tops v member top)
    · exact .inl (.inl unwanted)
    · exact .inl (.inr begun)

theorem once_resumeFocused (w : World) (display : NodeId) :
    Once False k w (resumeFocused w display).1 := by
  cases focus : focusOf? w.hierarchy display with
  | none =>
    rw [resumeFocused_of_none focus]
    exact .of_same rfl
  | some top =>
    obtain ⟨r, held, _⟩ := isRunning_of_focusOf? focus
    let yielded := (rivals w.hierarchy display top).foldl yieldFocus w
    have none : yielded.requests k = w.requests k := requests_foldl_yieldFocus ..
    have kept : yielded.hierarchy.activity? top = some r :=
      (activity?_foldl_yieldFocus (not_mem_rivals w.hierarchy display top) w).trans held
    rw [resumeFocused_of_some focus held]
    split
    · by_cases idle : (Turn.takeFocus top r).calls.countP (Call.asksFor k) = 0
      · exact .of_same (by rw [World.requests_put, idle]; exact none)
      unfold Turn.takeFocus at idle ⊢
      split at idle
      · split at idle <;> exact absurd rfl idle
      split at idle
      · exact absurd rfl idle
      rename_i bare unasked
      rw [if_neg bare, if_neg unasked]
      obtain rfl : top = k := by simpa [Call.asksFor] using idle
      refine ⟨.inr ?_, fun _ => ?_, fun _ noted => unasked (noted r held)⟩
      · rw [World.requests_put]
        simp only [List.countP_singleton, Call.asksFor, beq_self_eq_true, if_true]
        exact congrArg (· + 1) none
      · rw [World.activity?_put kept]
        rintro _ ⟨⟩
        rfl
    · exact .of_same none

theorem reopens_congr (same : SameView h' h'')
    (shown : h''.activityHas (·.visibleRequested) k = h'.activityHas (·.visibleRequested) k) :
    reopens h h'' k = reopens h h' k := by
  rw [reopens, reopens, same.isForemost, shown]

theorem activityHas_resumeFocused (w : World) (display k : NodeId) :
    (resumeFocused w display).1.hierarchy.activityHas (·.visibleRequested) k =
      w.hierarchy.activityHas (·.visibleRequested) k := by
  simpa [activityHas, Option.any_map, Function.comp_def, ActivityRecord.unfocused] using
    congrArg (Option.any (·.visibleRequested)) (unfocused_resumeFocused w display k)

theorem once_propagate (formed : w.hierarchy.WellFormed)
    (issued : k.index < w.hierarchy.nodes.next) (env : Environment) (display : NodeId)
    (starting : Option NodeId) :
    Once (Inside w.hierarchy k display ∧
      reopens w.hierarchy (Start.propagate env w display starting).hierarchy k = true) k w
      (Start.propagate env w display starting) := by
  rw [Start.propagate_eq]
  generalize (env w.calls).keyguardLocked = locked
  let shown := (updateDisplay locked { starting := starting } w display).1
  have steps : Steps true w shown := steps_updateDisplay (fun _ => rfl) w display
  have resumed : Steps true shown (resumeFocused shown display).1 := steps_resumeFocused ..
  have issued' := Nat.lt_of_lt_of_le issued steps.next_le
  have pass : Once (Inside w.hierarchy k display ∧
      reopens w.hierarchy shown.hierarchy k = true) k w shown := by
    simp only [shown, updateDisplay_world (.refl _) display]
    refine (once_carryOut (nodup_displayVerdicts formed.forest display) fun v member top => ?_).imp
      ?_
    · obtain ⟨root, _, found⟩ := List.mem_flatMap.mp member
      exact isForemost_of_mem_verdicts formed.forest found top
    · rintro ⟨met, _, reopened⟩
      obtain ⟨v, member, rfl⟩ := List.mem_map.mp met
      obtain ⟨root, listed, found⟩ := List.mem_flatMap.mp member
      exact ⟨(inside_of_mem_verdicts formed.forest found).trans
        (formed.forest.inside_of_mem_rootTasks listed), reopened⟩
  refine (pass.trans (once_resumeFocused shown display) (steps.noted issued)
    (resumed.noted issued')).imp (And.imp_right fun reopened => ?_)
  rwa [reopens_congr (sameView_resumeFocused shown display)
    (activityHas_resumeFocused shown display k)]

/-- Nothing has been asked for the activity, and it is shown and runs as before. -/
structure Unopened (k : NodeId) (w w' : World) : Prop where
  requests : w'.requests k = w.requests k
  record : ∀ s, w'.hierarchy.activity? k = some s → ∃ r, w.hierarchy.activity? k = some r ∧
    s.finishing = r.finishing ∧ s.visibleRequested = r.visibleRequested ∧ s.state = r.state

theorem Unopened.refl (k : NodeId) (w : World) : Unopened k w w :=
  ⟨rfl, fun s held => ⟨s, held, rfl, rfl, rfl⟩⟩

theorem Unopened.trans (first : Unopened k w u) (second : Unopened k u w') : Unopened k w w' := by
  refine ⟨second.requests.trans first.requests, fun s held => ?_⟩
  obtain ⟨t, between, finishing, wanted, state⟩ := second.record s held
  obtain ⟨r, before, finishing', wanted', state'⟩ := first.record t between
  exact ⟨r, before, finishing.trans finishing', wanted.trans wanted', state.trans state'⟩

theorem unopened_of_opening (opening : Start.Opening w w')
    (issued : k.index < w.hierarchy.nodes.next) : Unopened k w w' := by
  -- a record that is written keeps what matters here
  have written : ∀ {j a b calls}, w.hierarchy.activity? j = some a →
      b.finishing = a.finishing ∧ b.visibleRequested = a.visibleRequested ∧ b.state = a.state →
        calls.countP (Call.asksFor k) = 0 → Unopened k w (w.put j b calls) := by
    intro j a b calls held same silent
    refine ⟨by rw [World.requests_put, silent, Nat.add_zero], fun s found => ?_⟩
    rcases World.activity?_put_cases held found with ⟨rfl, rfl⟩ | ⟨_, before⟩
    · exact ⟨a, held, same⟩
    · exact ⟨s, before, rfl, rfl, rfl⟩
  cases opening with
  | ask asked =>
    refine ⟨asked.quiet.requests k, fun s held => ⟨s, ?_, rfl, rfl, rfl⟩⟩
    rwa [asked.hierarchy] at held
  | reshape kept => exact ⟨rfl, fun s held => ⟨s, kept.activity k s held, rfl, rfl, rfl⟩⟩
  | create added =>
    refine ⟨rfl, fun s held => ⟨s, ?_, rfl, rfl, rfl⟩⟩
    obtain ⟨_, fresh⟩ := addActivity_eq_ok_iff.mp added
    rw [activity?_addActivity added, if_neg] at held
    · exact held
    · rintro rfl
      rw [← fresh] at issued
      exact Nat.lt_irrefl _ issued
  | deliver held => exact written held ⟨rfl, rfl, rfl⟩ rfl
  | mark held => exact written held ⟨rfl, rfl, rfl⟩ rfl

theorem unopened_of_openings (openings : Start.Openings w w')
    (issued : k.index < w.hierarchy.nodes.next) : Unopened k w w' := by
  induction openings with
  | refl => exact .refl k w
  | tail first opening ih =>
    have steps : Steps true w _ := Start.steps_openings first
    exact ih.trans (unopened_of_opening opening (Nat.lt_of_lt_of_le issued steps.next_le))

theorem Unopened.reopens (unopened : Unopened k w u)
    (reopened : WindowHost.reopens u.hierarchy h k = true) :
    WindowHost.reopens w.hierarchy h k = true := by
  unfold WindowHost.reopens at reopened ⊢
  rw [Bool.and_eq_true] at reopened ⊢
  refine reopened.imp_left fun opens => ?_
  obtain ⟨s, found, opens⟩ := exists_of_activityHas opens
  obtain ⟨r, held, finishing, wanted, state⟩ := unopened.record s found
  rw [finishing, wanted, state] at opens
  exact (activityHas_of_activity? held _).trans opens

theorem Pass.exists_verdicts_of_mem {pass : Pass} (member : v ∈ pass.verdicts h) :
    ∃ a, v ∈ Visibility.verdicts pass.locked pass.params h a := by
  unfold Pass.verdicts at member
  split at member
  · exact ⟨_, member⟩
  · obtain ⟨root, _, found⟩ := List.mem_flatMap.mp member
    exact ⟨root, found⟩
  · obtain ⟨display, _, shown⟩ := List.mem_flatMap.mp member
    obtain ⟨root, _, found⟩ := List.mem_flatMap.mp shown
    exact ⟨root, found⟩

theorem Pass.comesTo_of_mem {pass : Pass} (forest : Forest w.hierarchy)
    (member : v ∈ pass.verdicts w.hierarchy)
    (apart : pass.params.starting ≠ some v.activity) :
    pass.act.comesTo w v.activity = true := by
  unfold Pass.verdicts at member
  unfold Pass.act
  split at member
  · simpa [Act.comesTo, apart] using
      forest.isDescendantOf_iff.mpr (inside_of_mem_verdicts forest member)
  · obtain ⟨root, listed, found⟩ := List.mem_flatMap.mp member
    simpa [Act.comesTo, apart] using forest.isDescendantOf_iff.mpr
      ((inside_of_mem_verdicts forest found).trans (forest.inside_of_mem_rootTasks listed))
  · simpa [Act.comesTo] using apart

theorem once_pass (pass : Pass) (formed : w.hierarchy.WellFormed) :
    Once (pass.act.repeats w k = true) k w (w.act pass.act) := by
  have forest := formed.forest
  unfold Act.repeats
  rw [pass.act_eq_carryOut]
  refine (once_carryOut (pass.nodup_verdicts formed) fun v member top => ?_).imp ?_
  · obtain ⟨a, found⟩ := Pass.exists_verdicts_of_mem member
    exact isForemost_of_mem_verdicts forest found top
  · rintro ⟨listed, apart, reopened⟩
    obtain ⟨v, member, rfl⟩ := List.mem_map.mp listed
    rw [Pass.comesTo_of_mem forest member apart, reopened]
    rfl

theorem once_execute (reached : Reachable w.hierarchy) (issued : k.index < w.hierarchy.nodes.next)
    (host : Host) (s : Starter) :
    Once ((Act.start host s).repeats w k = true) k w (Start.execute host s w).2.1 := by
  obtain whole | ⟨u, display, starting, first, after, ends⟩ :=
    Start.exists_propagate_of_execute host s w
  · exact .of_same (unopened_of_openings whole issued).requests
  · have unopened := unopened_of_openings first issued
    have steps : Steps true w u := Start.steps_openings first
    have formed := (steps.reached reached).wellFormed
    have pass := once_propagate formed
      (Nat.lt_of_lt_of_le issued steps.next_le) host.environment display starting
    refine ((pass.of_quiet_start unopened.requests (steps.noted issued)).asked after).imp ?_
    rintro ⟨inside, reopened⟩
    have seen : SameView u.hierarchy (Start.execute host s w).2.1.hierarchy := by
      rw [after.hierarchy]
      exact Start.sameView_propagate ..
    rw [← after.hierarchy] at reopened
    refine (Bool.and_eq_true ..).mpr ⟨?_, unopened.reopens reopened⟩
    obtain ⟨out, ended, here⟩ := ends reached
    simp only [Act.comesTo, ended, Option.any_some, seen.displayOf?]
    cases placed : u.hierarchy.displayOf? out with
    | none => rfl
    | some d =>
      obtain rfl := here d placed
      have shown := isSome_display?_of_displayOf? placed
      rw [Option.all_some, formed.forest.displayOf?_of_inside shown inside, beq_self_eq_true]

/-- An act asks for the process of an activity once at most, and where it has been asked for, only
if the act repeats that. -/
theorem once_act (reached : Reachable w.hierarchy) (issued : k.index < w.hierarchy.nodes.next)
    (act : Act) : Once (act.repeats w k = true) k w (w.act act) := by
  have formed := reached.wellFormed
  cases act with
  | updateContainer locked p a => exact once_pass ⟨locked, p, .container a⟩ formed
  | updateDisplay locked p display => exact once_pass ⟨locked, p, .display display⟩ formed
  | updateAll locked p => exact once_pass ⟨locked, p, .all⟩ formed
  | resumeFocused display => exact (once_resumeFocused w display).imp False.elim
  | start host starter => exact once_execute reached issued host starter

theorem once_afterActs (reached : Reachable w.hierarchy) (issued : k.index < w.hierarchy.nodes.next)
    (acts : List Act) (calm : ∀ i (more : i < acts.length),
      Noted ((w.afterActs (acts.take i)).hierarchy.activity? k) [] →
        acts[i].repeats (w.afterActs (acts.take i)) k = false) :
    Once False k w (w.afterActs acts) := by
  induction acts generalizing w with
  | nil => exact .of_same rfl
  | cons act acts ih =>
    have steps : Steps true w (w.act act) := steps_act w fun _ => rfl
    have issued' := Nat.lt_of_lt_of_le issued steps.next_le
    have later : Steps true (w.act act) ((w.act act).afterActs acts) :=
      steps_afterActs acts (fun _ _ _ => rfl) _
    have rest := ih (steps.reached reached) issued' fun i more =>
      calm (i + 1) (Nat.succ_lt_succ more)
    have first := once_act reached issued act
    have only : Once False k w (w.act act) := ⟨first.most, first.noted, fun asked noted => by
      have repeated := first.caused asked noted
      have none := calm 0 (Nat.zero_lt_succ _) noted
      exact Bool.false_ne_true (none.symm.trans repeated)⟩
    exact only.trans rest (steps.noted issued) (later.noted issued')

/-- In a run in which no act repeats what has been asked for already, the process of an activity is
asked for once at most, and not at all if that was done before the run. -/
theorem requests_afterActs (reached : Reachable w.hierarchy)
    (held : w.hierarchy.activity? k = some r) (acts : List Act)
    (calm : ∀ i (more : i < acts.length),
      (w.afterActs (acts.take i)).hierarchy.activityHas (·.restarting) k = true →
        acts[i].repeats (w.afterActs (acts.take i)) k = false) :
    (w.afterActs acts).requests k ≤ w.requests k + 1 ∧
      (r.restarting = true → (w.afterActs acts).requests k = w.requests k) := by
  have issued := index_lt_next (contains_of_activity? held)
  have once : Once False k w (w.afterActs acts) := by
    refine once_afterActs reached issued acts fun i more noted => ?_
    cases found : (w.afterActs (acts.take i)).hierarchy.activity? k with
    | none => simp [Act.repeats, reopens, activityHas, found]
    | some s =>
      exact calm i more ((activityHas_of_activity? found _).trans (noted s found))
  constructor
  · obtain same | more := once.most
    · omega
    · omega
  · intro asked
    by_contra again
    refine once.caused again ?_
    rw [held]
    rintro _ ⟨⟩
    exact asked

/-- A list without a process lies below a hint that it shows through, and an inbox is then started
above both. The first pass asks for the process of the list. -/
theorem requests_afterActs_of_list :
    let record (name : String) (translucent : Bool) : ActivityRecord :=
      { ActivityRecord.create
          { component := ⟨"mail", name⟩, uid := ⟨10010⟩, translucent := translucent } {} with
        state := .stopped }
    let hint := { record "Hint" true with attached := true }
    let info : ActivityInfo := { component := ⟨"mail", "Inbox"⟩, uid := ⟨10010⟩ }
    let request : StartRequest := { intent := .ofComponent info.component, info := some info }
    let h := ([.addDisplay ⟨0⟩ ⟨0, 0, 1920, 1080⟩, .createRootTask ⟨2⟩ .fullscreen .standard .top,
      .addActivity ⟨3⟩ (record "List" false) .top, .addActivity ⟨3⟩ hint .top] :
        List Mutation).foldl mutate empty
    let pass : Act := .updateDisplay (fun _ => false) {} ⟨1⟩
    let acts := [pass, pass, .resumeFocused ⟨1⟩,
      .start { environment := fun _ => {} } { request := request }, pass]
    let w : World := { hierarchy := h }
    w.requests ⟨4⟩ = 0 ∧ (w.afterActs [pass]).requests ⟨4⟩ = 1 ∧
      (w.afterActs acts).requests ⟨4⟩ ≤ 1 := by
  intro record hint info request h pass acts w
  have reached : Reachable w.hierarchy := Reachable.empty.foldl_mutate _
  have held : w.hierarchy.activity? ⟨4⟩ = some (record "List" false) := by decide +kernel
  have calm : ∀ i (more : i < acts.length),
      (w.afterActs (acts.take i)).hierarchy.activityHas (·.restarting) ⟨4⟩ = true →
        acts[i].repeats (w.afterActs (acts.take i)) ⟨4⟩ = false := by decide +kernel
  exact ⟨rfl, by decide +kernel, (requests_afterActs reached held acts calm).1⟩

/-- A pass asks again and again for the process of an inbox at the top of its task. -/
theorem not_once_of_inbox :
    let record := { ActivityRecord.create { component := ⟨"mail", "Inbox"⟩, uid := ⟨10010⟩ } {} with
      state := .stopped }
    let h := ([.addDisplay ⟨0⟩ ⟨0, 0, 1920, 1080⟩, .createRootTask ⟨2⟩ .fullscreen .standard .top,
      .addActivity ⟨3⟩ record .top] : List Mutation).foldl mutate empty
    let pass : Act := .updateDisplay (fun _ => false) {} ⟨1⟩
    let w : World := { hierarchy := h }
    Reachable h ∧ (w.afterActs [pass, pass]).hierarchy.activityHas (!·.attached) ⟨4⟩ = true ∧
      (w.afterActs [pass]).hierarchy.activityHas (·.restarting) ⟨4⟩ = true ∧
      (w.afterActs [pass]).requests ⟨4⟩ = 1 ∧ (w.afterActs [pass, pass]).requests ⟨4⟩ = 2 := by
  intro record h pass w
  exact ⟨Reachable.empty.foldl_mutate _, by decide +kernel, by decide +kernel, by decide +kernel,
    by decide +kernel⟩

end WindowHost
