import WindowHost.Proofs.Run.Steps
import WindowHost.Proofs.Start.Clearance

/-! A start in steps, whatever its request. -/
namespace WindowHost.Start
open Hierarchy Visibility
variable {silent : Bool} {w w' : World} {env : Environment} {k task goal : NodeId}
  {record : ActivityRecord} {h h' h₀ : Hierarchy} {l : Launch} {r : StartRequest}
  {out : Option NodeId} {result : StartResult}

theorem fresh_newRecord (r : StartRequest) (uid : Uid) (info : ActivityInfo) :
    (r.newRecord uid info).Fresh :=
  ⟨rfl, rfl, rfl, rfl, rfl, rfl⟩

theorem propagate_eq (env : Environment) (w : World) (display : NodeId)
    (starting : Option NodeId) : propagate env w display starting =
      (resumeFocused (updateDisplay (env w.calls).keyguardLocked { starting := starting } w
        display).1 display).1 :=
  rfl

theorem steps_propagate (env : Environment) (w : World) (display : NodeId)
    (starting : Option NodeId) : Steps silent w (propagate env w display starting) :=
  (steps_updateDisplay (by simp) w display).trans (steps_resumeFocused _ display)

theorem sameView_propagate (env : Environment) (w : World) (display : NodeId)
    (starting : Option NodeId) :
    SameView w.hierarchy (propagate env w display starting).hierarchy := by
  rw [propagate_eq]
  exact (sameView_updateDisplay _ _ w display).trans (sameView_resumeFocused _ display)

theorem deliver_eq_put {a : ActivityRecord} (held : w.hierarchy.activity? k = some a)
    (intent : Intent) (cookie : Option LaunchCookie) :
    deliver w k intent cookie =
      w.put k { a.deliverNewIntent intent with launchCookie := cookie.or a.launchCookie }
        [.transaction k .newIntent] := by
  unfold deliver
  rw [if_pos (by simp [isActivity, held]), World.modifyActivity_eq_put held, World.send_put]
  rfl

theorem leaveCookie_eq_put {a : ActivityRecord} (held : w.hierarchy.activity? k = some a)
    (cookie : Option LaunchCookie) : leaveCookie w cookie (some k) =
      w.put k { a with launchCookie := cookie.or a.launchCookie } [] :=
  World.modifyActivity_eq_put held _

theorem deliver_eq_or (w : World) (k : NodeId) (intent : Intent) (cookie : Option LaunchCookie) :
    deliver w k intent cookie = w ∨ ∃ a, w.hierarchy.activity? k = some a ∧
      deliver w k intent cookie =
        w.put k { a.deliverNewIntent intent with launchCookie := cookie.or a.launchCookie }
          [.transaction k .newIntent] := by
  cases held : w.hierarchy.activity? k with
  | none =>
    left
    rw [deliver, if_neg (by simp [isActivity, held])]
  | some a => exact .inr ⟨a, rfl, deliver_eq_put held intent cookie⟩

theorem leaveCookie_eq_or (w : World) (cookie : Option LaunchCookie) (task : NodeId) :
    leaveCookie w cookie (w.hierarchy.topRunningActivity? task) = w ∨
      ∃ k a, w.hierarchy.activity? k = some a ∧ a.isRunning = true ∧
        leaveCookie w cookie (w.hierarchy.topRunningActivity? task) =
          w.put k { a with launchCookie := cookie.or a.launchCookie } [] := by
  cases top : w.hierarchy.topRunningActivity? task with
  | none => exact .inl rfl
  | some k =>
    obtain ⟨a, held, runs⟩ := exists_of_topRunningActivity? top
    exact .inr ⟨k, a, held, runs, leaveCookie_eq_put held cookie⟩

theorem sameFrame_propagate (env : Environment) (w : World) (display : NodeId)
    (starting : Option NodeId) :
    SameFrame w.hierarchy (propagate env w display starting).hierarchy :=
  sameFrame_of_sameView (sameView_propagate env w display starting)

theorem sameFrame_deliver (w : World) (k : NodeId) (intent : Intent)
    (cookie : Option LaunchCookie) :
    SameFrame w.hierarchy (deliver w k intent cookie).hierarchy := by
  rcases deliver_eq_or w k intent cookie with same | ⟨a, _, same⟩ <;> rw [same]
  · exact .refl w.hierarchy
  · exact sameFrame_modifyActivity ..

theorem sameFrame_leaveCookie (w : World) (cookie : Option LaunchCookie) (top : Option NodeId) :
    SameFrame w.hierarchy (leaveCookie w cookie top).hierarchy := by
  cases top with
  | none => exact .refl w.hierarchy
  | some k => exact sameFrame_modifyActivity ..

/-- The way of a launch to its place leaves every record as it was. -/
theorem kept_approach (approach : Approach w w') : Kept w.hierarchy w'.hierarchy := by
  cases approach with
  | ask asked => exact asked.hierarchy ▸ .refl _
  | root found => exact .getOrCreateRootTask found
  | task made => exact .createTask made
  | bounds task layout =>
    unfold applyBounds
    split
    · split
      · exact .boundTask _ task _
      · exact .refl _
    · exact .refl _
  | raise live => exact .moveTaskToFront _ _
  | move live moved => exact .reparent moved live
  | clear leaves => exact .foldl_remove _ _

theorem kept_approaches (approaches : Approaches w w') : Kept w.hierarchy w'.hierarchy := by
  induction approaches with
  | refl => exact .refl _
  | tail _ approach ih => exact ih.trans (kept_approach approach)

/-- One thing that a start may do before its last pass. -/
inductive Opening : World → World → Prop where
  | ask {w w' : World} (asked : Asked w w') : Opening w w'
  | reshape {w : World} {h : Hierarchy} (kept : Kept w.hierarchy h) :
      Opening w { w with hierarchy := h }
  | create {w : World} {h : Hierarchy} {parent k : NodeId} {record : ActivityRecord}
      (added : w.hierarchy.addActivity parent record .top = .ok (h, k)) (fresh : record.Fresh) :
      Opening w { w with hierarchy := h }
  | deliver {w : World} {k : NodeId} {a : ActivityRecord} (held : w.hierarchy.activity? k = some a)
      (runs : a.isRunning = true) (intent : Intent) (cookie : Option LaunchCookie) :
      Opening w (w.put k { a.deliverNewIntent intent with launchCookie := cookie.or a.launchCookie }
        [.transaction k .newIntent])
  | mark {w : World} {k : NodeId} {a : ActivityRecord} (held : w.hierarchy.activity? k = some a)
      (runs : a.isRunning = true) (cookie : Option LaunchCookie) :
      Opening w (w.put k { a with launchCookie := cookie.or a.launchCookie } [])

abbrev Openings : World → World → Prop := Relation.ReflTransGen Opening

theorem Opening.step (opening : Opening w w') : Step silent w w' := by
  cases opening with
  | ask asked => exact .ask asked
  | reshape kept => exact .reshape kept
  | create added fresh => exact .create added fresh
  | deliver held runs intent cookie => exact .touch held (.deliver runs intent cookie)
  | mark held runs cookie => exact .touch held (.mark runs cookie)

theorem steps_openings (openings : Openings w w') : Steps silent w w' := by
  induction openings with
  | refl => exact .refl
  | tail _ opening ih => exact ih.tail opening.step

theorem opening_approach (approach : Approach w w') : Opening w w' := by
  have kept := kept_approach approach
  cases approach with
  | ask asked => exact .ask asked
  | root | task | bounds | raise | move | clear => exact .reshape kept

theorem openings_approaches (approaches : Approaches w w') : Openings w w' := by
  induction approaches with
  | refl => exact .refl
  | tail _ approach ih => exact ih.tail (opening_approach approach)

theorem steps_approaches (approaches : Approaches w w') : Steps silent w w' :=
  steps_openings (openings_approaches approaches)

theorem openings_deliver (runs : ∀ a, w.hierarchy.activity? k = some a → a.isRunning = true)
    (intent : Intent) (cookie : Option LaunchCookie) :
    Openings w (deliver w k intent cookie) := by
  rcases deliver_eq_or w k intent cookie with same | ⟨a, held, same⟩ <;> rw [same]
  exact .single (.deliver held (runs a held) intent cookie)

theorem openings_leaveCookie (cookie : Option LaunchCookie) :
    Openings w (leaveCookie w cookie (w.hierarchy.topRunningActivity? task)) := by
  rcases leaveCookie_eq_or w cookie task with same | ⟨k, a, held, runs, same⟩ <;> rw [same]
  exact .single (.mark held runs cookie)

theorem exists_root_of_deliverableTop? {display : NodeId}
    (found : deliverableTop? h display record = some k) :
    ∃ root, h.focusedRootTask? display = some root ∧ h.topRunningActivity? root = some k := by
  unfold deliverableTop? at found
  split at found
  · exact Option.bind_eq_some_iff.mp (Option.filter_eq_some_iff.mp found).1
  · contradiction

theorem exists_running_of_deliverableTop? {display : NodeId}
    (found : deliverableTop? h display record = some k) :
    ∃ a, h.activity? k = some a ∧ a.isRunning = true := by
  obtain ⟨_, _, top⟩ := exists_root_of_deliverableTop? found
  exact exists_of_topRunningActivity? top

theorem kept_front (front : h' = if l.movesToFront then (h.moveTaskToFront k).1 else h) :
    Kept h h' := by
  rw [front]
  split
  · exact .moveTaskToFront h k
  · exact .refl h

theorem kept_arrive (arrived : (arrive h l record task).1 = h') : Kept h h' := by
  obtain ⟨ks, _, cleared⟩ := exists_cleared_arrive h l record task
  rw [← arrived, cleared]
  exact .foldl_remove ks h

/-- The display that is chosen is there. -/
theorem isSome_display?_of_chosen (chosen : l.Of r h₀) (formed : h₀.WellFormed) :
    (h₀.display? l.display).isSome = true := by
  obtain ⟨layout, display, found, rfl⟩ := chosen
  refine Option.isSome_iff_exists.mpr (formed.listed.mp ?_)
  have named : ∀ {id d}, h₀.displayWithId? id = some d → d ∈ h₀.displays :=
    List.mem_of_find?_eq_some
  change display ∈ h₀.displays
  unfold launchDisplay? at found
  rcases Option.or_eq_some_iff.mp found with asked | ⟨_, focused⟩
  · rcases Option.or_eq_some_iff.mp asked with preferred | ⟨_, source⟩
    · obtain ⟨_, _, found⟩ := Option.bind_eq_some_iff.mp preferred
      exact named found
    · obtain ⟨_, _, found⟩ := Option.bind_eq_some_iff.mp source
      exact named found
  · exact List.mem_of_getLast? focused

/-- The launch ends at an activity. Where that is on a display, it is the one given. -/
def EndsOn (h : Hierarchy) (out : Option NodeId) (display : NodeId) : Prop :=
  ∃ k, out = some k ∧ ∀ d, h.displayOf? k = some d → d = display

/-- It is enough that the activity is where the place is that the launch has come to. -/
theorem endsOn_of_displayOf? {last : NodeId} (there : h.displayOf? k = h'.displayOf? goal) :
    EndsOn h (some k) ((h'.displayOf? goal).getD last) := by
  refine ⟨k, rfl, fun d placed => ?_⟩
  rw [← there, placed, Option.getD_some]

theorem endsOn_added {display : NodeId} (formed : h₀.WellFormed)
    (made : h₀.addActivity goal record .top = .ok (h, k))
    (front : h' = if l.movesToFront then (h.moveTaskToFront goal).1 else h)
    (shown : display = (h'.displayOf? k).getD l.display ∨
      display = (h₀.displayOf? goal).getD l.display) : EndsOn h' (some k) display := by
  have formed' : h.WellFormed := formed.addActivity made
  have placed : h'.displayOf? k = h₀.displayOf? goal := by
    have under : h.displayOf? k = h₀.displayOf? goal := by
      rw [formed'.forest.displayOf?_of_parent (parent?_addActivity made)]
      exact displayOf?_parent_insertUnder formed.forest formed'.forest
        (addActivity_eq_ok_iff.mp made).1
    rw [front]
    split
    · exact (displayOf?_moveTaskToFront ..).trans under
    · exact under
  rcases shown with same | same <;> rw [same]
  · exact endsOn_of_displayOf? rfl
  · exact endsOn_of_displayOf? placed

theorem endsOn_of_top (formed : h.WellFormed) (live : h.isTask task = true)
    (top : h.topRunningActivity? task = some k) (frame : SameFrame h h') (last : NodeId) :
    EndsOn h' (some k) ((h.displayOf? task).getD last) := by
  have forest := formed.forest
  have inside := ((forest.mem_activities_iff live).mp (List.mem_of_find?_eq_some top)).2
  refine endsOn_of_displayOf? ?_
  rw [frame.displayOf? forest (formed.of_sameFrame frame).forest,
    forest.displayOf?_eq_of_inside inside]

theorem endsOn_topped {display : NodeId} (formed : h.WellFormed)
    (shown : (h.display? display).isSome = true)
    (found : deliverableTop? h display record = some k) (frame : SameFrame h h') :
    EndsOn h' (some k) display := by
  refine ⟨k, rfl, fun d placed => ?_⟩
  rw [frame.displayOf? formed.forest (formed.of_sameFrame frame).forest] at placed
  obtain ⟨root, focused, top⟩ := exists_root_of_deliverableTop? found
  have listed := mem_rootTasks_of_focusedRootTask? focused
  have task := (mem_rootTasks.mp listed).1
  have inside := ((formed.forest.mem_activities_iff task).mp (List.mem_of_find?_eq_some top)).2
  have here := formed.forest.displayOf?_of_inside shown
    (inside.trans (formed.forest.inside_of_mem_rootTasks listed))
  exact Option.some.inj (placed.symm.trans here)

/-- A launch ends with its last pass, which is for the display that it ends on, unless it fails. -/
theorem exists_propagate_of_landing (fresh : record.Fresh)
    (landing : Landing env r h₀ record goal w w' out result) :
    Openings w w' ∨ ∃ u display starting,
      w' = propagate env u display starting ∧ Openings w u ∧
        (h₀.WellFormed → w.hierarchy.WellFormed → EndsOn u.hierarchy out display) := by
  cases landing with
  | failed ks => exact .inl (.single (.reshape (.foldl_remove ks _)))
  | @added l h h' k display _ made front shown =>
    have created : Openings w { w with hierarchy := h } := .single (.create made fresh)
    exact .inr ⟨_, _, _, rfl, created.tail (.reshape (kept_front front)),
      fun _ formed => endsOn_added formed made front shown⟩
  | @delivered l h k moved _ live _ arrived reuses =>
    have kept : Kept w.hierarchy h := kept_arrive (congrArg Prod.fst arrived)
    obtain ⟨a, held, runs⟩ := exists_running_of_arrive arrived
    refine .inr ⟨_, _, _, rfl, (Relation.ReflTransGen.single (.reshape kept)).trans
      (openings_deliver (fun b found => ?_) ..), fun formed₀ formed => ?_⟩
    · have same := kept.activity k b found
      rw [held, Option.some.injEq] at same
      rwa [← same]
    · have standing := (reuses.cleared formed₀ (congrArg Prod.fst arrived)).1
      have frame := sameFrame_deliver { w with hierarchy := h } k record.intent l.cookie
      have top := topRunningActivity?_arrive formed.forest live arrived
      exact endsOn_of_top standing.formed standing.task top frame l.display
  | @kept l h moved _ live _ arrived reuses =>
    have kept : Kept w.hierarchy h := kept_arrive (congrArg Prod.fst arrived)
    refine .inr ⟨_, _, _, rfl, (Relation.ReflTransGen.single (.reshape kept)).trans
      (openings_leaveCookie l.cookie), fun formed₀ formed => ?_⟩
    obtain rfl : h = w.hierarchy := arrive_keep arrived
    obtain ⟨k, _, top, _⟩ := reuses.exists_topRunningActivity? formed₀
    have frame := sameFrame_leaveCookie w l.cookie (w.hierarchy.topRunningActivity? goal)
    rw [top] at frame ⊢
    exact endsOn_of_top formed live top frame l.display
  | @topped l chosen found same =>
    refine .inr ⟨_, _, _, rfl, openings_deliver (fun b held => ?_) .., fun formed₀ formed => ?_⟩
    · obtain ⟨a, same, runs⟩ := exists_running_of_deliverableTop? found
      rw [held, Option.some.injEq] at same
      rwa [same]
    · have shown := isSome_display?_of_chosen chosen formed₀
      rw [← same] at shown
      exact endsOn_topped formed shown found (sameFrame_deliver w goal record.intent l.cookie)

theorem exists_propagate_of_place (host : Host) (r : StartRequest) (caller : Caller)
    (info : ActivityInfo) (w : World) :
    Openings w (place host r caller info w).1.world ∨ ∃ u display starting,
      (place host r caller info w).1.world = propagate host.environment u display starting ∧
        Openings w u ∧ (Reachable w.hierarchy →
          EndsOn u.hierarchy (place host r caller info w).1.outActivity display) := by
  obtain ⟨_, _, approaches, landing, _⟩ := (lands_place host r caller info w).exists_landing
  have came := openings_approaches approaches
  obtain whole | ⟨u, display, starting, ends, first, here⟩ :=
    exists_propagate_of_landing (fresh_newRecord r caller.uid info) landing
  · exact .inl (came.trans whole)
  · refine .inr ⟨u, display, starting, ends, came.trans first, fun reached => ?_⟩
    exact here reached.wellFormed ((kept_approaches approaches).reached reached).wellFormed

/-- A start ends with its last pass, which is for the display that it ends on, and its report,
unless it places nothing. -/
theorem exists_propagate_of_execute (host : Host) (s : Starter) (w : World) :
    Openings w (execute host s w).2.1 ∨ ∃ u display starting, Openings w u ∧
      Asked (propagate host.environment u display starting) (execute host s w).2.1 ∧
        (Reachable w.hierarchy → EndsOn u.hierarchy (execute host s w).1.outActivity display) := by
  rcases exists_course_execute host s w with same | ⟨result, course⟩
  · rw [same]
    exact .inl .refl
  generalize execute host s w = ended at course
  cases course with
  | refused asked => exact .inl (.single (.ask asked))
  | @placed _ w₁ _ r caller info _ before after out =>
    have came : Openings w w₁ := .single (.ask before)
    obtain whole | ⟨u, display, starting, ends, first, here⟩ :=
      exists_propagate_of_place host r caller info w₁
    · exact .inl ((came.trans whole).tail (.ask after))
    · refine .inr ⟨u, display, starting, came.trans first, ends ▸ after, fun reached => ?_⟩
      rw [out]
      exact here (before.hierarchy ▸ reached)

theorem steps_execute (host : Host) (s : Starter) (w : World) :
    Steps silent w (execute host s w).2.1 := by
  obtain whole | ⟨u, display, starting, first, after, _⟩ := exists_propagate_of_execute host s w
  · exact steps_openings whole
  · exact ((steps_openings first).trans (steps_propagate ..)).tail (.ask after)

theorem exists_running_of_propagate {display : NodeId} {starting : Option NodeId}
    {a : ActivityRecord} (held : w.hierarchy.activity? k = some a) (runs : a.isRunning = true) :
    ∃ b, (propagate env w display starting).hierarchy.activity? k = some b ∧
      b.isRunning = true := by
  obtain ⟨b, found, still⟩ :=
    (sameView_propagate env w display starting).exists_activity? held
  exact ⟨b, found, (ActivityRecord.isRunning_eq_of_still still).trans runs⟩

theorem exists_running_of_landing (forest : Forest w.hierarchy) (fresh : record.Fresh)
    (landing : Landing env r h₀ record goal w w' out result) (ended : out = some k) :
    ∃ a, w'.hierarchy.activity? k = some a ∧ a.isRunning = true := by
  cases landing with
  | failed => contradiction
  | @added l h h' j display _ made front =>
    cases ended
    have held : h'.activity? k = some record := by
      have placed : h.activity? k = some record := by
        rw [activity?_addActivity made, if_pos rfl]
      rw [front]
      split
      · exact (activity?_of_data? (data?_moveTaskToFront h goal k)).trans placed
      · exact placed
    have runs : record.isRunning = true := by
      simp [ActivityRecord.isRunning, fresh.lasts, fresh.state]
    exact exists_running_of_propagate held runs
  | @delivered l h j moved _ live _ arrived =>
    cases ended
    obtain ⟨a, held, runs⟩ :=
      exists_of_topRunningActivity? (topRunningActivity?_arrive forest live arrived)
    rw [deliver_eq_put (w := { w with hierarchy := h }) held]
    exact exists_running_of_propagate
      (World.activity?_put (w := { w with hierarchy := h }) held ..) runs
  | @kept l h moved _ live _ arrived =>
    obtain ⟨a, held, runs⟩ := exists_of_topRunningActivity? ended
    rw [ended, leaveCookie_eq_put (w := { w with hierarchy := h }) held]
    exact exists_running_of_propagate
      (World.activity?_put (w := { w with hierarchy := h }) held ..) runs
  | @topped l _ found =>
    cases ended
    obtain ⟨a, held, runs⟩ := exists_running_of_deliverableTop? found
    rw [deliver_eq_put held]
    exact exists_running_of_propagate (World.activity?_put held ..) runs

/-- A start that ends at an activity ends at a running one. -/
theorem exists_running_of_execute {host : Host} {s : Starter}
    {outcome : Except StartError StartResult} (reached : Reachable w.hierarchy)
    (ran : execute host { request := r } w = (s, w', outcome)) (ended : s.outActivity = some k) :
    ∃ a, w'.hierarchy.activity? k = some a ∧ a.isRunning = true := by
  rcases course_execute ran with ⟨blank, _⟩ | ⟨_, _, course⟩
  · rw [blank] at ended
    contradiction
  cases course with
  | refused _ blank =>
    rw [blank] at ended
    contradiction
  | @placed _ w₁ _ r caller info _ before after same =>
    rw [same] at ended
    rw [after.hierarchy]
    obtain ⟨w₂, _, approaches, landing, _⟩ := (lands_place host r caller info w₁).exists_landing
    have steps : Steps false w₁ w₂ := steps_approaches approaches
    have formed := (steps.reached (before.hierarchy ▸ reached)).wellFormed
    exact exists_running_of_landing formed.forest (fresh_newRecord ..) landing ended

end WindowHost.Start
