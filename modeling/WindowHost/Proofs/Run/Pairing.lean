import WindowHost.Proofs.Hierarchy.Intact
import WindowHost.Proofs.Run.Addition
import WindowHost.Proofs.Run.Delivery

/-! New tasks in split root tasks. A start makes a task in a split root task only where some root
task of the display has a partner. Whether the one that it makes the task in has one is another
matter: it has the partner that the topmost root task of its kind had, and none if it is new. -/
namespace WindowHost

theorem WindowingMode.orFullscreen_orFullscreen (m : WindowingMode) :
    m.orFullscreen.orFullscreen = m.orFullscreen := by
  cases m <;> rfl

theorem WindowingMode.isSplit_orFullscreen (m : WindowingMode) :
    m.orFullscreen.isSplit = m.isSplit := by
  cases m <;> rfl

open Hierarchy
variable {w w' : World} {host : Host} {given r : StartRequest} {info : ActivityInfo}
  {h h' before : Hierarchy} {l : Launch} {s : Starter} {area display k place root task : NodeId}
  {mode : WindowingMode} {type : ActivityType}

namespace Hierarchy

theorem topOfKind?_spec (found : h.topOfKind? area mode type = some k) :
    k ∈ h.children area ∧ h.ownMode? k = some mode := by
  rw [topOfKind?] at found
  have fits := List.find?_some found
  obtain ⟨t, held, kind⟩ := (Option.any_eq_true ..).mp fits
  refine ⟨List.mem_reverse.mp (List.mem_of_find?_eq_some found), ?_⟩
  rw [ownMode?_eq_map, held, Option.map_some, eq_of_beq (Bool.and_eq_true_iff.mp kind).1]

/-- The root task of a kind lies in its area, and has the partner that the topmost one had. -/
theorem Forest.getOrCreateRootTask_spec {isNew : Bool} (forest : Forest h)
    (made : h.getOrCreateRootTask area mode type = .ok (h', root, isNew)) :
    h'.parent? root = some area ∧ h'.ownMode? root = some mode.orFullscreen ∧
      h'.adjacent? root =
        (h.topOfKind? area mode.orFullscreen type.orStandard).bind h.adjacent? := by
  rcases getOrCreateRootTask_cases made with ⟨_, rfl, found⟩ | ⟨_, none, created⟩
  · obtain ⟨listed, own⟩ := topOfKind?_spec found
    exact ⟨(forest.child listed).2, own, by rw [found, Option.bind_some]⟩
  · have data := data?_createTask created root
    rw [if_pos rfl] at data
    refine ⟨parent?_new_createTask created, ?_, ?_⟩
    · rw [ownMode?, data, mode.orFullscreen_orFullscreen]
      rfl
    · rw [none, adjacent?, data]
      rfl

/-- A task in a task of an area has that for its root task. -/
theorem Forest.of_area (forest : Forest h) (inRoot : h.parent? task = some root)
    (inArea : h.parent? root = some area) (onDisplay : h.parent? area = some display)
    (isArea : (h.area? area).isSome = true) (own : h.ownMode? root = some mode) :
    h.rootTaskOf? task = some root ∧ h.displayOf? root = some display ∧
      h.mode root = mode.orFullscreen := by
  have isRoot : h.isRootTask root = true := by
    rw [isRootTask, isTask_of_ownMode? own, inArea, Option.bind_some, isArea]
    rfl
  have shown := (forest.isSome_area?_of_parent onDisplay).symm.trans isArea
  exact ⟨forest.rootTaskOf?_of_inside isRoot (.child inRoot),
    forest.displayOf?_of_inside shown (.deeper inArea (.child onDisplay)),
    forest.mode_of_area inArea isArea own⟩

end Hierarchy

namespace Start

theorem exists_partner_of_pairedMode (split : (pairedMode h display mode).isSplit = true) :
    ∃ other ∈ h.rootTasks display, (h.adjacent? other).isSome = true := by
  unfold pairedMode at split
  split at split
  · contradiction
  · rename_i paired
    rw [split, Bool.true_and, Bool.not_eq_true', Bool.not_eq_false] at paired
    exact List.any_eq_true.mp paired

theorem contains_of_existingPlace? (forest : Forest h) (chosen : l.Of r h) (free : r.Unplaced)
    (alone : r.intent.flags.has .launchAdjacent = false)
    (found : existingPlace? h r l = some place) : h.contains place = true := by
  simp only [existingPlace?, StartRequest.inFragment?, StartRequest.inTask?, free.inFragment,
    free.inTask, adjacentFragment?, flags_of_chosen chosen, alone, Option.filter_none,
    Option.none_or, Bool.false_and, Bool.false_eq_true, if_false] at found
  split at found
  · contradiction
  · obtain ⟨source, _, placed⟩ := Option.bind_eq_some_iff.mp found
    exact forest.contains_parent placed

/-- What was there before the new task has its place, mode and partner afterwards. -/
theorem Addition.kept_of_made {spec : TaskSpec} {position : Position} {h₁ h₂ : Hierarchy}
    {layout : LaunchParams}
    (addition : Addition host given info h (applyBounds h₂ place layout) h' place k)
    (made : h₁.createTask root spec position = .ok (h₂, place)) (j : NodeId)
    (live : h₁.contains j = true) :
    SamePost h₁ h' j ∧ h'.adjacent? j = h₁.adjacent? j := by
  have here : WithRoot h₁ h₁ root := .inl rfl
  have carried := WithRoot.carried_new made here layout
  have other : j ≠ place := by
    rintro rfl
    rw [WithRoot.contains_new made here] at live
    contradiction
  have later := carried.contains live
  have post : SamePost h₁ (applyBounds h₂ place layout) j :=
    .of_data? (carried.parent j live other) (carried.data j live)
  exact ⟨post.trans (addition.post j later),
    (addition.partner j later).trans (adjacent?_of_data? (carried.data j live))⟩

/-- What was there before the launch keeps its post, whether or not the root task is new. -/
theorem Addition.samePost_of_rooted {spec : TaskSpec} {position : Position} {h₁ h₂ : Hierarchy}
    {layout : LaunchParams}
    (addition : Addition host given info h (applyBounds h₂ place layout) h' place k)
    (rooted : WithRoot h h₁ root) (made : h₁.createTask root spec position = .ok (h₂, place))
    (fresh : h.contains place = false) (j : NodeId) (live : h.contains j = true) :
    SamePost h h' j := by
  have other : j ≠ place := by
    rintro rfl
    rw [live] at fresh
    contradiction
  have carried := rooted.carried place
  have post : SamePost h h₁ j := .of_data? (carried.parent j live other) (carried.data j live)
  exact post.trans (addition.kept_of_made made j (carried.contains live)).1

/-- A new task is in the root task of a kind on the display that the launch has chosen. -/
theorem Addition.exists_ofKind (addition : Addition host given info h before h' place k)
    (formed : h.WellFormed) (formed' : h'.WellFormed) (free : given.Unplaced)
    (alone : given.intent.flags.has .launchAdjacent = false)
    (fresh : h.contains place = false) :
    ∃ display area mode root, h.defaultArea? display = some area ∧
      h'.rootTaskOf? place = some root ∧ h'.displayOf? root = some display ∧
      h'.mode root = (pairedMode h display mode).orFullscreen ∧
      h'.adjacent? root = (h.topOfKind? area (pairedMode h display mode).orFullscreen
        info.type.orStandard).bind h.adjacent? := by
  obtain ⟨r, uid, l, admitted, chosen, lodging⟩ := addition.exists_lodging
  have alone' := admitted.has_launchAdjacent.trans alone
  have free' := admitted.unplaced free
  cases lodging with
  | reused reuses =>
    rw [contains_of_isTask (isTask_of_reusableTask? reuses.chosen)] at fresh
    contradiction
  | existing _ found =>
    rw [contains_of_existingPlace? formed.forest chosen free' alone' found] at fresh
    contradiction
  | @made root _ h₁ _ _ _ _ _ rooting made layout =>
    have rooted := rooting.withRoot
    cases rooting with
    | named named =>
      rw [rootTask_of_unplaced chosen free'] at named
      contradiction
    | beside _ partner => simp [adjacentRoot?, flags_of_chosen chosen, alone'] at partner
    | @ofKind area _ _ mode _ _ _ first found =>
      obtain ⟨placed, own, partner⟩ := formed.forest.getOrCreateRootTask_spec found
      obtain ⟨_, _, head⟩ := Option.bind_eq_some_iff.mp first
      have above := (formed.forest.child (List.mem_of_head? head)).2
      have below := parent?_newTask made layout
      have areaPost :=
        addition.samePost_of_rooted rooted made fresh area (contains_of_parent? above)
      obtain ⟨rootPost, partner'⟩ := addition.kept_of_made made root (contains_of_parent? placed)
      have isArea := (isSome_area?_congr areaPost.tag).trans
        (formed.forest.isSome_area?_of_defaultArea? first)
      obtain ⟨around, shown, same⟩ := formed'.forest.of_area
        ((addition.post place (contains_of_parent? below)).parent.trans below)
        (rootPost.parent.trans placed) (areaPost.parent.trans above) isArea
        (rootPost.ownMode.trans own)
      rw [WindowingMode.orFullscreen_orFullscreen] at same
      exact ⟨l.display, area, mode, root, first, around, shown, same, partner'.trans partner⟩

/-- Where a start makes a task in a split root task, some root task of the display had a partner,
and the split root task has the partner that the topmost root task of its mode and of the type of
the activity had, in the first area of the display. -/
theorem pairing_execute (reached : Reachable w.hierarchy)
    (free : given.Unplaced) (alone : given.intent.flags.has .launchAdjacent = false)
    (ran : execute host { request := given } w = (s, w', .ok .success))
    (ended : s.outActivity = some k) (placed : w'.hierarchy.parent? k = some task)
    (fresh : w.hierarchy.contains task = false)
    (lies : w'.hierarchy.rootTaskOf? task = some root)
    (split : (w'.hierarchy.mode root).isSplit = true) :
    ∃ info display area, s.request.info = some info ∧
      w'.hierarchy.displayOf? root = some display ∧
      w.hierarchy.defaultArea? display = some area ∧
      (∃ other ∈ w.hierarchy.rootTasks display, (w.hierarchy.adjacent? other).isSome = true) ∧
      w'.hierarchy.adjacent? root = (w.hierarchy.topOfKind? area (w'.hierarchy.mode root)
        info.type.orStandard).bind w.hierarchy.adjacent? := by
  have formed := reached.wellFormed
  have formed' := wellFormed_execute reached ran
  obtain ⟨info, j, place, before, known, ended', addition⟩ := exists_addition formed ran
  obtain rfl : k = j := Option.some.inj (ended.symm.trans ended')
  obtain rfl : task = place := Option.some.inj (placed.symm.trans addition.placed)
  obtain ⟨display, area, mode, root', first, lies', shown, same, partner⟩ :=
    addition.exists_ofKind formed formed' free alone fresh
  obtain rfl : root = root' := Option.some.inj (lies.symm.trans lies')
  rw [same] at split ⊢
  rw [WindowingMode.isSplit_orFullscreen] at split
  exact ⟨info, display, area, known, shown, first, exists_partner_of_pairedMode split, partner⟩

/-- A split pair, the lower half first. -/
def halves : World where
  hierarchy := afterCalls [.addDisplay ⟨0⟩ ⟨0, 0, 1920, 1080⟩, .createSplitPair ⟨2⟩]

/-- Two windows side by side, and no split root task. -/
def windows : World where
  hierarchy := afterCalls [.addDisplay ⟨0⟩ ⟨0, 0, 1920, 1080⟩,
    .createRootTask ⟨2⟩ .freeform .standard .top, .createRootTask ⟨2⟩ .freeform .standard .top,
    .setAdjacent ⟨3⟩ ⟨4⟩]

theorem reachable_halves : Reachable halves.hierarchy := Reachable.empty.foldl_mutate _

theorem reachable_windows : Reachable windows.hierarchy := Reachable.empty.foldl_mutate _

/-- A draft is started for the lower half, as an activity of a type. -/
def splitRequest (type : ActivityType) : StartRequest :=
  let info : ActivityInfo := { component := ⟨"mail", "Draft"⟩, uid := ⟨10010⟩, type := type }
  { intent := .ofComponent info.component
    info := some info
    options := some { mode := .splitSecondary } }

def openSplit (type : ActivityType) (w : World) :
    Starter × World × Except StartError StartResult :=
  execute mailHost { request := splitRequest type } w

/-- In the split pair the draft lands beside the upper half. -/
theorem pairing_execute_of_halves :
    let opened := openSplit .standard halves
    opened.2.2 = .ok .success ∧ opened.1.outActivity = some ⟨6⟩ ∧
      halves.hierarchy.contains ⟨5⟩ = false ∧ opened.2.1.hierarchy.rootTaskOf? ⟨5⟩ = some ⟨3⟩ ∧
      (opened.2.1.hierarchy.mode ⟨3⟩).isSplit = true ∧
      opened.2.1.hierarchy.adjacent? ⟨3⟩ = some ⟨4⟩ := by
  intro opened
  have succeeds : opened.2.2 = .ok .success := by decide +kernel
  have out : opened.1.outActivity = some ⟨6⟩ := by decide +kernel
  have fresh : halves.hierarchy.contains ⟨5⟩ = false := by decide +kernel
  have lies : opened.2.1.hierarchy.rootTaskOf? ⟨5⟩ = some ⟨3⟩ := by decide +kernel
  have split : (opened.2.1.hierarchy.mode ⟨3⟩).isSplit = true := by decide +kernel
  have launched : opened.1.request.info = (splitRequest .standard).info := by decide +kernel
  have shown : opened.2.1.hierarchy.displayOf? ⟨3⟩ = some ⟨1⟩ := by decide +kernel
  have first : halves.hierarchy.defaultArea? ⟨1⟩ = some ⟨2⟩ := by decide +kernel
  have kind : (halves.hierarchy.topOfKind? ⟨2⟩ (opened.2.1.hierarchy.mode ⟨3⟩) .standard).bind
      halves.hierarchy.adjacent? = some ⟨4⟩ := by decide +kernel
  have ran : openSplit .standard halves = (opened.1, opened.2.1, .ok .success) := by
    rw [← succeeds]
  obtain ⟨info, display, area, known, shown', first', _, partner⟩ :=
    pairing_execute reachable_halves ⟨rfl, rfl, rfl⟩ (by decide +kernel) ran out
      (by decide +kernel) fresh lies split
  obtain rfl : ⟨1⟩ = display := Option.some.inj (shown.symm.trans shown')
  obtain rfl : ⟨2⟩ = area := Option.some.inj (first.symm.trans first')
  cases launched.symm.trans known
  exact ⟨succeeds, out, fresh, lies, split, partner.trans kind⟩

/-- Where two windows are partners, the draft gets a split root task of its own that has none, and
so does one of the type of a home screen where the pair is there. -/
theorem not_paired_of_windows :
    let beside := openSplit .standard windows
    let home := openSplit .home halves
    (∀ type, (splitRequest type).Unplaced ∧
      (splitRequest type).intent.flags.has .launchAdjacent = false) ∧
    Reachable windows.hierarchy ∧ beside.2.2 = .ok .success ∧
      beside.1.outActivity = some ⟨7⟩ ∧ beside.2.1.hierarchy.parent? ⟨7⟩ = some ⟨6⟩ ∧
      windows.hierarchy.contains ⟨6⟩ = false ∧
      beside.2.1.hierarchy.rootTaskOf? ⟨6⟩ = some ⟨5⟩ ∧
      (beside.2.1.hierarchy.mode ⟨5⟩).isSplit = true ∧
      beside.2.1.hierarchy.adjacent? ⟨5⟩ = none ∧
    Reachable halves.hierarchy ∧ home.2.2 = .ok .success ∧
      home.1.outActivity = some ⟨7⟩ ∧ home.2.1.hierarchy.parent? ⟨7⟩ = some ⟨6⟩ ∧
      halves.hierarchy.contains ⟨6⟩ = false ∧
      home.2.1.hierarchy.rootTaskOf? ⟨6⟩ = some ⟨5⟩ ∧
      (home.2.1.hierarchy.mode ⟨5⟩).isSplit = true ∧
      home.2.1.hierarchy.adjacent? ⟨5⟩ = none := by
  intro beside home
  refine ⟨fun type => ⟨⟨rfl, rfl, rfl⟩, by cases type <;> decide +kernel⟩, reachable_windows, ?_⟩
  refine ⟨by decide +kernel, by decide +kernel, by decide +kernel, by decide +kernel,
    by decide +kernel, by decide +kernel, by decide +kernel, reachable_halves, by decide +kernel,
    by decide +kernel, by decide +kernel, by decide +kernel, by decide +kernel, by decide +kernel,
    by decide +kernel⟩

end Start
end WindowHost
