import WindowHost.Hierarchy.Occlusion
import WindowHost.World

/-! Visibility passes. A pass walks the children of a task or task fragment from the top down and
keeps track of whether all that follows is hidden. A nested container that runs something is
walked first, so that its outcome is known to what lies below it. Every activity is then made
visible, its process started, or it is made invisible, and its client is told. -/
namespace WindowHost

structure VisibilityParams where
  /-- The activity that is about to start or resume; it is shown by other means. -/
  starting : Option NodeId := none
  /-- The configuration changes so far. -/
  configChanges : ConfigChanges := .empty
  preserveWindows : Bool := false
  /-- Whether clients hear of configurations and of what becomes visible. -/
  notifyClients : Bool := true

namespace Visibility

/-- Brings a stopped activity that is wanted on screen back to paused. -/
def makeActive (w : World) (k : NodeId) : World :=
  if w.hierarchy.activityHas (fun r => r.visibleRequested && r.state == .stopped) k then
    (w.modifyActivity k fun r => { r with state := .paused }).send k .makeActive
  else w

/-- Shows an attached activity that is not wanted on screen yet. A silent pass leaves the news
for later. -/
def reveal (p : VisibilityParams) (w : World) (k : NodeId) : World :=
  if p.starting = some k || w.hierarchy.activityHas (·.state == .resumed) k then w
  else if p.notifyClients then
    let w := w.modifyActivity k fun r =>
      { r with visibleRequested := true, clientVisibilityDeferred := false }
    makeActive (w.send k (.visibility true)) k
  else w.modifyActivity k fun r =>
    { r with visibleRequested := true, clientVisibilityDeferred := true }

/-- Catches up with an attached activity that is wanted on screen already. -/
def refresh (p : VisibilityParams) (w : World) (k : NodeId) : World :=
  if p.notifyClients then
    let w := makeActive w k
    w.modifyActivity k fun r => { r with clientVisibilityDeferred := false }
  else w

/-- Hides an activity. -/
def hide (w : World) (k : NodeId) : World :=
  match w.hierarchy.activity? k with
  | none => w
  | some r =>
    if r.visibleRequested then
      let w := w.modifyActivity k fun r =>
        { r with visibleRequested := false, clientVisibilityDeferred := false }
      let w := w.send k (.visibility false)
      if r.state = .resumed ∨ r.state = .paused then
        (w.modifyActivity k fun r => { r with state := .stopped }).send k .stop
      else w
    else w

/-- Asks for the process of an activity that has none. One that was on screen below the top when
its process died stays as it is, so that it is not started over and over. -/
def restart (p : VisibilityParams) (changes : ConfigChanges) (isTop andResume : Bool) (w : World)
    (k : NodeId) : World :=
  match w.hierarchy.activity? k with
  | none => w
  | some r =>
    if !isTop && r.visibleRequested && r.state != .initializing then w
    else if p.starting = some k then w.modifyActivity k fun r => { r with visibleRequested := true }
    else
      (w.modifyActivity k fun r =>
        { r.startFreezingScreen changes with visibleRequested := true, restarting := true }).emit
        (.startProcess k andResume true)

/-- What a walk over a container's children knows from the start. -/
structure Container where
  params : VisibilityParams
  node : NodeId
  /-- Its top running activity. -/
  top : Option NodeId
  shouldBeVisible : Bool
  keyguardLocked : Bool
  isHome : Bool
  /-- The top activity is to be resumed. -/
  resumesTop : Bool
  bounds : Rect

/-- How far a walk has come. -/
structure Walk where
  world : World
  configChanges : ConfigChanges
  /-- The top running activity has not been met. -/
  aboveTop : Bool
  /-- All that follows is hidden behind what was met. -/
  occluded : Bool
  /-- A home activity hides what follows in its root task. -/
  homeOccludes : Bool := false
  /-- Partners of the containers that were met and hide nothing alone. -/
  partners : List NodeId := []

/-- Looks at a container before its walk. -/
def Container.look (locked : DisplayId → Bool) (p : VisibilityParams) (h : Hierarchy)
    (k : NodeId) : Container :=
  let top := h.topRunningActivity? k
  let visible := h.shouldBeVisible k p.starting
  { params := p
    node := k
    top := top
    shouldBeVisible := visible
    keyguardLocked := ((h.displayOf? k).bind h.displayId?).any locked
    isHome := h.activityType k == .home
    resumesTop := top.any (h.activityHas fun r => !r.launchTaskBehind) && visible
      && !p.starting.any (h.isDescendantOf · k)
    bounds := h.bounds k }

/-- Starts the walk over a container, given whether something above hides all of it. -/
def Container.begin (c : Container) (w : World) (occluded : Bool) : Walk where
  world := w
  configChanges := c.params.configChanges
  aboveTop := c.top.isSome
  occluded := !c.shouldBeVisible || occluded

/-- Makes an activity visible. -/
def Walk.present (c : Container) (s : Walk) (k : NodeId) : Walk :=
  let p := c.params
  let isTop := c.top == some k
  let w :=
    if p.notifyClients && p.starting != some k then
      s.world.send k (.configuration p.preserveWindows)
    else s.world
  let w :=
    if w.hierarchy.activityHas (fun r => !r.attached) k then
      restart p s.configChanges isTop (c.resumesTop && isTop) w k
    else if w.hierarchy.activityHas (·.visibleRequested) k then refresh p w k
    else reveal p w k
  let changes := ((w.hierarchy.activity? k).map (·.configChangeFlags)).getD .empty
  { s with world := w, configChanges := s.configChanges.union changes }

/-- Hides what follows behind a visible home activity that is the root of its task. -/
def Walk.closeHome (c : Container) (s : Walk) (k : NodeId) : Walk :=
  if !s.occluded && c.isHome && s.world.hierarchy.isRootOfTask k then
    { s with occluded := true, homeOccludes := true }
  else s

/-- Visits an activity. Those above the top running one are passed over. -/
def Walk.visitActivity (c : Container) (s : Walk) (k : NodeId) : Walk :=
  if s.aboveTop && c.top != some k then s
  else
    let s := { s with aboveTop := false }
    match s.world.hierarchy.activity? k with
    | none => s
    | some r =>
      let uncovered := !s.occluded || r.launchTaskBehind
      let visible := uncovered && c.shouldBeVisible && (!c.keyguardLocked || r.info.showWhenLocked)
      let w := s.world.modifyActivity k fun r =>
        let r := { r with visibleIgnoringKeyguard := uncovered }
        if uncovered then r else r.cancelInitializing
      let s :=
        { s with world := w, occluded := if uncovered then r.occludesParent else s.occluded }
      if visible then
        if r.finishing then s else (s.present c k).closeHome c k
      else Walk.closeHome c { s with world := hide s.world k } k

/-- Takes in the outcome of the walk over a nested container. -/
def Walk.leave (c : Container) (s : Walk) (k : NodeId) (inner : Walk) : Walk :=
  let h := inner.world.hierarchy
  let starting := c.params.starting
  let s :=
    { s with
      world := inner.world
      configChanges := s.configChanges.union inner.configChanges
      homeOccludes := s.homeOccludes || inner.homeOccludes
      occluded := s.occluded || inner.homeOccludes
        || (h.bounds k == c.bounds && !h.isTranslucent k starting)
      aboveTop := s.aboveTop && !c.top.any (h.isDescendantOf · k) }
  if s.occluded then s
  else if s.partners.contains k then
    let pairOpaque := !h.isTranslucent k starting
      && (h.adjacent? k).any fun partner => !h.isTranslucent partner starting
    { s with occluded := pairOpaque }
  else { s with partners := (h.adjacent? k).toList ++ s.partners }

/-- Walks the children of a container, topmost first. -/
def Walk.run (locked : DisplayId → Bool) (c : Container) (s : Walk) : Layers → Walk
  | .nil => s
  | .node k inside below =>
    let h := s.world.hierarchy
    let next :=
      if h.isFragmentLike k then
        if h.hasRunningActivity k then
          let nested := Container.look locked c.params h k
          s.leave c k (Walk.run locked nested (nested.begin s.world s.occluded) inside)
        else s
      else if h.isActivity k then s.visitActivity c k
      else s
    Walk.run locked c next below

/-- Updates all activities in a task or task fragment. Answers the configuration changes of those
that were made visible together with the ones of `p`. Other nodes are left alone. -/
def updateContainer (locked : DisplayId → Bool) (p : VisibilityParams) (w : World) (k : NodeId) :
    World × ConfigChanges :=
  if w.hierarchy.isFragmentLike k then
    let c := Container.look locked p w.hierarchy k
    let s := Walk.run locked c (c.begin w false) (w.hierarchy.contents k)
    (s.world, s.configChanges)
  else (w, p.configChanges)

/-- Updates several nodes one after the other. -/
def updateEach (update : World → NodeId → World × ConfigChanges) (p : VisibilityParams) (w : World)
    (ks : List NodeId) : World × ConfigChanges :=
  ks.foldl
    (fun (w, changes) k =>
      let (w, more) := update w k
      (w, changes.union more))
    (w, p.configChanges)

/-- Updates every root task of a display, topmost first. -/
def updateDisplay (locked : DisplayId → Bool) (p : VisibilityParams) (w : World)
    (display : NodeId) : World × ConfigChanges :=
  updateEach (updateContainer locked p) p w (w.hierarchy.rootTasks display)

/-- Updates every display, lowest first. -/
def updateAll (locked : DisplayId → Bool) (p : VisibilityParams) (w : World) :
    World × ConfigChanges :=
  updateEach (updateDisplay locked p) p w w.hierarchy.displays

/-- Takes the focus from an activity: a resumed one is paused while it is wanted on screen, and
stopped otherwise. -/
def yieldFocus (w : World) (k : NodeId) : World :=
  match w.hierarchy.activity? k with
  | none => w
  | some r =>
    if r.state = .resumed then
      if r.visibleRequested then
        (w.modifyActivity k fun r => { r with state := .paused }).send k .pause
      else (w.modifyActivity k fun r => { r with state := .stopped }).send k .stop
    else w

/-- Resumes an activity that is wanted on screen, or asks for its process. -/
def takeFocus (w : World) (k : NodeId) : World :=
  match w.hierarchy.activity? k with
  | none => w
  | some r =>
    if r.attached then
      if r.state = .resumed then w
      else (w.modifyActivity k fun r => { r with state := .resumed }).send k .resume
    else if r.restarting then w
    else
      (w.modifyActivity k fun r => { r with restarting := true }).emit (.startProcess k true true)

/-- Resumes the top running activity of a display's focused root task, after every other resumed
activity of the display has given way. Answers the activity unless it is not wanted on screen. -/
def resumeFocused (w : World) (display : NodeId) : World × Option NodeId :=
  let h := w.hierarchy
  match (h.focusedRootTask? display).bind h.topRunningActivity? with
  | none => (w, none)
  | some top =>
    let others := ((h.rootTasks display).flatMap h.activities).filter (· != top)
    let w := others.foldl yieldFocus w
    if w.hierarchy.activityHas (·.visibleRequested) top then (takeFocus w top, some top)
    else (w, none)

end Visibility
end WindowHost
