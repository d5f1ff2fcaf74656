import WindowHost.Hierarchy.Snapshots
import WindowHost.Registry
import WindowHost.Report.Encoding
import WindowHost.Start.Execute

/-! The demo: a display with a launcher, five starts one after the other, and a report on them. -/
namespace WindowHost.Demo

def package : String := "org.example"

def appUid : Uid := ⟨10010⟩

/-- The background application. -/
def syncUid : Uid := ⟨10050⟩

def syncCaller : CallerToken := ⟨50⟩

def component (className : String) : ComponentName := ⟨package, className⟩

def info (className affinity : String) (mode : LaunchMode) : ActivityInfo where
  component := component className
  uid := appUid
  launchMode := mode
  taskAffinity := some (package ++ "." ++ affinity)

def launcher : ActivityInfo := { info "Launcher" "launcher" .singleTask with type := .home }

def registry (options : Options) : Registry where
  packages := [launcher, info "Mail" "mail" .singleTop, info "Browser" "browser" .multiple,
    info "Sync" "sync" .multiple]
  processes := [(syncCaller, { uid := syncUid })]
  importance := [(syncUid, .cached)]
  voice := .ok false
  recents := .create options.maxTasks options.freezeTimeout

/-- One display that shows the launcher. -/
def hierarchy : Except HierarchyError Hierarchy := do
  let (h, display) := Hierarchy.empty.addDisplay ⟨0⟩ ⟨0, 0, 1920, 1080⟩
  let area := (h.defaultArea? display).getD .null
  let (h, home) ← h.createRootTask area .fullscreen .home .top
  let spec : TaskSpec :=
    { affinity := some launcher.affinity
      rootComponent := some launcher.component
      type := .home }
  let (h, task) ← h.createTask home spec .top
  let record :=
    { ActivityRecord.create launcher (.ofComponent launcher.component) with
      state := .resumed
      attached := true
      visibleRequested := true
      visible := true }
  let (h, _) ← h.addActivity task record .top
  return h

def intent (className : String) (flags : IntentFlags) : Intent :=
  (Intent.ofComponent (component className)).withFlags (flags.insert .newTask)

def requests : List StartRequest :=
  [{ reason := "open mail", intent := intent "Mail" .empty },
    { reason := "open mail again", intent := intent "Mail" (.single .singleTop) },
    { reason := "open browser", intent := intent "Browser" .empty },
    { reason := "back to mail", intent := intent "Mail" .empty },
    { reason := "sync from background", caller := some syncCaller,
      intent := intent "Sync" .empty }]

def report (reason : String) (s : Starter) (h : Hierarchy) (result : StartResult) :
    StartReport where
  reason := reason
  result := result.name
  code := result.code
  externalSuccess := result.external == .success
  activity := (s.outActivity.bind h.activity?).map (·.component.toText)

/-- Runs requests one after the other, each in the world that the one before left. -/
def runAll (host : Host) (w : World) :
    List StartRequest → Except StartError (World × List StartReport)
  | [] => .ok (w, [])
  | r :: rest => do
    let (s, w, result) := Start.execute host { request := r } w
    let first := report r.reason s w.hierarchy (← result)
    let (w, reports) ← runAll host w rest
    return (w, first :: reports)

/-- Text followed by blanks up to a width. -/
def padRight (width : Nat) (s : String) : String :=
  s ++ String.ofList (List.replicate (width - s.length) ' ')

/-- Text behind blanks up to a width. -/
def padLeft (width : Nat) (s : String) : String :=
  String.ofList (List.replicate (width - s.length) ' ') ++ s

def line (r : StartReport) : String :=
  padRight 24 r.reason ++ " " ++ padRight 20 r.result ++ " " ++ padLeft 4 (toString r.code.toInt)
    ++ "  " ++ r.activity.getD "-" ++ "\n"

/-- The reports, the recent tasks and the hierarchy as text. -/
def textOutput (reports : List StartReport) (recents : List TaskId) (h : Hierarchy) : String :=
  let shown := recents.map fun t => toString t.value
  String.join (reports.map line) ++ "\nrecents: [" ++ String.intercalate ", " shown ++ "]\n\n"
    ++ h.outline

/-- The same in a structured form. -/
def jsonOutput (reports : List StartReport) (recents : List TaskId) (h : Hierarchy) : String :=
  let output := Json.object [
    ("starts", .list (reports.map StartReport.encode)),
    ("recents", .list (recents.map fun t => .integer t.value)),
    ("hierarchy", .list (h.snapshots.map Snapshot.encode))]
  output.pretty "" ++ "\n"

/-- What the demo prints. -/
def output (config : Config) (json : Bool) : Except String String := do
  let options := Options.ofConfig config
  let registry := registry options
  let host : Host := { environment := registry.environment, options := options }
  let h ← hierarchy.mapError (HierarchyError.message fun k => toString k.index)
  let (w, reports) ← (runAll host { hierarchy := h } requests).mapError StartError.message
  let recents := (registry.recents.after w.calls).tasks
  return if json then jsonOutput reports recents w.hierarchy
    else textOutput reports recents w.hierarchy

end WindowHost.Demo
