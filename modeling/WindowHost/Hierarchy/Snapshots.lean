import WindowHost.Hierarchy.Outline
import WindowHost.Report.Snapshot

/-! Snapshots of the hierarchy, one for each display. -/
namespace WindowHost

def ActivityRecord.snapshot (r : ActivityRecord) : ActivitySnapshot where
  state := r.state
  visibleRequested := r.visibleRequested
  finishing := r.finishing
  attached := r.attached

namespace Hierarchy

/-- The snapshot of one node, given those of its children. -/
def snapshotNode (h : Hierarchy) (focused : List NodeId) (k : NodeId)
    (children : List Snapshot) : Snapshot :=
  let inFocus := focused.contains k
  match h.data? k with
  | some (.display d) =>
    .node .display (toString d.id.value.toNat) inFocus none none none children
  | some (.area a) => .node .taskDisplayArea a.name inFocus none none none children
  | some (.task t) =>
    let partner := t.adjacent.map h.label
    if h.isRootTask k then
      .node .rootTask t.id.toText inFocus (some t.mode.name) partner none children
    else .node .task t.id.toText inFocus none partner none children
  | some (.fragment f) =>
    .node .taskFragment (h.label k) inFocus none (f.adjacent.map h.label) none children
  | some (.activity r) =>
    .node .activity r.component.toText inFocus none none (some r.snapshot) children
  | none => .node .display "(missing)" inFocus none none none children

/-- The snapshots of a stack, lowest node first. -/
def snapshotsOf (h : Hierarchy) (focused : List NodeId) : Layers → List Snapshot
  | .nil => []
  | .node k inside below =>
    h.snapshotsOf focused below ++ [h.snapshotNode focused k (h.snapshotsOf focused inside)]

/-- One snapshot for each display, lowest display first. -/
def snapshots (h : Hierarchy) : List Snapshot :=
  let focused := h.focusPath
  h.displays.flatMap fun display => h.snapshotsOf focused (h.subtree display)

end Hierarchy
end WindowHost
