import Mathlib.Logic.Relation
import WindowHost.Proofs.Hierarchy.Success

/-! The public operations on a hierarchy, and the few basic changes that every one of them comes
down to. An invariant of the basic changes is an invariant of all operations. -/
namespace WindowHost.Hierarchy
variable {h h' : Hierarchy} {a b c k p : NodeId} {position : Position}

/-- A change that the other operations are put together from. -/
inductive Change : Hierarchy → Hierarchy → Prop where
  | addDisplay {h : Hierarchy} {id : DisplayId} (bounds : Rect)
      (fresh : h.displayWithId? id = none) : Change h (h.addDisplay id bounds).1
  | createTask {h h' : Hierarchy} {p k : NodeId} {spec : TaskSpec} {position : Position}
      (made : h.createTask p spec position = .ok (h', k)) : Change h h'
  | createFragment {h h' : Hierarchy} {p k : NodeId} {bounds : Option Rect} {position : Position}
      (made : h.createFragment p bounds position = .ok (h', k)) : Change h h'
  | createActivity {h : Hierarchy} (record : ActivityRecord) :
      Change h (h.createActivity record).1
  | addActivity {h h' : Hierarchy} {p k : NodeId} {record : ActivityRecord} {position : Position}
      (made : h.addActivity p record position = .ok (h', k)) : Change h h'
  | attach {h h' : Hierarchy} {p c : NodeId} {position : Position}
      (placed : h.attach p c position = .ok h') : Change h h'
  | unlink {h : Hierarchy} (c : NodeId) : Change h (h.unlink c)
  | reorder {h : Hierarchy} (c : NodeId) (position : Position) : Change h (h.reorder c position)
  | remove {h : Hierarchy} (k : NodeId) : Change h (h.remove k)
  | setAdjacent {h h' : Hierarchy} {a b : NodeId} (paired : h.setAdjacent a b = .ok h') :
      Change h h'
  | clearAdjacent {h : Hierarchy} (k : NodeId) : Change h (h.clearAdjacent k)
  | raiseDisplay {h : Hierarchy} (k : NodeId) : Change h (h.moveDisplayToTop k).1

abbrev Changes : Hierarchy → Hierarchy → Prop := Relation.ReflTransGen Change

/-- A call to a public operation, with any arguments. -/
inductive Mutation where
  | addDisplay (id : DisplayId) (bounds : Rect)
  | createRootTask (area : NodeId) (mode : WindowingMode) (type : ActivityType)
      (position : Position)
  | createTask (parent : NodeId) (spec : TaskSpec) (position : Position)
  | createFragment (task : NodeId) (bounds : Option Rect) (position : Position)
  | createActivity (record : ActivityRecord)
  | addActivity (parent : NodeId) (record : ActivityRecord) (position : Position)
  | createSplitPair (area : NodeId)
  | getOrCreateRootTask (area : NodeId) (mode : WindowingMode) (type : ActivityType)
  | attach (parent child : NodeId) (position : Position)
  | detach (child : NodeId)
  | reparent (child newParent : NodeId) (position : Position)
  | positionChild (child : NodeId) (position : Position)
  | remove (k : NodeId)
  | setAdjacent (a b : NodeId)
  | clearAdjacent (k : NodeId)
  | moveDisplayToTop (k : NodeId)
  | moveTaskToFront (k : NodeId)

/-- What the caller is left with: a refused call leaves the hierarchy it had. -/
def settle {ε α : Type} (h : Hierarchy) : Except ε (Hierarchy × α) → Hierarchy
  | .ok (h, _) => h
  | .error _ => h

/-- The hierarchy after one call, whether it succeeds or fails. -/
def mutate (h : Hierarchy) : Mutation → Hierarchy
  | .addDisplay id bounds => (h.addDisplay id bounds).1
  | .createRootTask area mode type position => h.settle (h.createRootTask area mode type position)
  | .createTask parent spec position => h.settle (h.createTask parent spec position)
  | .createFragment task bounds position => h.settle (h.createFragment task bounds position)
  | .createActivity record => (h.createActivity record).1
  | .addActivity parent record position => h.settle (h.addActivity parent record position)
  | .createSplitPair area => h.settle (h.createSplitPair area)
  | .getOrCreateRootTask area mode type => h.settle (h.getOrCreateRootTask area mode type)
  | .attach parent child position => (h.attach parent child position).toOption.getD h
  | .detach child => (h.detach child).toOption.getD h
  | .reparent child parent position => (h.reparent child parent position).toOption.getD h
  | .positionChild child position => (h.positionChild child position).toOption.getD h
  | .remove k => h.remove k
  | .setAdjacent a b => (h.setAdjacent a b).toOption.getD h
  | .clearAdjacent k => h.clearAdjacent k
  | .moveDisplayToTop k => (h.moveDisplayToTop k).1
  | .moveTaskToFront k => (h.moveTaskToFront k).1

/-- The hierarchy after a sequence of calls, from an empty one. -/
def afterCalls (calls : List Mutation) : Hierarchy := calls.foldl mutate empty

theorem settle_induct {ε α : Type} {result : Except ε (Hierarchy × α)} {motive : Hierarchy → Prop}
    (refused : motive h) (made : ∀ h' x, result = .ok (h', x) → motive h') :
    motive (h.settle result) := by
  cases result with
  | error e => exact refused
  | ok pair => exact made pair.1 pair.2 rfl

theorem getD_induct {ε : Type} {result : Except ε Hierarchy} {motive : Hierarchy → Prop}
    (refused : motive h) (made : ∀ h', result = .ok h' → motive h') :
    motive (result.toOption.getD h) := by
  cases result with
  | error e => exact refused
  | ok h' => exact made h' rfl

/-- A split pair is two new tasks that are made adjacent. What is refused on the way leaves the
tasks that are there already. -/
theorem createSplitPair_induct {area : NodeId} {result : Except HierarchyError (NodeId × NodeId)}
    {motive : Hierarchy → Prop} (made : h.createSplitPair area = .ok (h', result))
    (start : motive h)
    (task : ∀ {g g' : Hierarchy} {k spec}, motive g →
      g.createTask area spec .top = .ok (g', k) → motive g')
    (pair : ∀ {g g' : Hierarchy} {a b}, motive g → g.setAdjacent a b = .ok g' → motive g') :
    motive h' := by
  unfold createSplitPair at made
  cases right : (h.bounds area).rightHalf with
  | error e => simp [right, bind, Except.bind] at made
  | ok right =>
    simp only [right, bind, Except.bind, pure, Except.pure] at made
    split at made
    · cases made
      exact start
    · have lower := task start ‹_›
      split at made
      · cases made
        exact lower
      · have upper := task lower ‹_›
        split at made
        · cases made
          exact upper
        · cases made
          exact pair upper ‹_›

theorem changes_getOrCreateRootTask {area : NodeId} {mode : WindowingMode} {type : ActivityType}
    {found : NodeId × Bool} (made : h.getOrCreateRootTask area mode type = .ok (h', found)) :
    Changes h h' := by
  rcases getOrCreateRootTask_eq_ok made with ⟨_, rfl⟩ | ⟨_, created⟩
  · exact .refl
  · exact .single (.createTask created)

theorem changes_raise (h : Hierarchy) (k : NodeId) : Changes h (h.raise k).1 := by
  unfold raise
  split
  · exact .refl
  · split
    · exact .refl
    · exact .single (.reorder k .top)

theorem changes_raiseWithin (above : List NodeId) :
    ∀ (h : Hierarchy) (k : NodeId), Changes h (h.raiseWithin k above).1 := by
  induction above with
  | nil => exact fun _ _ => .refl
  | cons parent further ih =>
    intro h k
    rw [raiseWithin]
    dsimp only
    split
    · exact (changes_raise h k).trans (ih _ parent)
    · exact changes_raise h k

theorem changes_moveTaskToFront (h : Hierarchy) (k : NodeId) :
    Changes h (h.moveTaskToFront k).1 := by
  unfold moveTaskToFront
  dsimp only
  split
  · exact changes_raiseWithin _ h k
  · exact .tail (changes_raiseWithin _ h k) (.raiseDisplay _)

theorem changes_mutate (h : Hierarchy) (call : Mutation) : Changes h (h.mutate call) := by
  have settled {ε α : Type} {result : Except ε (Hierarchy × α)}
      (made : ∀ h' x, result = .ok (h', x) → Changes h h') : Changes h (h.settle result) :=
    settle_induct .refl made
  have replaced {ε : Type} {result : Except ε Hierarchy}
      (made : ∀ h', result = .ok h' → Changes h h') : Changes h (result.toOption.getD h) :=
    getD_induct .refl made
  cases call with
  | addDisplay id bounds =>
    cases taken : h.displayWithId? id with
    | none => exact .single (.addDisplay bounds taken)
    | some k =>
      have same : (h.addDisplay id bounds).1 = h := by simp [addDisplay, taken]
      rw [mutate, same]
  | createRootTask => exact settled fun _ _ made => .single (.createTask made)
  | createTask => exact settled fun _ _ made => .single (.createTask made)
  | createFragment => exact settled fun _ _ made => .single (.createFragment made)
  | createActivity record => exact .single (.createActivity record)
  | addActivity => exact settled fun _ _ made => .single (.addActivity made)
  | createSplitPair =>
    refine settled fun _ _ made => ?_
    exact createSplitPair_induct made .refl (fun before made => before.tail (.createTask made))
      fun before paired => before.tail (.setAdjacent paired)
  | getOrCreateRootTask => exact settled fun _ _ made => changes_getOrCreateRootTask made
  | attach => exact replaced fun _ placed => .single (.attach placed)
  | detach child =>
    refine replaced fun _ taken => ?_
    obtain ⟨_, rfl⟩ := detach_eq_ok_iff.mp taken
    exact .single (.unlink child)
  | reparent child parent position =>
    refine replaced fun _ moved => ?_
    obtain ⟨_, placed⟩ := reparent_eq_ok_iff.mp moved
    exact .tail (.single (.unlink child)) (.attach placed)
  | positionChild child position =>
    refine replaced fun _ moved => ?_
    obtain ⟨_, rfl⟩ := positionChild_eq_ok_iff.mp moved
    exact .single (.reorder child position)
  | remove k => exact .single (.remove k)
  | setAdjacent => exact replaced fun _ paired => .single (.setAdjacent paired)
  | clearAdjacent k => exact .single (.clearAdjacent k)
  | moveDisplayToTop k => exact .single (.raiseDisplay k)
  | moveTaskToFront k => exact changes_moveTaskToFront h k

end WindowHost.Hierarchy
