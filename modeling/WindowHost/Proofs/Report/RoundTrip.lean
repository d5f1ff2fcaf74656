import WindowHost.Report.Encoding

/-! Reading back what was written. The library that writes and reads is a parameter here: of it is
taken what is documented of records, of fields that may be missing, of names, and of the bound on
brackets. A written record is an object, of which a reader sees only what it finds under each name,
so the account goes field by field: a field that is always written is found and read back, and one
that was left out is not found and counts as absent. Over a tree it goes by recursion on the nodes
and on lists of children. Nothing is lost in it, and a reader with a bound refuses what is nested
too deep for it and nothing else. -/
namespace WindowHost

/-- A library that writes snapshots and reports and reads them within a room. -/
structure Codec where
  writeSnapshot : Snapshot → Json
  readSnapshot? : Room → Json → Option Snapshot
  writeReport : StartReport → Json
  readReport? : Room → Json → Option StartReport

namespace Codec

/-- The children of a node, by what is found under their name; there are none if nothing is. -/
def readChildren? (c : Codec) (room : Room) : Option Json → Option (List Snapshot)
  | none => some []
  | some (.list items) => room.enter?.bind fun inside => items.mapM (c.readSnapshot? inside)
  | some _ => none

/-- What is documented of the library, for records that are declared as these are. -/
structure Documented (c : Codec) : Prop where
  /-- A node is written as an object with its fields in order. The optional ones among them are left
  out where they are absent. -/
  writeSnapshot : ∀ kind label focused mode adjacent activity children,
    c.writeSnapshot (.node kind label focused mode adjacent activity children) = .object (
      [("kind", .text kind.name), ("label", .text label), ("focused", .bool focused)]
        ++ Json.fieldOf "windowing_mode" .text mode
        ++ Json.fieldOf "adjacent" .text adjacent
        ++ Json.fieldOf "activity" ActivitySnapshot.encode activity
        ++ [("children", .list (children.map c.writeSnapshot))])
  /-- A node is read from the fields of a record if there is room for the brackets around them. An
  optional field may be missing, and so may the children. -/
  readSnapshot? : ∀ room j, c.readSnapshot? room j = room.enter?.bind fun inside =>
    (j.record? Snapshot.fieldNames).bind fun fields =>
      Snapshot.assemble? inside fields (c.readChildren? inside fields[6]?.join)
  writeReport : ∀ reason result code externalSuccess activity,
    c.writeReport ⟨reason, result, code, externalSuccess, activity⟩ = .object (
      [("reason", .text reason), ("result", .text result), ("code", .integer code.toInt),
        ("external_success", .bool externalSuccess)]
        ++ Json.fieldOf "activity" .text activity)
  readReport? : ∀ room j, c.readReport? room j = room.enter?.bind fun _ =>
    (j.record? StartReport.fieldNames).bind StartReport.assemble?

/-- The library that the host's own reports go through. -/
def json : Codec where
  writeSnapshot := Snapshot.encode
  readSnapshot? := Snapshot.decodeWithin?
  writeReport := StartReport.encode
  readReport? := StartReport.decodeWithin?

end Codec

/-- Whether that many more brackets may be opened one in the other. -/
def Room.holds : Room → Nat → Bool
  | none, _ => true
  | some room, n => n ≤ room

theorem Room.holds_zero (room : Room) : room.holds 0 = true := by
  cases room <;> simp [holds]

theorem Room.holds_max (room : Room) (m n : Nat) :
    room.holds (2 * max m n) = (room.holds (2 * m) && room.holds (2 * n)) := by
  cases room with
  | none => rfl
  | some room =>
    rw [Bool.eq_iff_iff]
    simp only [holds, Bool.and_eq_true, decide_eq_true_eq]
    omega

theorem Room.enter?_cases (room : Room) :
    room.enter? = none ∧ (∀ n, room.holds (n + 1) = false) ∨
      ∃ inside, room.enter? = some inside ∧ ∀ n, room.holds (n + 1) = inside.holds n := by
  match room with
  | none => exact .inr ⟨none, rfl, fun _ => rfl⟩
  | some 0 => exact .inl ⟨rfl, fun n => by simp [holds]⟩
  | some (room + 1) => exact .inr ⟨some room, rfl, fun n => by simp [holds]⟩

theorem Room.enter?_some {n : Nat} {inside : Room} (enters : Room.enter? (some n) = some inside) :
    ∃ m, n = m + 1 ∧ inside = some m := by
  cases n with
  | zero => contradiction
  | succ m => exact ⟨m, rfl, (Option.some.inj enters).symm⟩

namespace Snapshot

mutual

/-- How many nodes lie in one another at most. -/
def height : Snapshot → Nat
  | .node _ _ _ _ _ _ children => heightOfAll children + 1

def heightOfAll : List Snapshot → Nat
  | [] => 0
  | s :: rest => max (height s) (heightOfAll rest)

end

end Snapshot


/-- A name is found again in the list of all values if no two of them share it. -/
theorem find?_name {α : Type} {name : α → String} {all : List α} {x : α} (mem : x ∈ all)
    (inj : ∀ y ∈ all, name y = name x → y = x) : all.find? (name · == name x) = some x := by
  obtain ⟨y, found⟩ : ∃ y, all.find? (name · == name x) = some y := by
    apply Option.isSome_iff_exists.mp
    rw [List.find?_isSome]
    exact ⟨x, mem, beq_self_eq_true _⟩
  have same : name y = name x := by simpa using List.find?_some found
  rw [found, inj y (List.mem_of_find?_eq_some found) same]

theorem SnapshotKind.asKind?_name (kind : SnapshotKind) (room : Room) :
    (Json.text kind.name).asKind? room = some kind := by
  apply find?_name
  · cases kind <;> simp [all]
  · intro other _ same
    cases kind <;> cases other <;> simp [name] at same ⊢

theorem ActivityState.asState?_label (state : ActivityState) (room : Room) :
    (Json.text state.label).asState? room = some state := by
  apply find?_name
  · cases state <;> simp [all]
  · intro other _ same
    cases state <;> cases other <;> simp [label] at same ⊢

namespace Json

@[simp] theorem lookup_fieldOf_self {α : Type} (name : String) (write : α → Json)
    (value : Option α) : (fieldOf name write value).lookup name = value.map write := by
  cases value <;> simp [fieldOf]

theorem lookup_fieldOf_of_ne {α : Type} {name other : String} (write : α → Json)
    (value : Option α) (ne : other ≠ name) : (fieldOf name write value).lookup other = none := by
  have differs : (other == name) = false := beq_false_of_ne ne
  cases value <;> simp [fieldOf, List.lookup_cons, differs]

theorem filter_fieldOf {α : Type} (name other : String) (write : α → Json) (value : Option α) :
    (fieldOf name write value).filter (·.1 == other) =
      if name = other then fieldOf name write value else [] := by
  cases value <;> by_cases same : name = other <;> simp [fieldOf, same]

theorem length_fieldOf_le {α : Type} (name : String) (write : α → Json) (value : Option α) :
    (fieldOf name write value).length ≤ 1 := by
  cases value <;> simp [fieldOf]

/-- An optional field is read back whether it was written or left out. What is written for a value
is not the empty value, or it would be taken for an absent one. -/
theorem optional_map {α : Type} {read : Json → Option α} {write : α → Json}
    (back : ∀ x, read (write x) = some x) (filled : ∀ x, write x ≠ .null) (value : Option α) :
    optional read (value.map write) = some value := by
  cases value with
  | none => rfl
  | some x =>
    rw [Option.map_some, optional, back, Option.map_some]
    exact filled x

theorem optional_text (value : Option String) :
    optional asText? (value.map text) = some value := by
  apply optional_map
  · exact fun _ => rfl
  · exact fun _ => nofun

end Json

namespace ActivitySnapshot

/-- An activity is read back where there is room for one bracket. -/
theorem decodeWithin?_encode {room inside : Room} (enters : room.enter? = some inside)
    (a : ActivitySnapshot) : decodeWithin? room a.encode = some a := by
  have fields : a.encode.record? fieldNames = some [some (.text a.state.label),
      some (.bool a.visibleRequested), some (.bool a.finishing), some (.bool a.attached)] := by
    simp [encode, Json.record?, Json.givenOnce, fieldNames, List.lookup_cons]
  simp [decodeWithin?, enters, fields, assemble?, Json.required, Json.asBool?,
    ActivityState.asState?_label]

end ActivitySnapshot

namespace Codec
variable {c : Codec}

/-- What a reader finds in a written node under each name. -/
theorem Documented.record?_writeSnapshot (documented : c.Documented) (kind : SnapshotKind)
    (label : String) (focused : Bool) (mode adjacent : Option String)
    (activity : Option ActivitySnapshot) (children : List Snapshot) :
    (c.writeSnapshot (.node kind label focused mode adjacent activity children)).record?
        Snapshot.fieldNames =
      some [some (.text kind.name), some (.text label), some (.bool focused),
        mode.map .text, adjacent.map .text, activity.map ActivitySnapshot.encode,
        some (.list (children.map c.writeSnapshot))] := by
  rw [documented.writeSnapshot]
  simp [Json.record?, Json.givenOnce, Snapshot.fieldNames, List.lookup_append, List.lookup_cons,
    Json.lookup_fieldOf_of_ne, Json.filter_fieldOf, Json.length_fieldOf_le]

theorem assemble?_none (room : Room) (fields : List (Option Json)) :
    Snapshot.assemble? room fields none = none := by
  unfold Snapshot.assemble?
  split
  · simp
  · rfl

mutual

/-- A written snapshot is read back where there is room for two brackets a level, of the node and of
the list of what lies in it. -/
theorem Documented.readSnapshot?_writeSnapshot (documented : c.Documented) :
    (s : Snapshot) → (room : Room) → c.readSnapshot? room (c.writeSnapshot s) =
      if room.holds (2 * s.height) then some s else none
  | .node kind label focused mode adjacent activity children, room => by
    rw [documented.readSnapshot?, documented.record?_writeSnapshot, Snapshot.height, Nat.mul_succ]
    obtain ⟨closed, full⟩ | ⟨inside, enters, holds⟩ := room.enter?_cases
    · rw [closed, full]
      rfl
    rw [enters, holds]
    obtain ⟨closed, full⟩ | ⟨deeper, enters', holds'⟩ := inside.enter?_cases
    · rw [full]
      simp [readChildren?, closed, assemble?_none]
    rw [holds']
    have held := documented.mapM_readSnapshot? children deeper
    have activity_ : Json.optional (ActivitySnapshot.decodeWithin? inside)
        (activity.map ActivitySnapshot.encode) = some activity :=
      Json.optional_map (ActivitySnapshot.decodeWithin?_encode enters') (fun _ => nofun) activity
    simp only [Option.bind_some, List.getElem?_cons_succ, List.getElem?_cons_zero, Option.join_some,
      readChildren?, enters', List.mapM_map, held, Snapshot.assemble?, Json.required,
      SnapshotKind.asKind?_name, Json.asText?, Json.asBool?, Json.optional_text, activity_]
    split <;> rfl

theorem Documented.mapM_readSnapshot? (documented : c.Documented) :
    (all : List Snapshot) → (room : Room) →
    all.mapM (c.readSnapshot? room ∘ c.writeSnapshot) =
      if room.holds (2 * Snapshot.heightOfAll all) then some all else none
  | [], room => by simp [Snapshot.heightOfAll, Room.holds_zero]
  | s :: rest, room => by
    have head := documented.readSnapshot?_writeSnapshot s room
    have tail := documented.mapM_readSnapshot? rest room
    rw [List.mapM_cons, Function.comp_apply, head, tail, Snapshot.heightOfAll, room.holds_max]
    cases room.holds (2 * s.height) with
    | false => rfl
    | true => cases room.holds (2 * Snapshot.heightOfAll rest) <;> rfl

end

theorem children_of_assemble? {room : Room} {fields : List (Option Json)}
    {held : Option (List Snapshot)} {s : Snapshot}
    (put : Snapshot.assemble? room fields held = some s) : held = some s.children := by
  unfold Snapshot.assemble? at put
  split at put
  · simp only [Option.bind_eq_bind, Option.bind_eq_some_iff, Option.pure_def] at put
    obtain ⟨_, _, _, _, _, _, _, _, _, _, _, _, children, known, same⟩ := put
    rw [known, ← Option.some.inj same, Snapshot.children]
  · contradiction

mutual

/-- What was read within a bound is one bracket too high for it at most. -/
theorem Documented.height_le (documented : c.Documented) : (s : Snapshot) → (n : Nat) → (j : Json) →
    c.readSnapshot? (some n) j = some s → 2 * s.height ≤ n + 1
  | .node kind label focused mode adjacent activity children, n, j, read => by
    rw [documented.readSnapshot?, Option.bind_eq_some_iff] at read
    obtain ⟨inside, enters, read⟩ := read
    obtain ⟨fields, _, put⟩ := Option.bind_eq_some_iff.mp read
    have held : c.readChildren? inside fields[6]?.join = some children := children_of_assemble? put
    obtain ⟨m, rfl, rfl⟩ := Room.enter?_some enters
    rw [Snapshot.height]
    unfold readChildren? at held
    split at held
    · obtain rfl := Option.some.inj held
      rw [Snapshot.heightOfAll]
      omega
    · obtain ⟨deeper, enters, held⟩ := Option.bind_eq_some_iff.mp held
      obtain ⟨k, rfl, rfl⟩ := Room.enter?_some enters
      have within := documented.heightOfAll_le children k _ held
      omega
    · contradiction

theorem Documented.heightOfAll_le (documented : c.Documented) : (all : List Snapshot) →
    (n : Nat) → (items : List Json) → items.mapM (c.readSnapshot? (some n)) = some all →
      2 * Snapshot.heightOfAll all ≤ n + 1
  | [], _, _, _ => Nat.zero_le _
  | s :: rest, n, items, read => by
    cases items with
    | nil => simp at read
    | cons item items =>
      simp only [List.mapM_cons, Option.bind_eq_bind, Option.bind_eq_some_iff, Option.pure_def,
        Option.some.injEq, List.cons.injEq] at read
      obtain ⟨_, head, _, tail, first, others⟩ := read
      have highest := documented.height_le s n item (first ▸ head)
      have lower := documented.heightOfAll_le rest n items (others ▸ tail)
      rw [Snapshot.heightOfAll]
      omega

end

end Codec

namespace Snapshot

end Snapshot

namespace Codec

/-- Tasks in one another, and an activity in the innermost one. -/
def chain : Nat → Snapshot
  | 0 => .node .activity "mail/Inbox" true none none (some ⟨.resumed, true, false, true⟩) []
  | n + 1 => .node .task "#1" true (some "fullscreen") none none [chain n]

end Codec

/-- A task that says no more than it must, in an order of its own and with a field of its own. -/
example :
    Snapshot.decode? (.object [("label", .text "#1"), ("pid", .integer 7), ("focused", .bool true),
      ("kind", .text "Task")]) = some (.node .task "#1" true none none none []) := by
  rfl

end WindowHost
