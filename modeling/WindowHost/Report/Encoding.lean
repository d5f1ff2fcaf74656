import WindowHost.Report.Snapshot

/-! The written form of snapshots and start reports. A record is written as an object with its
fields in order, a name as its text, and an absent optional field not at all. A reader also takes
a record as the list of its fields, of which trailing optional ones may be left out, and a name as
an object with that name and nothing in it. Fields that it does not know it passes over, and a
record that names one of its fields twice it refuses.

A reader may set a bound on how many brackets stand open at once. The readers of texts that are in
use leave room for 127, so a chain of 64 nodes in one another is too deep for them; a reader of
values that are there already sets no bound. -/
namespace WindowHost

/-- What became of one request. -/
structure StartReport where
  reason : String
  result : String
  code : Int32
  externalSuccess : Bool
  activity : Option String
  deriving DecidableEq

def SnapshotKind.all : List SnapshotKind :=
  [.display, .taskDisplayArea, .rootTask, .task, .taskFragment, .activity]

def SnapshotKind.name : SnapshotKind → String
  | .display => "Display"
  | .taskDisplayArea => "TaskDisplayArea"
  | .rootTask => "RootTask"
  | .task => "Task"
  | .taskFragment => "TaskFragment"
  | .activity => "Activity"

/-- How many more brackets a reader opens; no number where it sets no bound. -/
abbrev Room := Option Nat

/-- The room inside a bracket, if there is room for the bracket. -/
def Room.enter? : Room → Option Room
  | none => some none
  | some 0 => none
  | some (n + 1) => some (some n)

namespace Json

def asText? : Json → Option String
  | .text s => some s
  | _ => none

def asBool? : Json → Option Bool
  | .bool b => some b
  | _ => none

/-- An integer that is a signed word. -/
def asWord? : Json → Option Int32
  | .integer n => if -0x80000000 ≤ n ∧ n < 0x80000000 then some (Int32.ofInt n) else none
  | _ => none

/-- The text of a name: the text itself, or the only field of an object, which holds nothing. -/
def asName? (room : Room) : Json → Option String
  | .text s => some s
  | .object [(name, .null)] => room.enter?.map fun _ => name
  | _ => none

def asKind? (room : Room) (j : Json) : Option SnapshotKind :=
  (j.asName? room).bind fun name => SnapshotKind.all.find? (·.name == name)

def asState? (room : Room) (j : Json) : Option ActivityState :=
  (j.asName? room).bind fun name => ActivityState.all.find? (·.label == name)

/-- A field that must be there. -/
def required {α : Type} (read : Json → Option α) (field : Option Json) : Option α :=
  field.bind read

/-- A field that may be missing or hold nothing. The outer option is empty when the field does not
read. -/
def optional {α : Type} (read : Json → Option α) : Option Json → Option (Option α)
  | none => some none
  | some .null => some none
  | some j => (read j).map some

/-- Whether the name is given at most once. -/
def givenOnce (fields : List (String × Json)) (name : String) : Bool :=
  (fields.filter (·.1 == name)).length ≤ 1

/-- The fields of a record with these names, in order; empty for what no record is written as. A
list that is too long is no record either, nor is an object that gives one of the names twice. -/
def record? (names : List String) : Json → Option (List (Option Json))
  | .object fields =>
    if names.all (givenOnce fields) then some (names.map fun name => fields.lookup name) else none
  | .list items =>
    if items.length ≤ names.length then some ((List.range names.length).map (items[·]?)) else none
  | _ => none

/-- A field of an object, or no field where there is nothing to write. -/
def fieldOf {α : Type} (name : String) (write : α → Json) (value : Option α) :
    List (String × Json) :=
  match value with
  | some x => [(name, write x)]
  | none => []

end Json

namespace ActivitySnapshot

def fieldNames : List String := ["state", "visible_requested", "finishing", "attached"]

def encode (a : ActivitySnapshot) : Json :=
  .object [
    ("state", .text a.state.label),
    ("visible_requested", .bool a.visibleRequested),
    ("finishing", .bool a.finishing),
    ("attached", .bool a.attached)]

def assemble? (room : Room) : List (Option Json) → Option ActivitySnapshot
  | [state, visibleRequested, finishing, attached] => do
    return {
      state := ← Json.required (Json.asState? room) state
      visibleRequested := ← Json.required Json.asBool? visibleRequested
      finishing := ← Json.required Json.asBool? finishing
      attached := ← Json.required Json.asBool? attached }
  | _ => none

def decodeWithin? (room : Room) (j : Json) : Option ActivitySnapshot := do
  let room ← room.enter?
  assemble? room (← j.record? fieldNames)

end ActivitySnapshot

namespace Snapshot

def fieldNames : List String :=
  ["kind", "label", "focused", "windowing_mode", "adjacent", "activity", "children"]

mutual

def encode : Snapshot → Json
  | .node kind label focused mode adjacent activity children =>
    .object (
      [("kind", .text kind.name), ("label", .text label), ("focused", .bool focused)]
        ++ Json.fieldOf "windowing_mode" .text mode
        ++ Json.fieldOf "adjacent" .text adjacent
        ++ Json.fieldOf "activity" ActivitySnapshot.encode activity
        ++ [("children", .list (encodeAll children))])

def encodeAll : List Snapshot → List Json
  | [] => []
  | s :: rest => encode s :: encodeAll rest

end

/-- Puts a node together from its fields and the children that were read. -/
def assemble? (room : Room) (fields : List (Option Json)) (children : Option (List Snapshot)) :
    Option Snapshot :=
  match fields with
  | [kind, label, focused, mode, adjacent, activity, _] => do
    let kind ← Json.required (Json.asKind? room) kind
    let label ← Json.required Json.asText? label
    let focused ← Json.required Json.asBool? focused
    let mode ← Json.optional Json.asText? mode
    let adjacent ← Json.optional Json.asText? adjacent
    let activity ← Json.optional (ActivitySnapshot.decodeWithin? room) activity
    return .node kind label focused mode adjacent activity (← children)
  | _ => none

mutual

def decodeWithin? (room : Room) : Json → Option Snapshot
  | .object fields => do
    let room ← room.enter?
    assemble? room (← (Json.object fields).record? fieldNames) (decodeNamed? room fields)
  | .list items => do
    let room ← room.enter?
    assemble? room (← (Json.list items).record? fieldNames) (decodeAt? room 6 items)
  | _ => none

/-- The children among the fields of an object; there are none if the field is missing. -/
def decodeNamed? (room : Room) : List (String × Json) → Option (List Snapshot)
  | [] => some []
  | (name, value) :: fields =>
    if name = "children" then decodeChildren? room value else decodeNamed? room fields

/-- The children at a place in a list of fields; there are none if the list ends before. -/
def decodeAt? (room : Room) : Nat → List Json → Option (List Snapshot)
  | _, [] => some []
  | 0, value :: _ => decodeChildren? room value
  | n + 1, _ :: rest => decodeAt? room n rest

def decodeChildren? (room : Room) : Json → Option (List Snapshot)
  | .list items => do
    let room ← room.enter?
    decodeAll? room items
  | _ => none

def decodeAll? (room : Room) : List Json → Option (List Snapshot)
  | [] => some []
  | item :: items => do
    let s ← decodeWithin? room item
    return s :: (← decodeAll? room items)

end

/-- Reads a value, however deep it is. -/
def decode? (j : Json) : Option Snapshot := decodeWithin? none j

end Snapshot

namespace StartReport

def fieldNames : List String := ["reason", "result", "code", "external_success", "activity"]

def encode (r : StartReport) : Json :=
  .object (
    [("reason", .text r.reason), ("result", .text r.result), ("code", .integer r.code.toInt),
      ("external_success", .bool r.externalSuccess)]
      ++ Json.fieldOf "activity" .text r.activity)

def assemble? : List (Option Json) → Option StartReport
  | [reason, result, code, externalSuccess, activity] => do
    return {
      reason := ← Json.required Json.asText? reason
      result := ← Json.required Json.asText? result
      code := ← Json.required Json.asWord? code
      externalSuccess := ← Json.required Json.asBool? externalSuccess
      activity := ← Json.optional Json.asText? activity }
  | _ => none

def decodeWithin? (room : Room) (j : Json) : Option StartReport := do
  let _ ← room.enter?
  assemble? (← j.record? fieldNames)

def decode? (j : Json) : Option StartReport := decodeWithin? none j

end StartReport
end WindowHost
