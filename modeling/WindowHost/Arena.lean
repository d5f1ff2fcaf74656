/-! A growing table of entries. Every entry gets the next index, an index is never handed out
twice, and index 0 is never handed out at all. An index that outlives its entry therefore stays
stale for good. -/
namespace WindowHost

/-- Slot `i` holds the entry with index `i`, or nothing once the entry is erased. -/
structure Arena (α : Type) where
  slots : Array (Option α)

namespace Arena
variable {α : Type}

def empty : Arena α := ⟨#[none]⟩

def get? (a : Arena α) (i : Nat) : Option α := a.slots[i]?.join

def contains (a : Arena α) (i : Nat) : Bool := (a.get? i).isSome

/-- The index that the next inserted entry gets. -/
def next (a : Arena α) : Nat := a.slots.size

def insert (a : Arena α) (x : α) : Arena α := ⟨a.slots.push (some x)⟩

def erase (a : Arena α) (i : Nat) : Arena α := ⟨a.slots.setIfInBounds i none⟩

def modify (a : Arena α) (i : Nat) (f : α → α) : Arena α := ⟨a.slots.modify i (Option.map f)⟩

/-- The number of entries that are still there. -/
def count (a : Arena α) : Nat := a.slots.countP Option.isSome

theorem get?_empty (i : Nat) : (empty : Arena α).get? i = none := by
  unfold get? empty
  match i with
  | 0 => rfl
  | _ + 1 => simp

theorem get?_eq_none_of_next_le {a : Arena α} {i : Nat} (h : a.next ≤ i) : a.get? i = none := by
  have hs : a.slots[i]? = none := Array.getElem?_eq_none h
  simp [get?, hs]

theorem get?_insert (a : Arena α) (x : α) (i : Nat) :
    (a.insert x).get? i = if i = a.next then some x else a.get? i := by
  unfold get? insert next
  rw [Array.getElem?_push]
  split <;> rfl

theorem get?_erase (a : Arena α) (i j : Nat) :
    (a.erase i).get? j = if j = i then none else a.get? j := by
  unfold get? erase
  rw [Array.getElem?_setIfInBounds]
  by_cases h : i = j
  · subst h
    by_cases hb : i < a.slots.size <;> simp [hb]
  · simp [h, Ne.symm h]

theorem get?_modify (a : Arena α) (i j : Nat) (f : α → α) :
    (a.modify i f).get? j = if j = i then (a.get? j).map f else a.get? j := by
  unfold get? modify
  rw [Array.getElem?_modify]
  by_cases h : i = j
  · subst h
    cases a.slots[i]? <;> simp
  · simp [h, Ne.symm h]

theorem lt_next_of_get? {a : Arena α} {i : Nat} {x : α} (held : a.get? i = some x) :
    i < a.next := by
  refine Nat.lt_of_not_le fun past => ?_
  rw [get?_eq_none_of_next_le past] at held
  contradiction

/-- A table is known by its entries and by the next index. -/
theorem ext_get? {a b : Arena α} (next : a.next = b.next) (entries : ∀ i, a.get? i = b.get? i) :
    a = b := by
  suffices slots : a.slots = b.slots by
    cases a
    cases b
    exact congrArg _ slots
  refine Array.ext next fun i left right => ?_
  simpa [get?, left, right] using entries i

theorem next_modify (a : Arena α) (i : Nat) (f : α → α) : (a.modify i f).next = a.next :=
  Array.size_modify

theorem count_modify (a : Arena α) (i : Nat) (f : α → α) : (a.modify i f).count = a.count := by
  have live : (a.modify i f).slots.map Option.isSome = a.slots.map Option.isSome := by
    refine Array.ext (by simp [modify]) fun j left right => ?_
    by_cases same : i = j <;> simp [modify, Array.getElem_modify, same]
  have counted : ∀ slots : Array (Option α),
      slots.countP Option.isSome = (slots.map Option.isSome).countP id := by
    intro slots
    rw [Array.countP_map, Function.id_comp]
  rw [count, count, counted, live, ← counted]

theorem count_erase_le (a : Arena α) (i : Nat) : (a.erase i).count ≤ a.count := by
  unfold erase Array.setIfInBounds
  split
  · rw [count, Array.countP_set]
    simp [count]
  · exact Nat.le_refl _

theorem count_erase_lt {a : Arena α} {i : Nat} (held : a.contains i = true) :
    (a.erase i).count < a.count := by
  obtain ⟨x, found⟩ := Option.isSome_iff_exists.mp held
  have bound : i < a.slots.size := lt_next_of_get? found
  have here : (a.slots[i]).isSome = true := by
    have slot : a.slots[i]?.join = some x := found
    rw [Array.getElem?_eq_getElem bound] at slot
    exact Option.isSome_iff_exists.mpr ⟨x, slot⟩
  have counted : 0 < a.slots.countP Option.isSome :=
    Array.countP_pos_iff.mpr ⟨_, Array.getElem_mem bound, here⟩
  rw [erase, Array.setIfInBounds, dif_pos bound, count, Array.countP_set, if_pos here]
  exact Nat.sub_lt counted Nat.one_pos

end Arena
end WindowHost
