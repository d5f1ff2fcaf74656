import Mathlib.Data.Set.Card
import WindowHost.TimerQueue

/-! What a timer queue tells of a key after each of its calls. The order of the entries shows in
nothing that a queue tells, so that entries may be put in any other order between two calls. -/
namespace WindowHost

namespace Timer
variable {a b c : Timer}

theorem precedes_iff :
    a.precedes b = true ↔ a.deadline < b.deadline ∨ a.deadline = b.deadline ∧ a.rank ≤ b.rank := by
  simp [precedes]

theorem precedes_trans (first : a.precedes b = true) (second : b.precedes c = true) :
    a.precedes c = true := by
  rw [precedes_iff, UInt64.le_iff_toNat_le] at *
  omega

theorem precedes_total (a b : Timer) : (a.precedes b || b.precedes a) = true := by
  rw [Bool.or_eq_true, precedes_iff, precedes_iff, UInt64.le_iff_toNat_le, UInt64.le_iff_toNat_le]
  omega

end Timer

namespace TimerQueue
variable {κ : Type} {q r : TimerQueue κ} {key : κ} {timer : Timer} {now : ℕ}

theorem mem_due {entry : κ × Timer} :
    entry ∈ q.due now ↔ entry ∈ q.entries ∧ entry.2.deadline ≤ now := by
  simp [due]

theorem pairwise_due (q : TimerQueue κ) (now : ℕ) :
    (q.due now).Pairwise (fun a b => a.2.precedes b.2 = true) := by
  refine List.pairwise_mergeSort ?_ ?_ _
  · exact fun _ _ _ => Timer.precedes_trans
  · exact fun _ _ => Timer.precedes_total ..

theorem nodup_expired (q : TimerQueue κ) (now : ℕ) : (q.expired now).Nodup := by
  have sorted : (q.due now).Perm (q.entries.filter (·.2.deadline ≤ now)) := List.mergeSort_perm ..
  exact ((sorted.map Prod.fst).nodup_iff).mpr
    (q.distinct.sublist (List.filter_sublist.map Prod.fst))

/-- The same timers, in any order. -/
structure Reordered (q r : TimerQueue κ) : Prop where
  entries : q.entries.Perm r.entries
  nextRank : q.nextRank = r.nextRank

theorem Reordered.refl (q : TimerQueue κ) : q.Reordered q := ⟨.refl _, rfl⟩

variable [DecidableEq κ]

theorem timer?_eq_some_iff : q.timer? key = some timer ↔ (key, timer) ∈ q.entries := by
  obtain ⟨entries, next, distinct⟩ := q
  simp only [timer?]
  induction entries with
  | nil => simp
  | cons entry rest ih =>
    obtain ⟨k, t⟩ := entry
    obtain ⟨absent, distinct⟩ := List.nodup_cons.mp distinct
    by_cases found : key = k
    · subst found
      have elsewhere : (key, timer) ∉ rest := fun mem => absent (List.mem_map.mpr ⟨_, mem, rfl⟩)
      simp [elsewhere, eq_comm]
    · have passed : (key == k) = false := beq_eq_false_iff_ne.mpr found
      simp [List.lookup_cons, passed, found, ih distinct]

theorem timer?_empty (key : κ) : (empty : TimerQueue κ).timer? key = none := rfl

theorem timer?_cancel (q : TimerQueue κ) (key k : κ) :
    (q.cancel key).timer? k = if k = key then none else q.timer? k := by
  ext timer
  by_cases same : k = key <;> simp [timer?_eq_some_iff, cancel, same]

theorem timer?_schedule (q : TimerQueue κ) (key : κ) (deadline : ℕ) (k : κ) :
    (q.schedule key deadline).timer? k =
      if k = key then some ⟨deadline, q.nextRank⟩ else q.timer? k := by
  ext timer
  rw [timer?_eq_some_iff]
  by_cases same : k = key
  · simp [schedule, cancel, same, eq_comm]
  · simp [schedule, cancel, same, timer?_eq_some_iff]

theorem timer?_foldl_cancel (q : TimerQueue κ) (keys : List κ) (k : κ) :
    (keys.foldl cancel q).timer? k = if k ∈ keys then none else q.timer? k := by
  induction keys generalizing q with
  | nil => simp
  | cons key keys ih =>
    rw [List.foldl_cons, ih, timer?_cancel]
    by_cases same : k = key <;> simp [same]

theorem nextRank_foldl_cancel (q : TimerQueue κ) (keys : List κ) :
    (keys.foldl cancel q).nextRank = q.nextRank := by
  induction keys generalizing q with
  | nil => rfl
  | cons key keys ih => exact ih _

theorem mem_expired :
    key ∈ q.expired now ↔ ∃ timer, q.timer? key = some timer ∧ timer.deadline ≤ now := by
  simp [expired, mem_due, timer?_eq_some_iff]

theorem timer?_afterPoll (q : TimerQueue κ) (now : ℕ) (k : κ) :
    (q.afterPoll now).timer? k = (q.timer? k).filter (now < ·.deadline) := by
  rw [afterPoll, timer?_foldl_cancel]
  simp only [mem_expired]
  cases q.timer? k with
  | none => simp
  | some timer =>
    by_cases late : timer.deadline ≤ now <;> simp [late, Option.filter]

theorem nextRank_afterPoll (q : TimerQueue κ) (now : ℕ) :
    (q.afterPoll now).nextRank = q.nextRank := nextRank_foldl_cancel ..

theorem encard_pending (q : TimerQueue κ) : {key | (q.timer? key).isSome}.encard = q.size := by
  have pending : {key | (q.timer? key).isSome} = ((q.entries.map Prod.fst).toFinset : Set κ) := by
    ext key
    simp [Option.isSome_iff_exists, timer?_eq_some_iff]
  rw [pending, Set.encard_coe_eq_coe_finsetCard, List.toFinset_card_of_nodup q.distinct,
    List.length_map, size]

theorem isEmpty_iff : q.isEmpty = true ↔ ∀ key, q.timer? key = none := by
  simp only [isEmpty, List.isEmpty_iff, List.eq_nil_iff_forall_not_mem, Prod.forall,
    ← timer?_eq_some_iff, Option.eq_none_iff_forall_ne_some, ne_eq]

theorem nextDeadline?_eq_some_iff {deadline : ℕ} :
    q.nextDeadline? = some deadline ↔
      IsLeast {d | ∃ key timer, q.timer? key = some timer ∧ timer.deadline = d} deadline := by
  simp [nextDeadline?, List.min?_eq_some_iff, IsLeast, lowerBounds, timer?_eq_some_iff]

theorem Reordered.timer? (reordered : q.Reordered r) (key : κ) : q.timer? key = r.timer? key := by
  ext timer
  rw [timer?_eq_some_iff, timer?_eq_some_iff, reordered.entries.mem_iff]

end TimerQueue
end WindowHost
