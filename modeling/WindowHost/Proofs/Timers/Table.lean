import Mathlib.Data.List.Sort
import Mathlib.Data.Prod.Lex
import WindowHost.Proofs.Timers.Entries

/-! A plain table of timers. It tells of every pending key when it fires and which call has set
that. It has no entries, no counter that wraps and nothing to sort, and what a call over it may
answer is settled: there is one answer. -/
namespace WindowHost

inductive TimerCall (κ : Type) where
  | schedule (key : κ) (deadline : ℕ)
  | cancel (key : κ)
  | poll (now : ℕ)

def TimerCall.schedules {κ : Type} : TimerCall κ → Bool
  | .schedule .. => true
  | _ => false

inductive TimerAnswer (κ : Type) where
  /-- The deadline that the call has replaced. -/
  | scheduled (replaced : Option ℕ)
  /-- Whether the key was pending. -/
  | cancelled (pending : Bool)
  | fired (keys : List κ)
  deriving DecidableEq

structure TimerTable (κ : Type) where
  /-- The deadline of a pending key, and the rank of the call that has set it. -/
  timer? : κ → Option (ℕ × ℕ)
  /-- How many calls have scheduled something. -/
  scheduled : ℕ

namespace TimerTable
variable {κ : Type} {t : TimerTable κ} {call : TimerCall κ}

def empty : TimerTable κ := ⟨fun _ => none, 0⟩

/-- By the deadline, then by the rank. -/
def Before (t : TimerTable κ) (a b : κ) : Prop :=
  ∃ x y, t.timer? a = some x ∧ t.timer? b = some y ∧ toLex x < toLex y

structure Fires (t : TimerTable κ) (now : ℕ) (keys : List κ) : Prop where
  mem_iff : ∀ key, key ∈ keys ↔
    ∃ deadline rank, t.timer? key = some (deadline, rank) ∧ deadline ≤ now
  nodup : keys.Nodup
  ordered : keys.Pairwise t.Before

def Gives (t : TimerTable κ) : TimerCall κ → TimerAnswer κ → Prop
  | .schedule key _, .scheduled replaced => replaced = (t.timer? key).map Prod.fst
  | .cancel key, .cancelled pending => pending = (t.timer? key).isSome
  | .poll now, .fired keys => t.Fires now keys
  | _, _ => False

theorem not_before_of_before {a b : κ} (first : t.Before a b) : ¬ t.Before b a := by
  rintro ⟨y, x, right, left, back⟩
  obtain ⟨x', y', left', right', ahead⟩ := first
  obtain rfl : x' = x := Option.some_injective _ (left'.symm.trans left)
  obtain rfl : y' = y := Option.some_injective _ (right'.symm.trans right)
  exact lt_asymm ahead back

theorem Fires.unique {now : ℕ} {keys others : List κ} (first : t.Fires now keys)
    (second : t.Fires now others) : keys = others := by
  have same : keys.Perm others := (List.perm_ext_iff_of_nodup first.nodup second.nodup).mpr
    fun key => (first.mem_iff key).trans (second.mem_iff key).symm
  exact same.eq_of_pairwise (fun _ _ _ _ ahead back => absurd back (not_before_of_before ahead))
    first.ordered second.ordered

theorem Gives.unique {a b : TimerAnswer κ} (first : t.Gives call a) (second : t.Gives call b) :
    a = b := by
  cases call <;> cases a <;> cases b <;> simp only [Gives] at first second
  · rw [first, second]
  · rw [first, second]
  · rw [first.unique second]

/-- Every rank was taken by one call, the latest one for its key. -/
structure Ranked (t : TimerTable κ) : Prop where
  lt : ∀ {key deadline rank}, t.timer? key = some (deadline, rank) → rank < t.scheduled
  unique : ∀ {a b x y rank}, t.timer? a = some (x, rank) → t.timer? b = some (y, rank) → a = b

variable [DecidableEq κ] {calls : List (TimerCall κ)} {key : κ}

def after (t : TimerTable κ) : TimerCall κ → TimerTable κ
  | .schedule key deadline =>
    ⟨Function.update t.timer? key (some (deadline, t.scheduled)), t.scheduled + 1⟩
  | .cancel key => { t with timer? := Function.update t.timer? key none }
  | .poll now => { t with timer? := fun key => (t.timer? key).filter (now < ·.1) }

/-- The table that a run of calls leads to. -/
def ofCalls (calls : List (TimerCall κ)) : TimerTable κ := calls.foldl after empty

@[simp] theorem ofCalls_concat : ofCalls (calls ++ [call]) = (ofCalls calls).after call := by
  simp [ofCalls]

theorem scheduled_after :
    (t.after call).scheduled = t.scheduled + if call.schedules then 1 else 0 := by
  cases call <;> rfl

theorem scheduled_ofCalls : (ofCalls calls).scheduled = calls.countP TimerCall.schedules := by
  induction calls using List.reverseRecOn with
  | nil => rfl
  | append_singleton calls call ih =>
    rw [ofCalls_concat, scheduled_after, ih, List.countP_append, List.countP_singleton]

/-- A call leaves what is pending as it was, unless it schedules the key. -/
theorem timer?_of_after {timer : ℕ × ℕ} (found : (t.after call).timer? key = some timer) :
    t.timer? key = some timer ∨
      ∃ deadline, call = .schedule key deadline ∧ timer = (deadline, t.scheduled) := by
  cases call with
  | schedule k deadline =>
    by_cases same : key = k
    · subst same
      exact .inr ⟨deadline, rfl, by simpa [after, eq_comm] using found⟩
    · exact .inl (by simpa [after, same] using found)
  | cancel k =>
    by_cases same : key = k <;> simp_all [after]
  | poll now => exact .inl (Option.filter_eq_some_iff.mp found).1

theorem Ranked.after (ranked : t.Ranked) (call : TimerCall κ) : (t.after call).Ranked := by
  constructor
  · intro key deadline rank found
    rw [scheduled_after]
    obtain kept | ⟨d, rfl, new⟩ := timer?_of_after found
    · have := ranked.lt kept
      omega
    · simp_all [TimerCall.schedules]
  · intro a b x y rank first second
    -- The rank that the call takes is past all the others.
    obtain left | ⟨d, rfl, new⟩ := timer?_of_after first <;>
      obtain right | ⟨e, other, newer⟩ := timer?_of_after second
    · exact ranked.unique left right
    · have := ranked.lt left
      simp_all
    · have := ranked.lt right
      simp_all
    · simp_all

theorem ranked_ofCalls (calls : List (TimerCall κ)) : (ofCalls calls).Ranked := by
  induction calls using List.reverseRecOn with
  | nil => constructor <;> intros <;> contradiction
  | append_singleton calls call ih =>
    rw [ofCalls_concat]
    exact ih.after call

end TimerTable
end WindowHost
