/-! Sets of named bits in a 32-bit word. A kind of flag lists its members in order, each with a
bit and a name; a set may also hold bits that belong to no member, and keeps them. -/
namespace WindowHost

class FlagKind (κ : Type) where
  members : List κ
  bit : κ → UInt32
  name : κ → String

structure Flags (κ : Type) where
  bits : UInt32
  deriving DecidableEq

namespace Flags
variable {κ : Type}

def empty : Flags κ := ⟨0⟩

instance : Inhabited (Flags κ) := ⟨empty⟩

def union (s t : Flags κ) : Flags κ := ⟨s.bits ||| t.bits⟩

def inter (s t : Flags κ) : Flags κ := ⟨s.bits &&& t.bits⟩

/-- Whether every bit of `t` is set in `s`. -/
def includes (s t : Flags κ) : Bool := s.bits &&& t.bits == t.bits

variable [FlagKind κ]

def single (k : κ) : Flags κ := ⟨FlagKind.bit k⟩

def has (s : Flags κ) (k : κ) : Bool := s.includes (single k)

def insert (s : Flags κ) (k : κ) : Flags κ := s.union (single k)

/-- The set of all members. -/
def known : Flags κ := (FlagKind.members : List κ).foldl insert empty

def names (s : Flags κ) : List String :=
  ((FlagKind.members : List κ).filter s.has).map FlagKind.name

theorem has_insert (s : Flags κ) (k : κ) : (s.insert k).has k = true := by
  have kept : ∀ b c : UInt32, (b ||| c) &&& c = c := by
    intro b c
    apply UInt32.toBitVec_inj.mp
    ext i
    simp only [UInt32.toBitVec_and, UInt32.toBitVec_or, BitVec.getElem_and, BitVec.getElem_or]
    grind
  simp [insert, has, includes, union, single, kept]

theorem has_insert_of_apart (s : Flags κ) {j k : κ}
    (apart : FlagKind.bit j &&& FlagKind.bit k = 0) : (s.insert j).has k = s.has k := by
  have kept : (s.bits ||| FlagKind.bit j) &&& FlagKind.bit k = s.bits &&& FlagKind.bit k := by
    have none := congrArg UInt32.toBitVec apart
    rw [UInt32.toBitVec_and] at none
    apply UInt32.toBitVec_inj.mp
    rw [UInt32.toBitVec_and, UInt32.toBitVec_or, UInt32.toBitVec_and, BitVec.and_comm,
      BitVec.and_or_distrib_left, BitVec.and_comm _ (FlagKind.bit j).toBitVec, none]
    simp [BitVec.and_comm]
  simp only [insert, has, includes, union, single, kept]

end Flags
end WindowHost
