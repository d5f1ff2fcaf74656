/-! Word arithmetic that refuses to wrap. An operation answers its exact result when that is a
word, and says which operation overflowed otherwise. A time is a number of milliseconds, and its
seconds are a word. -/
namespace WindowHost

inductive Overflow where
  | add
  | multiply
  | addTime
  deriving DecidableEq, Repr

def Overflow.message : Overflow → String
  | .add => "attempt to add with overflow"
  | .multiply => "attempt to multiply with overflow"
  | .addTime => "overflow when adding durations"

namespace Checked

def addSigned (a b : Int32) : Except Overflow Int32 :=
  let sum := a.toInt + b.toInt
  if -0x80000000 ≤ sum ∧ sum < 0x80000000 then .ok (Int32.ofInt sum) else .error .add

def add (a b : UInt32) : Except Overflow UInt32 :=
  let sum := a.toNat + b.toNat
  if sum < UInt32.size then .ok (UInt32.ofNat sum) else .error .add

def multiply (a b : UInt32) : Except Overflow UInt32 :=
  let product := a.toNat * b.toNat
  if product < UInt32.size then .ok (UInt32.ofNat product) else .error .multiply

/-- Every time is before this one. -/
def timeLimit : Nat := UInt64.size * 1000

def addTime (a b : Nat) : Except Overflow Nat :=
  let sum := a + b
  if sum < timeLimit then .ok sum else .error .addTime

end Checked
end WindowHost
