import Mathlib.Data.UInt

/-! `can_frame` of `linux/can.h`, and what a read of an eventfd leaves in one. -/
namespace HyCAN

/-- Fields in memory order; the first four bytes are the identifier word with
its EFF, RTR and ERR flag bits. -/
structure CanFrame where
  canId : UInt32
  len : UInt8
  pad : UInt8
  res0 : UInt8
  len8Dlc : UInt8
  data : Vector UInt8 8
  deriving DecidableEq

namespace CanFrame

def effFlag : UInt32 := 0x80000000
def rtrFlag : UInt32 := 0x40000000
def errFlag : UInt32 := 0x20000000
def sffMask : UInt32 := 0x7FF

/-- The value-initialized `can_frame frame{}` every read starts from. -/
def zero : CanFrame := ⟨0, 0, 0, 0, 0, Vector.replicate 8 0⟩

/-- A data frame with an 11-bit identifier: no flag bit and nothing above the mask. -/
def IsStandardData (frame : CanFrame) : Prop :=
  frame.canId &&& (effFlag ||| rtrFlag ||| errFlag) = 0 ∧ frame.canId ≤ sffMask

instance (frame : CanFrame) : Decidable frame.IsStandardData := inferInstanceAs (Decidable (_ ∧ _))

/-- Reading an eventfd fills the first eight bytes with the little-endian
counter. The identifier word is its low half, so a counter of one looks like a
frame with identifier one. -/
def ofCounter (counter : Nat) : CanFrame :=
  { zero with
    canId := UInt32.ofNat counter
    len := UInt8.ofNat (counter / 2 ^ 32)
    pad := UInt8.ofNat (counter / 2 ^ 40)
    res0 := UInt8.ofNat (counter / 2 ^ 48)
    len8Dlc := UInt8.ofNat (counter / 2 ^ 56) }

end CanFrame
end HyCAN
