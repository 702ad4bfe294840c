import Mathlib.Logic.Function.Basic

/-!
# Physical memory and register indices of the MN1613

The physical address space has 18 bits and is word addressed.  Both emulators
keep it as an array of 256K big-endian 16-bit words, the one as an
`ArrayBuffer`, the other as a `Vec<u16>`.
-/

namespace RetroCpu
namespace Mn1613

/-- 256K words of 16 bits, indexed by physical word address. -/
abbrev Mem := BitVec 18 → BitVec 16

/-- Number of physical words. -/
def MEM_WORDS : Nat := 0x40000

-- Literals of the index types of `R`, `OSR` and the interrupt levels.
instance instNeZeroFive : @NeZero Nat Zero.ofOfNat0 5 := Nat.instNeZeroSucc
instance instNeZeroFour : @NeZero Nat Zero.ofOfNat0 4 := Nat.instNeZeroSucc
instance instNeZeroThree : @NeZero Nat Zero.ofOfNat0 3 := Nat.instNeZeroSucc

end Mn1613
end RetroCpu
