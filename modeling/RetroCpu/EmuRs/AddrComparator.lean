import RetroCpu.EmuTs.AddrComparator
import RetroCpu.Lib.CheckedBuild

/-!
# The address comparators of the Rust emulator (`mn1613/addr_comp/addr_comparator.rs`)

The bank has the fields of its TypeScript sibling.  Where that one uses an element that may not
be there, `slot.min(3)` takes the last slot, and an index may panic.
-/

namespace RetroCpu
namespace EmuRs
namespace AddrComparator

open CheckedBuild
open EmuTs.AddrComparator (AddrComparatorSlot AddrBusAccess AddrComparatorBank U8 U16 U32
  BREAK_RDWR_RD BREAK_RDWR_WR IO_PORT_BREAK_CTRL IO_PORT_BREAK_ADDR_LO IO_PORT_BREAK_ADDR_HI
  IO_PORT_BREAK_HIT IO_PORT_BREAK_PREV)

/-- `decode_break_ctrl` -/
def decodeBreakCtrl (ctrl : U16) : U8 × Bool × Bool × U8 :=
  let slot := (ctrl &&& 0x07).setWidth 8
  let enabled : Bool := (ctrl >>> 3) &&& 1 = 1
  let io : Bool := (ctrl >>> 4) &&& 1 = 1
  let rdwr := ((ctrl >>> 5) &&& 0x03).setWidth 8
  (slot, enabled, io, rdwr)

/-- `encode_break_ctrl` -/
def encodeBreakCtrl (slot : U8) (enabled io : Bool) (rdwr : U8) : U16 :=
  (slot.setWidth 16 &&& 0x07) ||| ((if enabled then 1 else 0) <<< 3) |||
    ((if io then 1 else 0) <<< 4) ||| ((rdwr.setWidth 16 &&& 0x03) <<< 5)

/-- `slot_matches` -/
def slotMatches (slot : AddrComparatorSlot) (access : AddrBusAccess) : Bool :=
  if !slot.enabled then false
  else if slot.io ≠ access.io then false
  else
    let rdwr := slot.rdwr &&& 0x03
    if rdwr = 0 then false
    else if access.write && rdwr &&& BREAK_RDWR_WR = 0 then false
    else if !access.write && rdwr &&& BREAK_RDWR_RD = 0 then false
    else if access.io then slot.addr &&& 0xffff = access.addr &&& 0xffff
    else slot.addr &&& 0x3ffff = access.addr &&& 0x3ffff

variable (b : AddrComparatorBank)

/-- `probe` -/
def probe (access : AddrBusAccess) : Option (Fin 4) × AddrComparatorBank :=
  match (List.finRange 4).find? fun i => slotMatches (b.slots i) access with
  | some i =>
      let b :=
        if access.write then
          { b with
            prevWrite := Function.update b.prevWrite i (access.prev &&& 0xffff)
            prevLatch := access.prev &&& 0xffff }
        else { b with prevLatch := 0 }
      (some i, { b with lastHit := BitVec.ofNat 16 i })
  | none => (none, b)

/-- `selected_slot` -/
def selectedSlot : Nat := (b.ctrlLatch &&& 0x07).toNat

/-- The address that `apply_ctrl_to_slot` and `apply_addr_to_selected` store. -/
def latchedAddr : U32 := (b.addrHiLatch.setWidth 32 &&& 0x03) <<< 16 ||| b.addrLoLatch.setWidth 32

/-- `apply_ctrl_to_slot` -/
def applyCtrlToSlot : AddrComparatorBank :=
  let (slot, enabled, io, rdwr) := decodeBreakCtrl b.ctrlLatch
  if h : slot.toNat < 4 then
    { b with
      slots := Function.update b.slots ⟨slot.toNat, h⟩
        { enabled := enabled, io := io, rdwr := rdwr, addr := latchedAddr b } }
  else b

/-- `apply_addr_to_selected` -/
def applyAddrToSelected : AddrComparatorBank :=
  if h : selectedSlot b < 4 then
    { b with
      slots := Function.update b.slots ⟨selectedSlot b, h⟩
        { b.slots ⟨selectedSlot b, h⟩ with addr := latchedAddr b } }
  else b

/-- `slots[slot.min(CPLD_COMPARATOR_COUNT - 1)]` -/
def clamped : AddrComparatorSlot :=
  b.slots ⟨min (selectedSlot b) 3, Nat.lt_succ_of_le (Nat.min_le_right _ _)⟩

/-- `ctrl_from_selected` -/
def ctrlFromSelected : U16 :=
  encodeBreakCtrl (BitVec.ofNat 8 (selectedSlot b)) (clamped b).enabled (clamped b).io
    (clamped b).rdwr

/-- `addr_lo_from_selected` -/
def addrLoFromSelected : U16 := ((clamped b).addr &&& 0xffff).setWidth 16

/-- `addr_hi_from_selected` -/
def addrHiFromSelected : U16 := (((clamped b).addr >>> 16) &&& 0x03).setWidth 16

/-- `read_port` -/
def readPort (port : U16) : Except Panic (Option U16) × AddrComparatorBank :=
  let p := port &&& 0xffff
  if p = IO_PORT_BREAK_CTRL then (.ok (some (ctrlFromSelected b)), b)
  else if p = IO_PORT_BREAK_ADDR_LO then (.ok (some (addrLoFromSelected b)), b)
  else if p = IO_PORT_BREAK_ADDR_HI then (.ok (some (addrHiFromSelected b)), b)
  else if p = IO_PORT_BREAK_HIT then
    if b.lastHit = 0xffff then (.ok (some 0xffff), { b with prevLatch := 0 })
    else
      let slot := (b.lastHit &&& 0x07).toNat
      if h : slot < 4 then
        (.ok (some (BitVec.ofNat 16 slot)), { b with prevLatch := b.prevWrite ⟨slot, h⟩ &&& 0xffff })
      else (.error .index, b)
  else if p = IO_PORT_BREAK_PREV then (.ok (some (b.prevLatch &&& 0xffff)), b)
  else (.ok none, b)

/-- `write_port` -/
def writePort (port val : U16) : Bool × AddrComparatorBank :=
  let p := port &&& 0xffff
  let v := val &&& 0xffff
  if p = IO_PORT_BREAK_ADDR_LO then (true, applyAddrToSelected { b with addrLoLatch := v })
  else if p = IO_PORT_BREAK_ADDR_HI then
    (true, applyAddrToSelected { b with addrHiLatch := v &&& 0x03 })
  else if p = IO_PORT_BREAK_CTRL then (true, applyCtrlToSlot { b with ctrlLatch := v })
  else (p = IO_PORT_BREAK_HIT ∨ p = IO_PORT_BREAK_PREV, b)

end AddrComparator
end EmuRs
end RetroCpu
