import Mathlib.Logic.Function.Basic
import RetroCpu.Lib.BitField

/-!
# The address comparators of the TypeScript emulator (`addr_comparator.ts`)

Four slots behind the ports 0030–0034.  Control and address words go to latches and from there
to the slot that the control latch selects; the select field has three bits.  The callback of
`setOnHit` is told the slot that `probe` returns and is left out.
-/

namespace RetroCpu
namespace EmuTs
namespace AddrComparator

abbrev U8 := BitVec 8
abbrev U16 := BitVec 16
abbrev U32 := BitVec 32

section Slots

def CPLD_COMPARATOR_COUNT : Nat := 4

def IO_PORT_BREAK_CTRL : U16 := 0x0030
def IO_PORT_BREAK_ADDR_LO : U16 := 0x0031
def IO_PORT_BREAK_ADDR_HI : U16 := 0x0032
def IO_PORT_BREAK_HIT : U16 := 0x0033
def IO_PORT_BREAK_PREV : U16 := 0x0034

def BREAK_RDWR_RD : U8 := 0b01
def BREAK_RDWR_WR : U8 := 0b10
def BREAK_RDWR_BOTH : U8 := 0b11

/-- `AddrComparatorSlot` -/
structure AddrComparatorSlot where
  enabled : Bool
  io : Bool
  rdwr : U8
  addr : U32
deriving DecidableEq, Repr

/-- `AddrBusAccess`; `prev` is the word before a write, 0 if it is not given. -/
structure AddrBusAccess where
  addr : U32
  io : Bool
  write : Bool
  prev : U16
deriving DecidableEq, Repr

/-- What `decodeBreakCtrl` returns. -/
structure BreakCtrl where
  slot : Nat
  enabled : Bool
  io : Bool
  rdwr : U8
deriving DecidableEq, Repr

def decodeBreakCtrl (ctrl : U16) : BreakCtrl where
  slot := (ctrl &&& 0x07).toNat
  enabled := (ctrl >>> 3) &&& 1 = 1
  io := (ctrl >>> 4) &&& 1 = 1
  rdwr := ((ctrl >>> 5) &&& 0x03).setWidth 8

def encodeBreakCtrl (slot : Nat) (enabled io : Bool) (rdwr : U8) : U16 :=
  (BitVec.ofNat 16 slot &&& 0x07) ||| ((if enabled then 1 else 0) <<< 3) |||
    ((if io then 1 else 0) <<< 4) ||| ((rdwr.setWidth 16 &&& 0x03) <<< 5)

def slotMatches (slot : AddrComparatorSlot) (access : AddrBusAccess) : Bool :=
  if !slot.enabled then false
  else if slot.io ≠ access.io then false
  else
    let rdwr := slot.rdwr &&& 0x03
    if rdwr = 0 then false
    else if access.write && rdwr &&& BREAK_RDWR_WR = 0 then false
    else if !access.write && rdwr &&& BREAK_RDWR_RD = 0 then false
    else if access.io then slot.addr &&& 0xffff = access.addr &&& 0xffff
    else slot.addr &&& 0x3ffff = access.addr &&& 0x3ffff

end Slots

section Bank

/-- `AddrComparatorBank` -/
structure AddrComparatorBank where
  slots : Fin 4 → AddrComparatorSlot
  ctrlLatch : U16
  addrLoLatch : U16
  addrHiLatch : U16
  lastHit : U16
  prevWrite : Fin 4 → U16
  prevLatch : U16

/-- A new bank, and a bank behind `reset`. -/
def initial : AddrComparatorBank where
  slots := fun _ => { enabled := false, io := false, rdwr := 0, addr := 0 }
  ctrlLatch := 0
  addrLoLatch := 0
  addrHiLatch := 0
  lastHit := 0xffff
  prevWrite := fun _ => 0
  prevLatch := 0

/-- An element of an array that is not there is used. -/
inductive TypeError where
  | undefined
deriving DecidableEq, Repr

namespace AddrComparatorBank

variable (b : AddrComparatorBank)

/-- The slots with one of them replaced; an index out of range replaces none. -/
def setSlot (n : Nat) (f : AddrComparatorSlot → AddrComparatorSlot) : AddrComparatorBank :=
  if h : n < 4 then { b with slots := Function.update b.slots ⟨n, h⟩ (f (b.slots ⟨n, h⟩)) } else b

/-- `probe`; -1 if no slot matches. -/
def probe (access : AddrBusAccess) : Int × AddrComparatorBank :=
  match (List.finRange 4).find? fun i => slotMatches (b.slots i) access with
  | some i =>
      let b :=
        if access.write then
          { b with
            prevWrite := Function.update b.prevWrite i (access.prev &&& 0xffff)
            prevLatch := access.prev &&& 0xffff }
        else { b with prevLatch := 0 }
      (i, { b with lastHit := BitVec.ofNat 16 i })
  | none => (-1, b)

def selectedSlot : Nat := (b.ctrlLatch &&& 0x07).toNat

/-- The address in the latches. -/
def latchedAddr : U32 := (b.addrHiLatch.setWidth 32 &&& 0x03) <<< 16 ||| b.addrLoLatch.setWidth 32

def applyCtrlToSlot : AddrComparatorBank :=
  let d := decodeBreakCtrl b.ctrlLatch
  b.setSlot d.slot fun _ =>
    { enabled := d.enabled, io := d.io, rdwr := d.rdwr, addr := b.latchedAddr }

def applyAddrToSelected : AddrComparatorBank :=
  b.setSlot b.selectedSlot fun s => { s with addr := b.latchedAddr }

/-- The selected slot, as `slots[selectedSlot()]!` finds it. -/
def selected : Except TypeError AddrComparatorSlot :=
  if h : b.selectedSlot < 4 then .ok (b.slots ⟨b.selectedSlot, h⟩) else .error .undefined

def ctrlFromSelected : Except TypeError U16 := do
  let s ← b.selected
  return encodeBreakCtrl b.selectedSlot s.enabled s.io s.rdwr

def addrLoFromSelected : Except TypeError U16 := do
  let s ← b.selected
  return (s.addr &&& 0xffff).setWidth 16

def addrHiFromSelected : Except TypeError U16 := do
  let s ← b.selected
  return ((s.addr >>> 16) &&& 0x03).setWidth 16

/-- `readPort`; `none` is the answer for a port that is not the bank's. -/
def readPort (port : U16) : Except TypeError (Option U16) × AddrComparatorBank :=
  let p := port &&& 0xffff
  if p = IO_PORT_BREAK_CTRL then (some <$> b.ctrlFromSelected, b)
  else if p = IO_PORT_BREAK_ADDR_LO then (some <$> b.addrLoFromSelected, b)
  else if p = IO_PORT_BREAK_ADDR_HI then (some <$> b.addrHiFromSelected, b)
  else if p = IO_PORT_BREAK_HIT then
    if b.lastHit = 0xffff then (.ok (some 0xffff), { b with prevLatch := 0 })
    else
      let slot := (b.lastHit &&& 0x07).toNat
      if h : slot < 4 then
        (.ok (some (BitVec.ofNat 16 slot)), { b with prevLatch := b.prevWrite ⟨slot, h⟩ &&& 0xffff })
      else
        -- `undefined & 0xffff` is 0
        (.ok (some (BitVec.ofNat 16 slot)), { b with prevLatch := 0 })
  else if p = IO_PORT_BREAK_PREV then (.ok (some (b.prevLatch &&& 0xffff)), b)
  else (.ok none, b)

/-- `writePort` -/
def writePort (port val : U16) : Bool × AddrComparatorBank :=
  let p := port &&& 0xffff
  let v := val &&& 0xffff
  if p = IO_PORT_BREAK_ADDR_LO then
    (true, applyAddrToSelected { b with addrLoLatch := v })
  else if p = IO_PORT_BREAK_ADDR_HI then
    (true, applyAddrToSelected { b with addrHiLatch := v &&& 0x03 })
  else if p = IO_PORT_BREAK_CTRL then
    (true, applyCtrlToSlot { b with ctrlLatch := v })
  else (p = IO_PORT_BREAK_HIT ∨ p = IO_PORT_BREAK_PREV, b)

end AddrComparatorBank

end Bank

end AddrComparator
end EmuTs
end RetroCpu
