import RetroCpu.EmuTs.BoardLink

/-!
# The ports of the CPU board (`io_ports.ts`, `cru_handshake.ts`)

The lines between the boards live in a bus object.  A TMS9995 does not see the bus but a
second copy of its lines, the CRU bits of `Tms9995CruHandshake`, and each access of the CPU
writes that whole copy to the bus.
-/

namespace RetroCpu
namespace IoPorts

open Handshake BoardLink

section Cru

def BIT_MIN : BitVec 16 := 0x0010
def BIT_MAX : BitVec 16 := 0x0027

/-- `IRQ_BITS` -/
def INTERRUPT_BUSY_BIT : BitVec 16 := 0x0010
def INT1_CAUSE_BIT : BitVec 16 := 0x0011
def INT2_CAUSE_BIT : BitVec 16 := 0x0012

/-- `CPU_OUT_SIGNALS` -/
def HSHK_OUT_REQ_BIT : BitVec 16 := 0x0020
def HSHK_OUT_DENA_BIT : BitVec 16 := 0x0021
def HSHK_IN_DACK_BIT : BitVec 16 := 0x0022

/-- `CPU_IN_SIGNALS` -/
def HSHK_IN_REQ_BIT : BitVec 16 := 0x0024
def HSHK_IN_DENA_BIT : BitVec 16 := 0x0025
def HSHK_OUT_DACK_BIT : BitVec 16 := 0x0026

def OUT_DATA_BASE : BitVec 16 := 0x0023
def IN_DATA_BASE : BitVec 16 := 0x0027

/-- `Tms9995CruHandshake`, with `strictRoles` off -/
structure Tms9995CruHandshake where
  bits : BitVec 16 → Bool := fun _ => false
  outDataByte : Byte := 0
  inDataByte : Byte := 0

/-- A byte with another bit 0. -/
def setLow (b : Byte) (value : Bool) : Byte := b &&& ~~~1 ||| (BitVec.ofBool value).setWidth 8

/-- `writeBit` -/
def Tms9995CruHandshake.writeBit (cru : Tms9995CruHandshake) (bitAddr : BitVec 16)
    (value : Bool) : Tms9995CruHandshake where
  bits addr := if addr = bitAddr then value else cru.bits addr
  outDataByte := if bitAddr = OUT_DATA_BASE then setLow cru.outDataByte value else cru.outDataByte
  inDataByte := if bitAddr = IN_DATA_BASE then setLow cru.inDataByte value else cru.inDataByte

/-- `readBit` -/
def Tms9995CruHandshake.readBit (cru : Tms9995CruHandshake) (bitAddr : BitVec 16) : Bool :=
  if bitAddr = OUT_DATA_BASE then cru.outDataByte.getLsbD 0
  else if bitAddr = IN_DATA_BASE then cru.inDataByte.getLsbD 0
  else cru.bits bitAddr

/-- `cpuWriteOutDataByte` -/
def Tms9995CruHandshake.cpuWriteOutDataByte (cru : Tms9995CruHandshake) (value : Byte) :
    Tms9995CruHandshake :=
  { cru with
    bits := fun addr => if addr = OUT_DATA_BASE then value.getLsbD 0 else cru.bits addr
    outDataByte := value }

/-- `ioWriteInDataByte` -/
def Tms9995CruHandshake.ioWriteInDataByte (cru : Tms9995CruHandshake) (value : Byte) :
    Tms9995CruHandshake :=
  { cru with
    bits := fun addr => if addr = IN_DATA_BASE then value.getLsbD 0 else cru.bits addr
    inDataByte := value }

end Cru

section Ports

/-- `INT_CAUSE_CODE` -/
def CAUSE_TIMER : BitVec 16 := 0
def CAUSE_HANDSHAKE : BitVec 16 := 2
def CAUSE_ADDR_BREAK : BitVec 16 := 0
def CAUSE_STEP : BitVec 16 := 1

/-- The variables of `io_ports.ts`, with a bus attached; the bus may be `wired` to the
interrupts of the CPU (`wireHshkInReqToCpuIrq`). -/
structure Ports where
  handshakeBus : Bus := {}
  wired : Bool := false
  cpuPortMode : CpuType := .mn1613
  tmsCru : Tms9995CruHandshake := {}

/-- `applyPackedCauseToTmsCru` -/
def applyPackedCauseToTmsCru (cru : Tms9995CruHandshake) (cause : BitVec 16) :
    Tms9995CruHandshake :=
  let c := cause &&& 0x07
  let cru := cru.writeBit INT1_CAUSE_BIT (c &&& 0x06 == CAUSE_HANDSHAKE)
  if c = CAUSE_STEP then cru.writeBit INT2_CAUSE_BIT true else cru.writeBit INT2_CAUSE_BIT false

/-- `syncBusToTmsCru` -/
def syncBusToTmsCru (ports : Ports) : Ports :=
  let bus := ports.handshakeBus
  let cru := ports.tmsCru.writeBit INTERRUPT_BUSY_BIT bus.INTERRUPT_BUSY
  let cru := applyPackedCauseToTmsCru cru bus.INT_CAUSE
  let cru := cru.writeBit HSHK_OUT_REQ_BIT bus.HSHK_OUT_REQ
  let cru := cru.writeBit HSHK_OUT_DENA_BIT bus.HSHK_OUT_DENA
  let cru := cru.writeBit HSHK_IN_DACK_BIT bus.HSHK_IN_DACK
  let cru := cru.writeBit HSHK_IN_REQ_BIT bus.HSHK_IN_REQ
  let cru := cru.writeBit HSHK_IN_DENA_BIT bus.HSHK_IN_DENA
  let cru := cru.writeBit HSHK_OUT_DACK_BIT bus.HSHK_OUT_DACK
  let cru := cru.cpuWriteOutDataByte bus.HSHK_OUT_DATA
  { ports with tmsCru := cru.ioWriteInDataByte bus.HSHK_IN_DATA }

/-- The assignments of `syncTmsCruToBus` -/
def writeTmsCruToBus (ports : Ports) : Ports :=
  let cru := ports.tmsCru
  { ports with handshakeBus :=
    { INTERRUPT_BUSY := cru.bits INTERRUPT_BUSY_BIT
      INT_CAUSE := (BitVec.ofBool (cru.bits INT1_CAUSE_BIT)).setWidth 16 |||
        (BitVec.ofBool (cru.bits INT2_CAUSE_BIT)).setWidth 16 <<< 1
      HSHK_OUT_REQ := cru.bits HSHK_OUT_REQ_BIT
      HSHK_OUT_DENA := cru.bits HSHK_OUT_DENA_BIT
      HSHK_IN_DACK := cru.bits HSHK_IN_DACK_BIT
      HSHK_IN_REQ := cru.bits HSHK_IN_REQ_BIT
      HSHK_IN_DENA := cru.bits HSHK_IN_DENA_BIT
      HSHK_OUT_DACK := cru.bits HSHK_OUT_DACK_BIT
      HSHK_OUT_DATA := cru.outDataByte
      HSHK_IN_DATA := cru.inDataByte } }

/-- `setIntCause`, over a way to write the CRU to the bus -/
def setIntCauseBy (sync : Ports → Ports) (cause : BitVec 16) (ports : Ports) : Ports :=
  let intCause := cause &&& 0x07
  let ports :=
    if ports.cpuPortMode = .tms9995 then
      sync { ports with tmsCru := applyPackedCauseToTmsCru ports.tmsCru intCause }
    else ports
  { ports with handshakeBus := { ports.handshakeBus with INT_CAUSE := intCause } }

/-- What a rise of `HSHK_IN_REQ` does on a wired bus.  The line does not rise once more in the
assignments that this makes. -/
def onInReqRise (ports : Ports) : Ports :=
  if ports.wired then setIntCauseBy writeTmsCruToBus ports.handshakeBus.INT_CAUSE ports else ports

/-- `syncTmsCruToBus` -/
def syncTmsCruToBus (ports : Ports) : Ports :=
  let after := writeTmsCruToBus ports
  if !ports.handshakeBus.HSHK_IN_REQ && after.handshakeBus.HSHK_IN_REQ then onInReqRise after
  else after

/-- `setHshkInReq` -/
def setHshkInReq (value raiseIrq : Bool) (ports : Ports) : Ports :=
  let after := { ports with handshakeBus := { ports.handshakeBus with HSHK_IN_REQ := value } }
  if !ports.handshakeBus.HSHK_IN_REQ && value && raiseIrq then onInReqRise after else after

/-- `attachHandshakeBus` -/
def attachHandshakeBus (bus : Bus) (ports : Ports) : Ports :=
  syncBusToTmsCru { ports with handshakeBus := bus }

/-- `setCpuPortMode` -/
def setCpuPortMode (cpuType : CpuType) (ports : Ports) : Ports :=
  let ports := { ports with cpuPortMode := cpuType }
  if cpuType = .tms9995 then syncBusToTmsCru ports else ports

/-- `setIntCause` -/
def setIntCause : BitVec 16 → Ports → Ports := setIntCauseBy syncTmsCruToBus

/-- `getInterruptBusy` -/
def getInterruptBusy (ports : Ports) : Bool :=
  if ports.cpuPortMode = .tms9995 then ports.tmsCru.readBit INTERRUPT_BUSY_BIT
  else ports.handshakeBus.INTERRUPT_BUSY

/-- `isHandshakeActive` -/
def isHandshakeActive (ports : Ports) : Bool :=
  if ports.cpuPortMode = .tms9995 then
    let cru := ports.tmsCru
    cru.bits HSHK_OUT_REQ_BIT || cru.bits HSHK_OUT_DENA_BIT || cru.bits HSHK_IN_DACK_BIT ||
      cru.bits HSHK_IN_REQ_BIT || cru.bits HSHK_IN_DENA_BIT || cru.bits HSHK_OUT_DACK_BIT
  else
    let bus := ports.handshakeBus
    bus.HSHK_OUT_REQ || bus.HSHK_OUT_DENA || bus.HSHK_IN_DACK || bus.HSHK_IN_REQ ||
      bus.HSHK_IN_DENA || bus.HSHK_OUT_DACK

end Ports

section Accesses

/-- The bits of the CRU that `Tms9995CruHandshake` has. -/
def inRegion (bitAddr : BitVec 16) : Prop := BIT_MIN ≤ bitAddr ∧ bitAddr ≤ BIT_MAX

instance (bitAddr : BitVec 16) : Decidable (inRegion bitAddr) :=
  inferInstanceAs (Decidable (_ ∧ _))

/-- `tms9995CpuWriteCruBit` -/
def tms9995CpuWriteCruBit (bitAddr : BitVec 16) (value : Bool) (ports : Ports) : Ports :=
  if ports.cpuPortMode ≠ .tms9995 then ports
  else if inRegion bitAddr then
    syncTmsCruToBus { ports with tmsCru := ports.tmsCru.writeBit bitAddr value }
  else ports

/-- `tms9995CpuReadCruBit`; the bits of the timer are not the bus's. -/
def tms9995CpuReadCruBit (timer : BitVec 16 → Bool) (bitAddr : BitVec 16) (ports : Ports) :
    Bool × Ports :=
  if ports.cpuPortMode ≠ .tms9995 then (false, ports)
  else if inRegion bitAddr then (ports.tmsCru.readBit bitAddr, syncTmsCruToBus ports)
  else if bitAddr = 0x1ee1 then (timer bitAddr, ports)
  else (false, ports)

/-- `tms9995CpuWriteCruDataByte` -/
def tms9995CpuWriteCruDataByte (value : Byte) (ports : Ports) : Ports :=
  if ports.cpuPortMode ≠ .tms9995 then ports
  else syncTmsCruToBus { ports with tmsCru := ports.tmsCru.cpuWriteOutDataByte value }

/-- `tms9995CpuReadCruDataByte` -/
def tms9995CpuReadCruDataByte (ports : Ports) : Byte × Ports :=
  if ports.cpuPortMode ≠ .tms9995 then (0, ports)
  else (ports.tmsCru.inDataByte, syncTmsCruToBus ports)

end Accesses

end IoPorts
end RetroCpu
