import RetroCpu.EmuTs.IoPorts
import RetroCpu.Lib.StepRuns

/-!
# Lost updates in the CRU mirror

The I/O board writes the bus, the TMS9995 reads its own copy of the lines, and every access
of the CPU puts the copy on the bus.  The copy is only filled when a bus is attached or the
mode is set, so an update of the I/O board survives an access exactly when the copy happens
to hold it.
-/

namespace RetroCpu
namespace IoPorts

open Handshake BoardLink StepRuns

section Lines

/-- The lines that the I/O board drives. -/
structure IoLines where
  HSHK_IN_REQ : Bool
  HSHK_IN_DENA : Bool
  HSHK_OUT_DACK : Bool
  HSHK_IN_DATA : Byte
deriving DecidableEq

/-- The lines that the CPU drives. -/
structure CpuLines where
  INTERRUPT_BUSY : Bool
  HSHK_OUT_REQ : Bool
  HSHK_OUT_DENA : Bool
  HSHK_IN_DACK : Bool
  HSHK_OUT_DATA : Byte
deriving DecidableEq

def busIo (bus : Bus) : IoLines :=
  ⟨bus.HSHK_IN_REQ, bus.HSHK_IN_DENA, bus.HSHK_OUT_DACK, bus.HSHK_IN_DATA⟩

def busCpu (bus : Bus) : CpuLines :=
  ⟨bus.INTERRUPT_BUSY, bus.HSHK_OUT_REQ, bus.HSHK_OUT_DENA, bus.HSHK_IN_DACK, bus.HSHK_OUT_DATA⟩

def cruIo (cru : Tms9995CruHandshake) : IoLines :=
  ⟨cru.bits HSHK_IN_REQ_BIT, cru.bits HSHK_IN_DENA_BIT, cru.bits HSHK_OUT_DACK_BIT,
    cru.inDataByte⟩

def cruCpu (cru : Tms9995CruHandshake) : CpuLines :=
  ⟨cru.bits INTERRUPT_BUSY_BIT, cru.bits HSHK_OUT_REQ_BIT, cru.bits HSHK_OUT_DENA_BIT,
    cru.bits HSHK_IN_DACK_BIT, cru.outDataByte⟩

/-- The line behind a bit address. -/
def IoLines.bit (lines : IoLines) (bitAddr : BitVec 16) : Option Bool :=
  if bitAddr = HSHK_IN_REQ_BIT then some lines.HSHK_IN_REQ
  else if bitAddr = HSHK_IN_DENA_BIT then some lines.HSHK_IN_DENA
  else if bitAddr = HSHK_OUT_DACK_BIT then some lines.HSHK_OUT_DACK
  else if bitAddr = IN_DATA_BASE then some (lines.HSHK_IN_DATA.getLsbD 0)
  else none

/-- The lines with another value behind a bit address. -/
def IoLines.setBit (lines : IoLines) (bitAddr : BitVec 16) (value : Bool) : IoLines where
  HSHK_IN_REQ := if bitAddr = HSHK_IN_REQ_BIT then value else lines.HSHK_IN_REQ
  HSHK_IN_DENA := if bitAddr = HSHK_IN_DENA_BIT then value else lines.HSHK_IN_DENA
  HSHK_OUT_DACK := if bitAddr = HSHK_OUT_DACK_BIT then value else lines.HSHK_OUT_DACK
  HSHK_IN_DATA := if bitAddr = IN_DATA_BASE then setLow lines.HSHK_IN_DATA value
    else lines.HSHK_IN_DATA

def CpuLines.setBit (lines : CpuLines) (bitAddr : BitVec 16) (value : Bool) : CpuLines where
  INTERRUPT_BUSY := if bitAddr = INTERRUPT_BUSY_BIT then value else lines.INTERRUPT_BUSY
  HSHK_OUT_REQ := if bitAddr = HSHK_OUT_REQ_BIT then value else lines.HSHK_OUT_REQ
  HSHK_OUT_DENA := if bitAddr = HSHK_OUT_DENA_BIT then value else lines.HSHK_OUT_DENA
  HSHK_IN_DACK := if bitAddr = HSHK_IN_DACK_BIT then value else lines.HSHK_IN_DACK
  HSHK_OUT_DATA := if bitAddr = OUT_DATA_BASE then setLow lines.HSHK_OUT_DATA value
    else lines.HSHK_OUT_DATA

end Lines

section Events

/-- A write of the I/O board to one of its lines. -/
inductive IoWrite
  | inReq (value raiseIrq : Bool)
  | inDena (value : Bool)
  | outDack (value : Bool)
  | inData (value : Byte)

/-- What the two sides do. -/
inductive Event
  | ioWrite (write : IoWrite)
  /-- the I/O board looks at the lines of the CPU -/
  | ioRead
  | cpuReadBit (bitAddr : BitVec 16)
  | cpuWriteBit (bitAddr : BitVec 16) (value : Bool)
  | cpuReadData
  | cpuWriteData (value : Byte)
  /-- `setCpuPortMode` fills the copy again -/
  | setMode

def IoWrite.run (ports : Ports) : IoWrite → Ports
  | .inReq value raiseIrq => setHshkInReq value raiseIrq ports
  | .inDena value =>
      { ports with handshakeBus := { ports.handshakeBus with HSHK_IN_DENA := value } }
  | .outDack value =>
      { ports with handshakeBus := { ports.handshakeBus with HSHK_OUT_DACK := value } }
  | .inData value =>
      { ports with handshakeBus := { ports.handshakeBus with HSHK_IN_DATA := value } }

/-- The lines that a write means to leave. -/
def IoWrite.lines (lines : IoLines) : IoWrite → IoLines
  | .inReq value _ => { lines with HSHK_IN_REQ := value }
  | .inDena value => { lines with HSHK_IN_DENA := value }
  | .outDack value => { lines with HSHK_OUT_DACK := value }
  | .inData value => { lines with HSHK_IN_DATA := value }

/-- The ports, with what each side wrote last. -/
structure Session where
  ports : Ports
  ioWritten : IoLines
  cpuWritten : CpuLines

variable (timer : BitVec 16 → Bool)

def step (s : Session) : Event → Session
  | .ioWrite write =>
      { s with ports := write.run s.ports, ioWritten := write.lines s.ioWritten }
  | .ioRead => s
  | .cpuReadBit bitAddr => { s with ports := (tms9995CpuReadCruBit timer bitAddr s.ports).2 }
  | .cpuWriteBit bitAddr value =>
      { s with
        ports := tms9995CpuWriteCruBit bitAddr value s.ports
        cpuWritten := s.cpuWritten.setBit bitAddr value }
  | .cpuReadData => { s with ports := (tms9995CpuReadCruDataByte s.ports).2 }
  | .cpuWriteData value =>
      { s with
        ports := tms9995CpuWriteCruDataByte value s.ports
        cpuWritten := { s.cpuWritten with HSHK_OUT_DATA := value } }
  | .setMode => { s with ports := setCpuPortMode .tms9995 s.ports }

/-- No update is lost in a step: what is read is what the other side wrote last, the lines of
the I/O board hold what it wrote, and no access of the CPU changes them. -/
def Right (s : Session) (event : Event) : Prop :=
  busIo (step timer s event).ports.handshakeBus = (step timer s event).ioWritten ∧
    match event with
    | .ioRead => busCpu s.ports.handshakeBus = s.cpuWritten
    | .cpuReadBit bitAddr => ∀ value, s.ioWritten.bit bitAddr = some value →
        (tms9995CpuReadCruBit timer bitAddr s.ports).1 = value
    | .cpuReadData => (tms9995CpuReadCruDataByte s.ports).1 = s.ioWritten.HSHK_IN_DATA
    | _ => True

/-- The copy agrees with the bus on every line of the I/O board that the step does not write,
and a CPU that writes such a line writes the value it has.  A request that interrupts the CPU
over a wired bus is an access too. -/
def Agrees (s : Session) : Event → Prop
  | .ioWrite (.inReq value raiseIrq) =>
      s.ports.wired = true → value = true → raiseIrq = true →
        s.ports.handshakeBus.HSHK_IN_REQ = false →
          cruIo s.ports.tmsCru = { busIo s.ports.handshakeBus with HSHK_IN_REQ := true }
  | .ioWrite _ => True
  | .ioRead => True
  | .cpuReadBit bitAddr =>
      inRegion bitAddr → cruIo s.ports.tmsCru = busIo s.ports.handshakeBus
  | .cpuWriteBit bitAddr value =>
      inRegion bitAddr →
        (cruIo s.ports.tmsCru).setBit bitAddr value = busIo s.ports.handshakeBus
  | .cpuReadData => cruIo s.ports.tmsCru = busIo s.ports.handshakeBus
  | .cpuWriteData _ => cruIo s.ports.tmsCru = busIo s.ports.handshakeBus
  | .setMode => True

end Events

section Copies

variable {ports : Ports}

theorem cruIo_applyPacked {cru : Tms9995CruHandshake} (cause : BitVec 16) :
    cruIo (applyPackedCauseToTmsCru cru cause) = cruIo cru := by
  unfold applyPackedCauseToTmsCru
  dsimp only
  split <;> rfl

theorem cruCpu_applyPacked {cru : Tms9995CruHandshake} (cause : BitVec 16) :
    cruCpu (applyPackedCauseToTmsCru cru cause) = cruCpu cru := by
  unfold applyPackedCauseToTmsCru
  dsimp only
  split <;> rfl

theorem cruIo_writeBit (cru : Tms9995CruHandshake) (bitAddr : BitVec 16) (value : Bool) :
    cruIo (cru.writeBit bitAddr value) = (cruIo cru).setBit bitAddr value := by
  simp only [cruIo, Tms9995CruHandshake.writeBit, IoLines.setBit, eq_comm]

theorem cruCpu_writeBit (cru : Tms9995CruHandshake) (bitAddr : BitVec 16) (value : Bool) :
    cruCpu (cru.writeBit bitAddr value) = (cruCpu cru).setBit bitAddr value := by
  simp only [cruCpu, Tms9995CruHandshake.writeBit, CpuLines.setBit, eq_comm]

theorem cruIo_cpuWriteOutDataByte (cru : Tms9995CruHandshake) (value : Byte) :
    cruIo (cru.cpuWriteOutDataByte value) = cruIo cru := rfl

theorem cruCpu_cpuWriteOutDataByte (cru : Tms9995CruHandshake) (value : Byte) :
    cruCpu (cru.cpuWriteOutDataByte value) = { cruCpu cru with HSHK_OUT_DATA := value } := rfl

/-- No line of the CPU is outside the region. -/
theorem setBit_outside {lines : CpuLines} {bitAddr : BitVec 16} {value : Bool}
    (h : ¬ inRegion bitAddr) : lines.setBit bitAddr value = lines := by
  have hne : ∀ bit, inRegion bit → bitAddr ≠ bit := by
    rintro bit hbit rfl
    exact h hbit
  unfold CpuLines.setBit
  rw [if_neg (hne _ (by decide)), if_neg (hne _ (by decide)), if_neg (hne _ (by decide)),
    if_neg (hne _ (by decide)), if_neg (hne _ (by decide))]

/-- The copy and the bus after a step that may write the copy to the bus. -/
structure Synced (ports after : Ports) : Prop where
  busIo : IoPorts.busIo after.handshakeBus = cruIo ports.tmsCru
  busCpu : IoPorts.busCpu after.handshakeBus = cruCpu ports.tmsCru
  cruIo : IoPorts.cruIo after.tmsCru = IoPorts.cruIo ports.tmsCru
  cruCpu : IoPorts.cruCpu after.tmsCru = IoPorts.cruCpu ports.tmsCru
  mode : after.cpuPortMode = ports.cpuPortMode
  wired : after.wired = ports.wired

theorem synced_write (ports : Ports) : Synced ports (writeTmsCruToBus ports) :=
  ⟨rfl, rfl, rfl, rfl, rfl, rfl⟩

theorem synced_setIntCauseBy (cause : BitVec 16) (hmode : ports.cpuPortMode = .tms9995) :
    Synced ports (setIntCauseBy writeTmsCruToBus cause ports) := by
  unfold setIntCauseBy
  dsimp only
  rw [if_pos hmode]
  exact ⟨cruIo_applyPacked _, cruCpu_applyPacked _, cruIo_applyPacked _, cruCpu_applyPacked _,
    rfl, rfl⟩

theorem Synced.trans {a b c : Ports} (h : Synced a b) (h' : Synced b c) : Synced a c :=
  ⟨h'.busIo.trans h.cruIo, h'.busCpu.trans h.cruCpu, h'.cruIo.trans h.cruIo,
    h'.cruCpu.trans h.cruCpu, h'.mode.trans h.mode, h'.wired.trans h.wired⟩

/-- What is on the bus before does not matter. -/
theorem Synced.of_bus {bus : Bus} {after : Ports}
    (h : Synced { ports with handshakeBus := bus } after) : Synced ports after :=
  ⟨h.busIo, h.busCpu, h.cruIo, h.cruCpu, h.mode, h.wired⟩

theorem synced_syncTmsCruToBus (hmode : ports.cpuPortMode = .tms9995) :
    Synced ports (syncTmsCruToBus ports) := by
  unfold syncTmsCruToBus onInReqRise
  dsimp only
  split
  · split
    · exact (synced_write ports).trans (synced_setIntCauseBy _ hmode)
    · exact synced_write ports
  · exact synced_write ports

end Copies

section Steps

variable {timer : BitVec 16 → Bool} {s : Session} {event : Event}

/-- The bus holds what each side wrote last, and so does the copy for the lines of the CPU. -/
structure Inv (s : Session) : Prop where
  mode : s.ports.cpuPortMode = .tms9995
  busIo : IoPorts.busIo s.ports.handshakeBus = s.ioWritten
  busCpu : IoPorts.busCpu s.ports.handshakeBus = s.cpuWritten
  cruCpu : IoPorts.cruCpu s.ports.tmsCru = s.cpuWritten

/-- A request on a wired bus is put on the bus by way of the copy when it rises. -/
theorem setHshkInReq_rise {ports : Ports} {value raiseIrq : Bool}
    (hmode : ports.cpuPortMode = .tms9995)
    (hrise : ports.wired = true ∧ value = true ∧ raiseIrq = true ∧
      ports.handshakeBus.HSHK_IN_REQ = false) :
    Synced ports (setHshkInReq value raiseIrq ports) := by
  obtain ⟨hwired, rfl, rfl, hlow⟩ := hrise
  unfold setHshkInReq onInReqRise
  dsimp only
  rw [hlow, if_pos (show (!false && true && true) = true from rfl), if_pos hwired]
  have hmode' : Ports.cpuPortMode { ports with handshakeBus :=
      { ports.handshakeBus with HSHK_IN_REQ := true } } = .tms9995 := hmode
  exact (synced_setIntCauseBy _ hmode').of_bus

/-- Any other write of the request changes that line of the bus. -/
theorem setHshkInReq_else {ports : Ports} {value raiseIrq : Bool}
    (hrise : ¬ (ports.wired = true ∧ value = true ∧ raiseIrq = true ∧
      ports.handshakeBus.HSHK_IN_REQ = false)) :
    setHshkInReq value raiseIrq ports =
      { ports with handshakeBus := { ports.handshakeBus with HSHK_IN_REQ := value } } := by
  unfold setHshkInReq onInReqRise
  dsimp only
  split
  · rename_i h
    simp only [Bool.and_eq_true, Bool.not_eq_true'] at h
    obtain ⟨⟨hlow, hvalue⟩, hraise⟩ := h
    refine if_neg fun hwired => hrise ⟨hwired, hvalue, hraise, hlow⟩
  · rfl

theorem cruCpu_ioWriteInDataByte {cru : Tms9995CruHandshake} (value : Byte) :
    cruCpu (cru.ioWriteInDataByte value) = cruCpu cru := rfl

theorem setMode_handshakeBus {ports : Ports} :
    (setCpuPortMode .tms9995 ports).handshakeBus = ports.handshakeBus := by
  unfold setCpuPortMode syncBusToTmsCru
  dsimp only
  rw [if_pos rfl]

/-- Filled again, the copy holds the lines of the bus. -/
theorem setMode_cruCpu {ports : Ports} :
    cruCpu (setCpuPortMode .tms9995 ports).tmsCru = busCpu ports.handshakeBus := by
  unfold setCpuPortMode syncBusToTmsCru
  dsimp only
  rw [if_pos rfl]
  simp only [cruCpu_ioWriteInDataByte, cruCpu_cpuWriteOutDataByte, cruCpu_writeBit,
    cruCpu_applyPacked]
  rfl

/-- What a step leaves of the lines of the CPU. -/
theorem Inv.cpu_step (timer : BitVec 16 → Bool) (event : Event) (h : Inv s) :
    (step timer s event).ports.cpuPortMode = .tms9995 ∧
      IoPorts.busCpu (step timer s event).ports.handshakeBus =
        (step timer s event).cpuWritten ∧
      IoPorts.cruCpu (step timer s event).ports.tmsCru = (step timer s event).cpuWritten := by
  have hmode : ¬ s.ports.cpuPortMode ≠ .tms9995 := fun hne => hne h.mode
  have hsync := synced_syncTmsCruToBus h.mode
  cases event with
  | ioWrite write =>
      cases write with
      | inReq value raiseIrq =>
          change (setHshkInReq value raiseIrq s.ports).cpuPortMode = _ ∧
            IoPorts.busCpu (setHshkInReq value raiseIrq s.ports).handshakeBus = s.cpuWritten ∧
            IoPorts.cruCpu (setHshkInReq value raiseIrq s.ports).tmsCru = s.cpuWritten
          by_cases hrise : s.ports.wired = true ∧ value = true ∧ raiseIrq = true ∧
              s.ports.handshakeBus.HSHK_IN_REQ = false
          · have hset := setHshkInReq_rise h.mode hrise
            exact ⟨hset.mode.trans h.mode, hset.busCpu.trans h.cruCpu, hset.cruCpu.trans h.cruCpu⟩
          · rw [setHshkInReq_else hrise]
            exact ⟨h.mode, h.busCpu, h.cruCpu⟩
      | inDena value => exact ⟨h.mode, h.busCpu, h.cruCpu⟩
      | outDack value => exact ⟨h.mode, h.busCpu, h.cruCpu⟩
      | inData value => exact ⟨h.mode, h.busCpu, h.cruCpu⟩
  | ioRead => exact ⟨h.mode, h.busCpu, h.cruCpu⟩
  | cpuReadBit bitAddr =>
      unfold step tms9995CpuReadCruBit
      dsimp only
      rw [if_neg hmode]
      by_cases hregion : inRegion bitAddr
      · rw [if_pos hregion]
        exact ⟨hsync.mode.trans h.mode, hsync.busCpu.trans h.cruCpu, hsync.cruCpu.trans h.cruCpu⟩
      · rw [if_neg hregion]
        split
        · exact ⟨h.mode, h.busCpu, h.cruCpu⟩
        · exact ⟨h.mode, h.busCpu, h.cruCpu⟩
  | cpuWriteBit bitAddr value =>
      unfold step tms9995CpuWriteCruBit
      dsimp only
      rw [if_neg hmode]
      by_cases hregion : inRegion bitAddr
      · have hwrite : Synced { s.ports with tmsCru := s.ports.tmsCru.writeBit bitAddr value }
            (syncTmsCruToBus { s.ports with tmsCru := s.ports.tmsCru.writeBit bitAddr value }) :=
          synced_syncTmsCruToBus h.mode
        have hcru := cruCpu_writeBit s.ports.tmsCru bitAddr value
        rw [h.cruCpu] at hcru
        rw [if_pos hregion]
        exact ⟨hwrite.mode.trans h.mode, hwrite.busCpu.trans hcru, hwrite.cruCpu.trans hcru⟩
      · rw [if_neg hregion, setBit_outside hregion]
        exact ⟨h.mode, h.busCpu, h.cruCpu⟩
  | cpuReadData =>
      unfold step tms9995CpuReadCruDataByte
      dsimp only
      rw [if_neg hmode]
      exact ⟨hsync.mode.trans h.mode, hsync.busCpu.trans h.cruCpu, hsync.cruCpu.trans h.cruCpu⟩
  | cpuWriteData value =>
      unfold step tms9995CpuWriteCruDataByte
      dsimp only
      rw [if_neg hmode]
      have hwrite : Synced { s.ports with tmsCru := s.ports.tmsCru.cpuWriteOutDataByte value }
          (syncTmsCruToBus { s.ports with tmsCru := s.ports.tmsCru.cpuWriteOutDataByte value }) :=
        synced_syncTmsCruToBus h.mode
      have hcru := cruCpu_cpuWriteOutDataByte s.ports.tmsCru value
      rw [h.cruCpu] at hcru
      exact ⟨hwrite.mode.trans h.mode, hwrite.busCpu.trans hcru, hwrite.cruCpu.trans hcru⟩
  | setMode =>
      have hbus := h.busCpu
      refine ⟨?_, ?_, ?_⟩
      · unfold step setCpuPortMode syncBusToTmsCru
        rfl
      · change IoPorts.busCpu (setCpuPortMode .tms9995 s.ports).handshakeBus = s.cpuWritten
        rw [setMode_handshakeBus]
        exact hbus
      · change IoPorts.cruCpu (setCpuPortMode .tms9995 s.ports).tmsCru = s.cpuWritten
        rw [setMode_cruCpu]
        exact hbus

/-- The bit addresses with a line of the I/O board, and the values there. -/
theorem bit_cases {lines : IoLines} {bitAddr : BitVec 16} {value : Bool}
    (h : lines.bit bitAddr = some value) :
    (bitAddr = HSHK_IN_REQ_BIT ∧ value = lines.HSHK_IN_REQ) ∨
      (bitAddr = HSHK_IN_DENA_BIT ∧ value = lines.HSHK_IN_DENA) ∨
      (bitAddr = HSHK_OUT_DACK_BIT ∧ value = lines.HSHK_OUT_DACK) ∨
      (bitAddr = IN_DATA_BASE ∧ value = lines.HSHK_IN_DATA.getLsbD 0) := by
  unfold IoLines.bit at h
  split at h
  · cases h
    exact .inl ⟨‹_›, rfl⟩
  · split at h
    · cases h
      exact .inr (.inl ⟨‹_›, rfl⟩)
    · split at h
      · cases h
        exact .inr (.inr (.inl ⟨‹_›, rfl⟩))
      · split at h
        · cases h
          exact .inr (.inr (.inr ⟨‹_›, rfl⟩))
        · cases h

/-- Every line of the I/O board is in the region. -/
theorem inRegion_of_bit {lines : IoLines} {bitAddr : BitVec 16} {value : Bool}
    (h : lines.bit bitAddr = some value) : inRegion bitAddr := by
  rcases bit_cases h with ⟨rfl, -⟩ | ⟨rfl, -⟩ | ⟨rfl, -⟩ | ⟨rfl, -⟩
  · decide
  · decide
  · decide
  · decide

/-- A bit that the CPU reads is the line of its copy. -/
theorem readBit_of_bit {cru : Tms9995CruHandshake} {bitAddr : BitVec 16} {value : Bool}
    (h : (cruIo cru).bit bitAddr = some value) : cru.readBit bitAddr = value := by
  rcases bit_cases h with ⟨rfl, rfl⟩ | ⟨rfl, rfl⟩ | ⟨rfl, rfl⟩ | ⟨rfl, rfl⟩
  · rfl
  · rfl
  · rfl
  · rfl

/-- A write of the request loses nothing unless it rises over the copy. -/
theorem right_inReq_iff {value raiseIrq : Bool} (h : Inv s) :
    Right timer s (.ioWrite (.inReq value raiseIrq)) ↔
      Agrees s (.ioWrite (.inReq value raiseIrq)) := by
  unfold Right Agrees step IoWrite.run IoWrite.lines
  dsimp only
  rw [← h.busIo]
  by_cases hrise : s.ports.wired = true ∧ value = true ∧ raiseIrq = true ∧
      s.ports.handshakeBus.HSHK_IN_REQ = false
  · rw [(setHshkInReq_rise h.mode hrise).busIo]
    obtain ⟨hwired, rfl, hraise, hlow⟩ := hrise
    exact ⟨fun hright _ _ _ _ => hright.1,
      fun hagrees => ⟨hagrees hwired rfl hraise hlow, trivial⟩⟩
  · rw [setHshkInReq_else hrise]
    refine ⟨fun _ hwired hvalue hraise hlow => ?_, fun _ => ⟨rfl, trivial⟩⟩
    exact absurd ⟨hwired, hvalue, hraise, hlow⟩ hrise

/-- A step is right exactly when the copy agrees with the bus where it has to. -/
theorem right_iff_agrees (h : Inv s) : Right timer s event ↔ Agrees s event := by
  have hmode : ¬ s.ports.cpuPortMode ≠ .tms9995 := fun hne => hne h.mode
  have hsync := synced_syncTmsCruToBus h.mode
  cases event with
  | ioWrite write =>
      cases write with
      | inReq value raiseIrq => exact right_inReq_iff h
      | inDena value =>
          refine ⟨fun _ => trivial, fun _ => ⟨?_, trivial⟩⟩
          exact congrArg (fun lines : IoLines => { lines with HSHK_IN_DENA := value }) h.busIo
      | outDack value =>
          refine ⟨fun _ => trivial, fun _ => ⟨?_, trivial⟩⟩
          exact congrArg (fun lines : IoLines => { lines with HSHK_OUT_DACK := value }) h.busIo
      | inData value =>
          refine ⟨fun _ => trivial, fun _ => ⟨?_, trivial⟩⟩
          exact congrArg (fun lines : IoLines => { lines with HSHK_IN_DATA := value }) h.busIo
  | ioRead => exact ⟨fun _ => trivial, fun _ => ⟨h.busIo, h.busCpu⟩⟩
  | cpuReadBit bitAddr =>
      unfold Right Agrees step tms9995CpuReadCruBit
      dsimp only
      rw [if_neg hmode, ← h.busIo]
      by_cases hregion : inRegion bitAddr
      · rw [if_pos hregion]
        dsimp only
        rw [hsync.busIo]
        constructor
        · rintro ⟨hcru, -⟩ -
          exact hcru
        · intro hcru
          have hcru := hcru hregion
          refine ⟨hcru, fun value hvalue => ?_⟩
          rw [← hcru] at hvalue
          exact readBit_of_bit hvalue
      · rw [if_neg hregion]
        refine ⟨fun _ hin => absurd hin hregion, fun _ => ⟨?_, fun value hvalue => ?_⟩⟩
        · split
          · rfl
          · rfl
        · exact absurd (inRegion_of_bit hvalue) hregion
  | cpuWriteBit bitAddr value =>
      unfold Right Agrees step tms9995CpuWriteCruBit
      dsimp only
      rw [if_neg hmode, ← h.busIo]
      by_cases hregion : inRegion bitAddr
      · have hwrite : Synced { s.ports with tmsCru := s.ports.tmsCru.writeBit bitAddr value }
            (syncTmsCruToBus { s.ports with tmsCru := s.ports.tmsCru.writeBit bitAddr value }) :=
          synced_syncTmsCruToBus h.mode
        rw [if_pos hregion, hwrite.busIo, cruIo_writeBit]
        exact ⟨fun hright _ => hright.1, fun hagrees => ⟨hagrees hregion, trivial⟩⟩
      · rw [if_neg hregion]
        exact ⟨fun _ hin => absurd hin hregion, fun _ => ⟨rfl, trivial⟩⟩
  | cpuReadData =>
      unfold Right Agrees step tms9995CpuReadCruDataByte
      dsimp only
      rw [if_neg hmode, ← h.busIo]
      dsimp only
      rw [hsync.busIo]
      refine ⟨fun hright => hright.1, fun hagrees => ⟨hagrees, ?_⟩⟩
      rw [← hagrees]
      rfl
  | cpuWriteData value =>
      unfold Right Agrees step tms9995CpuWriteCruDataByte
      dsimp only
      have hwrite : Synced { s.ports with tmsCru := s.ports.tmsCru.cpuWriteOutDataByte value }
          (syncTmsCruToBus { s.ports with tmsCru := s.ports.tmsCru.cpuWriteOutDataByte value }) :=
        synced_syncTmsCruToBus h.mode
      rw [if_neg hmode, ← h.busIo, hwrite.busIo, cruIo_cpuWriteOutDataByte]
      exact ⟨fun hright => hright.1, fun hagrees => ⟨hagrees, trivial⟩⟩
  | setMode =>
      refine ⟨fun _ => trivial, fun _ => ⟨?_, trivial⟩⟩
      change busIo (setCpuPortMode .tms9995 s.ports).handshakeBus = s.ioWritten
      rw [setMode_handshakeBus]
      exact h.busIo

/-- A right step keeps what the sides wrote. -/
theorem Inv.step (h : Inv s) (hright : Right timer s event) : Inv (step timer s event) := by
  obtain ⟨hmode, hbus, hcru⟩ := h.cpu_step timer event
  exact ⟨hmode, hright.1, hbus, hcru⟩

end Steps

section Runs

/-- A TMS9995 with a bus attached. -/
def Session.start (bus : Bus) (wired : Bool) : Session where
  ports := setCpuPortMode .tms9995 (attachHandshakeBus bus { wired })
  ioWritten := busIo bus
  cpuWritten := busCpu bus

theorem inv_start (bus : Bus) (wired : Bool) : Inv (Session.start bus wired) := by
  refine ⟨rfl, ?_, ?_, ?_⟩
  · exact congrArg busIo setMode_handshakeBus
  · exact congrArg busCpu setMode_handshakeBus
  · exact setMode_cruCpu

/-- No update is lost in a run exactly when the copy agrees with the bus at every access. -/
theorem no_lost_update_iff (timer : BitVec 16 → Bool) (bus : Bus) (wired : Bool)
    (events : List Event) :
    Always (step timer) (Right timer) (Session.start bus wired) events ↔
      Always (step timer) Agrees (Session.start bus wired) events :=
  always_iff (inv_start bus wired) (fun _ _ h => right_iff_agrees h) fun _ _ h => h.step

/-- The I/O board raises its request; the CPU reads 0, and the request is gone from the bus. -/
theorem lost_update :
    ¬ ∀ timer bus wired events,
      Always (step timer) (Right timer) (Session.start bus wired) events := by
  intro hall
  have hright := (hall (fun _ => false) {} false
    [.ioWrite (.inReq true true), .cpuReadBit HSHK_IN_REQ_BIT]).2.1.1
  exact absurd hright (by decide)

end Runs

end IoPorts
end RetroCpu
