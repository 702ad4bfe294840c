import RetroCpu.EmuTs.CpuToIo
import RetroCpu.Handshake.Framed

/-!
# The commands of the processor as `HandShake.mdc` lays them out

A command with its field values, its frame on the line, and the call of a handler that the
I/O board should make of it.
-/

namespace RetroCpu
namespace Handshake

open Interleave CpuToIo
open BoardLink (CpuType)

section Layouts

/-- The fields of a step or undefined-instruction notification of an MN1613 -/
structure Mn1613State where
  addr : BitVec 32
  r0 : BitVec 16
  r1 : BitVec 16
  r2 : BitVec 16
  r3 : BitVec 16
  r4 : BitVec 16
  sp : BitVec 16
  str : BitVec 16
  ic : BitVec 16
  csbr : Byte
  ssbr : Byte
  tsr0 : Byte
  tsr1 : Byte
  npp : Byte
  stack : Fin 16 → BitVec 16

/-- The fields of a step or undefined-instruction notification of a TMS9995 -/
structure Tms9995State where
  addr : BitVec 32
  regs : Fin 16 → BitVec 16
  stack : Fin 16 → BitVec 16

def CpuState : CpuType → Type
  | .mn1613 => Mn1613State
  | .tms9995 => Tms9995State

def CpuState.addr : {cpuType : CpuType} → CpuState cpuType → BitVec 32
  | .mn1613, state => Mn1613State.addr state
  | .tms9995, state => Tms9995State.addr state

/-- The fields of a break notification, with at most 4 entries of the history -/
structure BreakFields (cpuType : CpuType) where
  slot : Byte
  flags : Byte
  breakCount : Byte
  addr : BitVec 32
  recorded : Byte
  entries : List (Fin (breakHistoryEntrySizeForCpu cpuType) → Byte)
  le : entries.length ≤ 4

/-- A command with its fields. -/
inductive Command (cpuType : CpuType)
  | modeSet (mode : Byte)
  | timeGet
  | timerSet (timerNo : Byte) (period count : BitVec 16)
  | undefNotify (state : CpuState cpuType)
  | hexKeyGet
  | pcKeyGet
  | ledDisplay (sevenSeg : Fin 12 → Byte) (bulletLed0_7 bulletLed8_F : Byte)
  | lcdCtrl (kind argA argB argC : Byte)
  | lcdText (row col length : Byte) (text : Fin 16 → Byte)
  | beep (frequency duration : BitVec 16)
  | breakNotify (fields : BreakFields cpuType)
  | stepNotify (state : CpuState cpuType)
  | rtcGetRaw
  | tempGetRaw
  | lightGetRaw
  | distanceGetRaw

/-- A word, the upper byte first -/
def u16be (w : BitVec 16) : List Byte := [(w >>> 8).setWidth 8, w.setWidth 8]

def wordsBytes (words : List (BitVec 16)) : List Byte := words.flatMap u16be

/-- The words of the registers -/
def Mn1613State.words (state : Mn1613State) : List (BitVec 16) :=
  [state.r0, state.r1, state.r2, state.r3, state.r4, state.sp, state.str, state.ic,
    state.csbr ++ state.ssbr, state.tsr0 ++ state.tsr1]

/-- A notification behind its command and pad -/
def CpuState.bytes : {cpuType : CpuType} → CpuState cpuType → List Byte
  | .mn1613, (state : Mn1613State) =>
      u32be state.addr ++ wordsBytes state.words ++ [state.npp, 0] ++
        wordsBytes (List.ofFn state.stack)
  | .tms9995, (state : Tms9995State) =>
      u32be state.addr ++ wordsBytes (List.ofFn state.regs) ++ wordsBytes (List.ofFn state.stack)

variable {cpuType : CpuType}

/-- The bytes of all entries -/
def BreakFields.entryBytes (fields : BreakFields cpuType) : List Byte :=
  fields.entries.flatMap List.ofFn

def BreakFields.count (fields : BreakFields cpuType) : Byte := BitVec.ofNat 8 fields.entries.length

/-- The frame of a command -/
def Command.frame : Command cpuType → List Byte
  | .modeSet mode => [0x10, mode]
  | .timeGet => [0x11, 0]
  | .timerSet timerNo period count => [0x12, timerNo] ++ u16be period ++ u16be count
  | .undefNotify state => [0x13, 0] ++ state.bytes
  | .hexKeyGet => [0x14]
  | .pcKeyGet => [0x15, 0]
  | .ledDisplay sevenSeg bulletLed0_7 bulletLed8_F =>
      [0x16, 0] ++ List.ofFn sevenSeg ++ [bulletLed0_7, bulletLed8_F]
  | .lcdCtrl kind argA argB argC => [0x17, 0, kind, argA, argB, argC]
  | .lcdText row col length text => [0x18, row, col, length] ++ List.ofFn text
  | .beep frequency duration => [0x19, 0] ++ u16be frequency ++ u16be duration
  | .breakNotify fields =>
      [0x1a, fields.slot, fields.count, fields.flags, fields.breakCount, 0] ++ u32be fields.addr ++
        [fields.recorded, 0] ++ fields.entryBytes
  | .stepNotify state => [0x1b, 0] ++ state.bytes
  | .rtcGetRaw => [0x1c, 0]
  | .tempGetRaw => [0x1d, 0]
  | .lightGetRaw => [0x1e, 0]
  | .distanceGetRaw => [0x1f, 0]

/-- What a handler should see of a notification -/
def CpuState.info : {cpuType : CpuType} → CpuState cpuType → CpuStateNotifyInfo
  | .mn1613, (state : Mn1613State) =>
      { addr := Js.num state.addr
        r0 := Js.num state.r0
        r1 := Js.num state.r1
        r2 := Js.num state.r2
        r3 := Js.num state.r3
        r4 := Js.num state.r4
        r5to15 := []
        sp := Js.num state.sp
        str := Js.num state.str
        ic := Js.num state.ic
        csbrSsbr := Js.num (state.csbr ++ state.ssbr)
        tsr := Js.num (state.tsr0 ++ state.tsr1)
        npp := Js.num state.npp
        stack := (List.ofFn state.stack).map Js.num }
  | .tms9995, (state : Tms9995State) =>
      { addr := Js.num state.addr
        r0 := Js.num (state.regs 0)
        r1 := Js.num (state.regs 1)
        r2 := Js.num (state.regs 2)
        r3 := Js.num (state.regs 3)
        r4 := Js.num (state.regs 4)
        r5to15 := ((List.ofFn state.regs).map Js.num).drop 5
        sp := Js.num (state.regs 10)
        str := 0
        ic := 0
        csbrSsbr := 0
        tsr := 0
        npp := 0
        stack := (List.ofFn state.stack).map Js.num }

/-- The call that a command asks for; none when a field has no meaning. -/
def Command.expected : Command cpuType → Option Call
  | .modeSet mode => if mode = 0 ∨ mode = 1 then some (.onModeSet mode) else none
  | .timeGet => some .getTime
  | .timerSet timerNo period count =>
      if timerNo = 0 then
        some (.onTimerSet { timerNo := 0, periodMs := Js.num period, count := Js.num count })
      else none
  | .undefNotify state => some (.onUndefNotify state.info)
  | .hexKeyGet => some .getHexKeys
  | .pcKeyGet => some .getPcKey
  | .ledDisplay sevenSeg bulletLed0_7 bulletLed8_F =>
      some (.onLedDisplay
        { sevenSeg := List.ofFn sevenSeg
          bulletLed0_7 := bulletLed0_7
          bulletLed8_F := bulletLed8_F })
  | .lcdCtrl kind argA argB argC => some (.onLcdControl [0x17, 0, kind, argA, argB, argC])
  | .lcdText row col length text => some (.onLcdText ([0x18, row, col, length] ++ List.ofFn text))
  | .beep frequency duration =>
      some (.onBeep { frequencyHz := Js.num frequency, durationMs := Js.num duration })
  | .breakNotify fields =>
      if fields.slot.toNat < ADDR_BREAK_SLOT_COUNT then
        some (.onBreakNotify
          { kind := kindOf fields.flags
            slot := fields.slot
            flags := fields.flags
            breakCount := fields.breakCount
            historyCount := fields.count
            historyEntries := fields.entries.map List.ofFn
            addr := Js.num fields.addr })
      else none
  | .stepNotify state => some (.onStepNotify state.info)
  | .rtcGetRaw => some .getRtcRaw
  | .tempGetRaw => some .getTempRaw
  | .lightGetRaw => some .getLightRaw
  | .distanceGetRaw => some .getDistanceRaw

/-- The dispatcher for a CPU type -/
def dispatcher (cpuType : CpuType) (handlers : CpuToIoHandlers) : Dispatcher where
  handlers := handlers
  historyEntrySize := breakHistoryEntrySizeForCpu cpuType
  cpuType := cpuType

/-- What `dispatch` should do for a call -/
def answer (handlers : CpuToIoHandlers) : Option Call → Dispatched
  | none => ng
  | some call => (some call, handlers.respond call)

/-- `cpuToIoRemainingSize` for a CPU type -/
def remainingFor (cpuType : CpuType) (frameSoFar : List Byte) : Int :=
  cpuToIoRemainingSize frameSoFar (breakHistoryEntrySizeForCpu cpuType) cpuType

/-- Whatever the interleaving and the handlers, the frame of the command is taken as a whole and
handed over with its field values. -/
def Command.Agrees (c : Command cpuType) : Prop :=
  ∀ (handlers : CpuToIoHandlers) {S : Type} {cpu : CpuSide S}, Monitor cpu → ∀ (s : S) (bus : Bus),
    bus.Quiet → bus.INTERRUPT_BUSY = false → ∀ fuel > c.frame.length,
      Settles (fun x => ∃ bytes, Received bytes x ∧
          (dispatcher cpuType handlers).dispatch bytes = answer handlers c.expected)
        ⟨(receiveFramedAdaptive fuel (remainingFor cpuType)).run, (cpu.sendFrame c.frame).run s,
          bus⟩

end Layouts

section Words

variable {hi lo : Byte}

theorem shl8_lor (hi lo : Byte) :
    Js.lor (Js.shl (Js.num hi) 8) (Js.num lo) = Js.num hi * 256 + Js.num lo := by
  have hhi := Js.num_lt hi
  have hlo := Js.num_lt lo
  have hhi0 := Js.num_nonneg hi
  have hlo0 := Js.num_nonneg lo
  have hshl : Js.shl (Js.num hi) 8 = Js.num hi * 256 := Js.shl_mul 8 (by omega) hhi0 (by omega)
  rw [hshl]
  exact Js.lor_add 8 (by omega) (by omega) (by omega) hlo0 (by omega) (by omega)

theorem num_u16 (w : BitVec 16) :
    Js.num ((w >>> 8).setWidth 8) * 256 + Js.num (w.setWidth 8) = Js.num w := by
  have hw := w.isLt
  simp only [Js.num, BitVec.toNat_setWidth, BitVec.toNat_ushiftRight, Nat.shiftRight_eq_div_pow]
  omega

theorem num_append (hi lo : Byte) : Js.num (hi ++ lo) = Js.num hi * 256 + Js.num lo := by
  have hlo := lo.isLt
  simp only [Js.num, BitVec.toNat_append]
  rw [← Nat.shiftLeft_add_eq_or_of_lt hlo, Nat.shiftLeft_eq]
  omega

theorem read16_append (front : List Byte) (w : BitVec 16) (back : List Byte) :
    read16 (front ++ (u16be w ++ back)) front.length = Js.num w := by
  have hhi : (front ++ (u16be w ++ back)).getD front.length 0 = (w >>> 8).setWidth 8 := by
    rw [List.getD_append_right _ _ _ _ (le_refl _), Nat.sub_self]
    rfl
  have hlo : (front ++ (u16be w ++ back)).getD (front.length + 1) 0 = w.setWidth 8 := by
    rw [List.getD_append_right _ _ _ _ (by omega), Nat.add_sub_cancel_left]
    rfl
  rw [read16, hhi, hlo, shl8_lor, num_u16]

theorem length_wordsBytes (words : List (BitVec 16)) :
    (wordsBytes words).length = 2 * words.length := by
  induction words with
  | nil => rfl
  | cons w words ih =>
      rw [wordsBytes, List.flatMap_cons, List.length_append, List.length_cons]
      rw [wordsBytes] at ih
      rw [ih, u16be]
      simp only [List.length_cons, List.length_nil]
      omega

/-- The words behind some bytes are read back. -/
theorem readWords_append (front : List Byte) (words : List (BitVec 16)) (back : List Byte) :
    readWords (front ++ (wordsBytes words ++ back)) front.length words.length =
      words.map Js.num := by
  induction words generalizing front with
  | nil => rfl
  | cons w words ih =>
      have hnext := ih (front ++ u16be w)
      rw [List.length_append, show (u16be w).length = 2 from rfl] at hnext
      rw [readWords] at hnext ⊢
      rw [List.length_cons, List.range_succ_eq_map, List.map_cons, List.map_map, List.map_cons,
        ← hnext, wordsBytes, List.flatMap_cons, List.append_assoc, List.append_assoc]
      congr 1
      · rw [Nat.zero_mul, Nat.add_zero, read16_append]
      · refine List.map_congr_left fun i _ => ?_
        rw [Function.comp_apply, Nat.succ_mul, Nat.add_comm (i * 2), ← Nat.add_assoc]
        rfl

end Words

end Handshake
end RetroCpu
