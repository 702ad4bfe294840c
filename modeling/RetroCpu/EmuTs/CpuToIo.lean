import RetroCpu.EmuTs.BoardLink
import RetroCpu.Lib.JsNumber

/-!
# Commands from the processor (`command_cpu_to_io.ts`)

How many bytes of a frame are still to come, and what the I/O board makes of a whole frame:
`dispatch` says which handler it calls, if any, and the response.
-/

namespace RetroCpu
namespace CpuToIo

open Handshake
open BoardLink (CpuType)

section Sizes

/-- `CMD_CPU_TO_IO` -/
inductive Cmd
  | MODE_SET
  | TIME_GET
  | TIMER_SET
  | UNDEF_NOTIFY
  | HEX_KEY_GET
  | PC_KEY_GET
  | LED_DISPLAY
  | LCD_CTRL
  | LCD_TEXT
  | BEEP
  | BREAK_NOTIFY
  | STEP_NOTIFY
  | RTC_GET_RAW
  | TEMP_GET_RAW
  | LIGHT_GET_RAW
  | DISTANCE_GET_RAW
deriving DecidableEq, Repr

def Cmd.code : Cmd → Byte
  | .MODE_SET => 0x10
  | .TIME_GET => 0x11
  | .TIMER_SET => 0x12
  | .UNDEF_NOTIFY => 0x13
  | .HEX_KEY_GET => 0x14
  | .PC_KEY_GET => 0x15
  | .LED_DISPLAY => 0x16
  | .LCD_CTRL => 0x17
  | .LCD_TEXT => 0x18
  | .BEEP => 0x19
  | .BREAK_NOTIFY => 0x1a
  | .STEP_NOTIFY => 0x1b
  | .RTC_GET_RAW => 0x1c
  | .TEMP_GET_RAW => 0x1d
  | .LIGHT_GET_RAW => 0x1e
  | .DISTANCE_GET_RAW => 0x1f

/-- The command of a byte, if it is one. -/
def Cmd.ofCode (b : Byte) : Option Cmd :=
  [ MODE_SET, TIME_GET, TIMER_SET, UNDEF_NOTIFY, HEX_KEY_GET, PC_KEY_GET, LED_DISPLAY, LCD_CTRL,
    LCD_TEXT, BEEP, BREAK_NOTIFY, STEP_NOTIFY, RTC_GET_RAW, TEMP_GET_RAW, LIGHT_GET_RAW,
    DISTANCE_GET_RAW].find? fun cmd => cmd.code == b

def BREAK_NOTIFY_HEADER_SIZE : Nat := 11
def BREAK_HISTORY_ENTRY_SIZE_MN1613 : Nat := 66
def BREAK_HISTORY_ENTRY_SIZE_TMS9995 : Nat := 78
def CPU_STATE_NOTIFY_FRAME_SIZE_MN1613 : Nat := 60
def CPU_STATE_NOTIFY_FRAME_SIZE_TMS9995 : Nat := 70
def BREAK_HISTORY_MAX_COUNT : Nat := 4

/-- `breakHistoryEntrySizeForCpu` -/
def breakHistoryEntrySizeForCpu : CpuType → Nat
  | .tms9995 => BREAK_HISTORY_ENTRY_SIZE_TMS9995
  | .mn1613 => BREAK_HISTORY_ENTRY_SIZE_MN1613

/-- `CPU_FRAME_SIZE` -/
def CPU_FRAME_SIZE : Cmd → Nat
  | .MODE_SET => 2
  | .HEX_KEY_GET => 1
  | .PC_KEY_GET => 2
  | .LED_DISPLAY => 16
  | .BEEP => 6
  | .TIMER_SET => 6
  | .TIME_GET => 1
  | .BREAK_NOTIFY => BREAK_NOTIFY_HEADER_SIZE
  | .LCD_CTRL => 6
  | .LCD_TEXT => 20
  | .STEP_NOTIFY => CPU_STATE_NOTIFY_FRAME_SIZE_MN1613
  | .UNDEF_NOTIFY => CPU_STATE_NOTIFY_FRAME_SIZE_MN1613
  | .RTC_GET_RAW => 1
  | .TEMP_GET_RAW => 1
  | .LIGHT_GET_RAW => 1
  | .DISTANCE_GET_RAW => 1

/-- `cpuFrameSizeForCpu` -/
def cpuFrameSizeForCpu (cmd : Byte) (cpuType : CpuType) : Nat :=
  match Cmd.ofCode cmd with
  | none => 1
  | some cmd =>
      if cmd = .STEP_NOTIFY ∨ cmd = .UNDEF_NOTIFY then
        match cpuType with
        | .tms9995 => CPU_STATE_NOTIFY_FRAME_SIZE_TMS9995
        | .mn1613 => CPU_STATE_NOTIFY_FRAME_SIZE_MN1613
      else CPU_FRAME_SIZE cmd

/-- The whole length of the frame that starts with some bytes. -/
def frameTotal (frameSoFar : List Byte) (entrySize : Nat) (cpuType : CpuType) : Nat :=
  let cmd := frameSoFar.headD 0
  if cmd ≠ Cmd.BREAK_NOTIFY.code then cpuFrameSizeForCpu cmd cpuType
  else if frameSoFar.length < 3 then BREAK_NOTIFY_HEADER_SIZE
  else if (frameSoFar.getD 2 0).toNat > BREAK_HISTORY_MAX_COUNT then BREAK_NOTIFY_HEADER_SIZE
  else BREAK_NOTIFY_HEADER_SIZE + (frameSoFar.getD 2 0).toNat * entrySize

/-- `cpuToIoRemainingSize` -/
def cpuToIoRemainingSize (frameSoFar : List Byte) (entrySize : Nat) (cpuType : CpuType) : Int :=
  if frameSoFar.length = 0 then 0
  else max 0 ((frameTotal frameSoFar entrySize cpuType : Int) - frameSoFar.length)

end Sizes

section Handlers

/-- `read16` -/
def read16 (buf : List Byte) (ofs : Nat) : Int :=
  Js.lor (Js.shl (Js.num (buf.getD ofs 0)) 8) (Js.num (buf.getD (ofs + 1) 0))

/-- Four bytes, the first one at the top -/
def read32 (buf : List Byte) (ofs : Nat) : Int :=
  Js.lor (Js.lor (Js.lor (Js.shl (Js.num (buf.getD ofs 0)) 24)
    (Js.shl (Js.num (buf.getD (ofs + 1) 0)) 16))
    (Js.shl (Js.num (buf.getD (ofs + 2) 0)) 8)) (Js.num (buf.getD (ofs + 3) 0))

/-- `frame.slice(from, to)` -/
def slice (frame : List Byte) (start stop : Nat) : List Byte := (frame.take stop).drop start

/-- `LedDisplayData` -/
structure LedDisplayData where
  sevenSeg : List Byte
  bulletLed0_7 : Byte
  bulletLed8_F : Byte
deriving DecidableEq

/-- `BeepParams` -/
structure BeepParams where
  frequencyHz : Int
  durationMs : Int
deriving DecidableEq

/-- `TimerParams` -/
structure TimerParams where
  timerNo : Byte
  periodMs : Int
  count : Int
deriving DecidableEq

/-- The argument of `onBreakNotify` -/
structure BreakNotifyInfo where
  kind : Nat
  slot : Byte
  flags : Byte
  breakCount : Byte
  historyCount : Byte
  historyEntries : List (List Byte)
  addr : Int
deriving DecidableEq

/-- `CpuStateNotifyInfo` -/
structure CpuStateNotifyInfo where
  addr : Int
  r0 : Int
  r1 : Int
  r2 : Int
  r3 : Int
  r4 : Int
  r5to15 : List Int
  sp : Int
  str : Int
  ic : Int
  csbrSsbr : Int
  tsr : Int
  npp : Int
  stack : List Int
deriving DecidableEq

/-- A call of a handler, with its arguments. -/
inductive Call
  | onModeSet (mode : Byte)
  | getHexKeys
  | getPcKey
  | onLedDisplay (data : LedDisplayData)
  | onBeep (params : BeepParams)
  | onTimerSet (params : TimerParams)
  | getTime
  | onBreakNotify (info : BreakNotifyInfo)
  | onStepNotify (info : CpuStateNotifyInfo)
  | onUndefNotify (info : CpuStateNotifyInfo)
  | onLcdControl (frame : List Byte)
  | onLcdText (frame : List Byte)
  | getRtcRaw
  | getTempRaw
  | getLightRaw
  | getDistanceRaw
deriving DecidableEq

/-- The handlers: what each of them returns, and the bytes of its result. -/
structure CpuToIoHandlers where
  onModeSet : Byte → Byte
  getHexKeys : List Byte × Byte
  getPcKey : Byte × Byte × Byte
  onLedDisplay : LedDisplayData → Byte
  onBeep : BeepParams → Byte
  onTimerSet : TimerParams → Byte
  getTime : List Byte × Byte
  onBreakNotify : BreakNotifyInfo → Byte
  onStepNotify : CpuStateNotifyInfo → Byte
  onUndefNotify : CpuStateNotifyInfo → Byte
  onLcdControl : List Byte → Byte
  onLcdText : List Byte → Byte
  getRtcRaw : List Byte × Byte
  getTempRaw : BitVec 32 × Byte
  getLightRaw : List (BitVec 32) × Byte
  getDistanceRaw : BitVec 32 × Byte × Byte

/-- Some bytes, cut or filled up with 0 to a length -/
def padded (n : Nat) (bytes : List Byte) : List Byte :=
  bytes.take n ++ List.replicate (n - bytes.length) 0

/-- The low 16 bits, the upper byte first -/
def bytes16 (raw : BitVec 32) : List Byte := [(raw >>> 8).setWidth 8, raw.setWidth 8]

/-- The response to a call -/
def CpuToIoHandlers.respond (handlers : CpuToIoHandlers) : Call → List Byte
  | .onModeSet mode => [handlers.onModeSet mode]
  | .getHexKeys => padded 8 handlers.getHexKeys.1 ++ [handlers.getHexKeys.2]
  | .getPcKey => [handlers.getPcKey.1, handlers.getPcKey.2.1, handlers.getPcKey.2.2]
  | .onLedDisplay data => [handlers.onLedDisplay data]
  | .onBeep params => [handlers.onBeep params]
  | .onTimerSet params => [handlers.onTimerSet params]
  | .getTime => padded 8 handlers.getTime.1 ++ [handlers.getTime.2]
  | .onBreakNotify info => [handlers.onBreakNotify info]
  | .onStepNotify info => [handlers.onStepNotify info]
  | .onUndefNotify info => [handlers.onUndefNotify info]
  | .onLcdControl frame => [handlers.onLcdControl frame]
  | .onLcdText frame => [handlers.onLcdText frame]
  | .getRtcRaw => padded 7 handlers.getRtcRaw.1 ++ [handlers.getRtcRaw.2]
  | .getTempRaw => bytes16 handlers.getTempRaw.1 ++ [handlers.getTempRaw.2]
  | .getLightRaw => handlers.getLightRaw.1.flatMap bytes16 ++ [handlers.getLightRaw.2]
  | .getDistanceRaw =>
      bytes16 handlers.getDistanceRaw.1 ++
        [handlers.getDistanceRaw.2.1 &&& 0x1f, handlers.getDistanceRaw.2.2]

end Handlers

section Dispatcher

/-- `CpuToIoCommandDispatcher` -/
structure Dispatcher where
  handlers : CpuToIoHandlers
  historyEntrySize : Nat := BREAK_HISTORY_ENTRY_SIZE_MN1613
  cpuType : CpuType := .mn1613

/-- What `dispatch` does: the call of a handler, if any, and the response. -/
abbrev Dispatched := Option Call × List Byte

/-- The response without a call -/
def ng : Dispatched := (none, [RESPONSE_NG])

def Dispatcher.call (d : Dispatcher) (call : Call) : Dispatched :=
  (some call, d.handlers.respond call)

/-- `_handleModeSet` -/
def Dispatcher.handleModeSet (d : Dispatcher) (frame : List Byte) : Dispatched :=
  let mode := frame.getD 0x01 0
  if mode ≠ 0 ∧ mode ≠ 1 then ng else d.call (.onModeSet mode)

/-- `_handleLedDisplay` -/
def Dispatcher.handleLedDisplay (d : Dispatcher) (frame : List Byte) : Dispatched :=
  d.call (.onLedDisplay
    { sevenSeg := slice frame 0x02 0x0e
      bulletLed0_7 := frame.getD 0x0e 0
      bulletLed8_F := frame.getD 0x0f 0 })

/-- `_handleBeep` -/
def Dispatcher.handleBeep (d : Dispatcher) (frame : List Byte) : Dispatched :=
  d.call (.onBeep { frequencyHz := read16 frame 0x01, durationMs := read16 frame 0x03 })

/-- `_handleTimerSet` -/
def Dispatcher.handleTimerSet (d : Dispatcher) (frame : List Byte) : Dispatched :=
  let timerNo := frame.getD 0x01 0
  if timerNo ≠ 0 then ng
  else
    d.call (.onTimerSet
      { timerNo := timerNo, periodMs := read16 frame 0x02, count := read16 frame 0x04 })

def ADDR_BREAK_SLOT_COUNT : Nat := 4

/-- The kind of a break, from its flags -/
def kindOf (flags : Byte) : Nat :=
  if flags &&& 0x40 ≠ 0 then 0 else if flags &&& 0x01 ≠ 0 then 2 else 1

/-- The loop over the history entries -/
def historyEntries (frame : List Byte) (entrySize parseCount : Nat) : List (List Byte) :=
  (List.range parseCount).map fun i =>
    slice frame (BREAK_NOTIFY_HEADER_SIZE + i * entrySize)
      (BREAK_NOTIFY_HEADER_SIZE + i * entrySize + entrySize)

/-- `_handleBreakNotify` -/
def Dispatcher.handleBreakNotify (d : Dispatcher) (frame : List Byte) : Dispatched :=
  let slot := frame.getD 0x01 0
  let historyCount := frame.getD 0x02 0
  let availableEntryCount := (frame.length - BREAK_NOTIFY_HEADER_SIZE) / d.historyEntrySize
  if slot.toNat ≥ ADDR_BREAK_SLOT_COUNT then ng
  else if historyCount.toNat > BREAK_HISTORY_MAX_COUNT then ng
  else
    d.call (.onBreakNotify
      { kind := kindOf (frame.getD 0x03 0)
        slot := slot
        flags := frame.getD 0x03 0
        breakCount := frame.getD 0x04 0
        historyCount := historyCount
        historyEntries :=
          historyEntries frame d.historyEntrySize (min historyCount.toNat availableEntryCount)
        addr := read32 frame 0x05 })

/-- Words behind each other -/
def readWords (frame : List Byte) (ofs n : Nat) : List Int :=
  (List.range n).map fun i => read16 frame (ofs + i * 2)

/-- `_decodeMn1613CpuStateNotifyInfo` -/
def decodeMn1613CpuStateNotifyInfo (frame : List Byte) : CpuStateNotifyInfo where
  addr := read32 frame 0x02
  r0 := read16 frame 0x06
  r1 := read16 frame 0x08
  r2 := read16 frame 0x0a
  r3 := read16 frame 0x0c
  r4 := read16 frame 0x0e
  r5to15 := []
  sp := read16 frame 0x10
  str := read16 frame 0x12
  ic := read16 frame 0x14
  csbrSsbr := read16 frame 0x16
  tsr := read16 frame 0x18
  npp := Js.num (frame.getD 0x1a 0)
  stack := readWords frame 0x1c 16

/-- `_decodeTmsCpuStateNotifyInfo` -/
def decodeTmsCpuStateNotifyInfo (frame : List Byte) : CpuStateNotifyInfo :=
  let regs := readWords frame 0x06 16
  { addr := read32 frame 0x02
    r0 := regs.getD 0 0
    r1 := regs.getD 1 0
    r2 := regs.getD 2 0
    r3 := regs.getD 3 0
    r4 := regs.getD 4 0
    r5to15 := regs.drop 5
    sp := regs.getD 10 0
    str := 0
    ic := 0
    csbrSsbr := 0
    tsr := 0
    npp := 0
    stack := readWords frame 0x26 16 }

/-- `_decodeCpuStateNotifyInfo` -/
def Dispatcher.decodeCpuStateNotifyInfo (d : Dispatcher) (frame : List Byte) :
    CpuStateNotifyInfo :=
  match d.cpuType with
  | .tms9995 => decodeTmsCpuStateNotifyInfo frame
  | .mn1613 => decodeMn1613CpuStateNotifyInfo frame

/-- The handler of a command, for a frame that is not too short -/
def Dispatcher.handle (d : Dispatcher) (frame : List Byte) : Cmd → Dispatched
  | .MODE_SET => d.handleModeSet frame
  | .HEX_KEY_GET => d.call .getHexKeys
  | .PC_KEY_GET => d.call .getPcKey
  | .LED_DISPLAY => d.handleLedDisplay frame
  | .BEEP => d.handleBeep frame
  | .TIMER_SET => d.handleTimerSet frame
  | .TIME_GET => d.call .getTime
  | .BREAK_NOTIFY => d.handleBreakNotify frame
  | .LCD_CTRL => d.call (.onLcdControl frame)
  | .LCD_TEXT => d.call (.onLcdText frame)
  | .STEP_NOTIFY => d.call (.onStepNotify (d.decodeCpuStateNotifyInfo frame))
  | .UNDEF_NOTIFY => d.call (.onUndefNotify (d.decodeCpuStateNotifyInfo frame))
  | .RTC_GET_RAW => d.call .getRtcRaw
  | .TEMP_GET_RAW => d.call .getTempRaw
  | .LIGHT_GET_RAW => d.call .getLightRaw
  | .DISTANCE_GET_RAW => d.call .getDistanceRaw

/-- `dispatch` -/
def Dispatcher.dispatch (d : Dispatcher) (frame : List Byte) : Dispatched :=
  match frame with
  | [] => ng
  | cmd :: _ =>
      if frame.length < cpuFrameSizeForCpu cmd d.cpuType then ng
      else
        match Cmd.ofCode cmd with
        | none => ng
        | some cmd => d.handle frame cmd

end Dispatcher

end CpuToIo
end RetroCpu
