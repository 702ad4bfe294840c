import RetroCpu.Lib.Interleave

/-!
# The I/O board's side of the handshake (`handshake_ioboard.ts`)

The operations of `IoControlHandshake` as programs on the lines of the bus.  Every
assignment to a line is an access of its own, and every `wait` has a name, so that a run can
say which one timed out.
-/

namespace RetroCpu
namespace Handshake

open Interleave

section Lines

abbrev Byte := BitVec 8

/-- The lines between the two boards (`CpuIoSignals`). -/
structure Bus where
  INTERRUPT_BUSY : Bool := false
  INT_CAUSE : BitVec 16 := 0
  HSHK_OUT_REQ : Bool := false
  HSHK_OUT_DENA : Bool := false
  HSHK_OUT_DACK : Bool := false
  HSHK_OUT_DATA : Byte := 0
  HSHK_IN_REQ : Bool := false
  HSHK_IN_DENA : Bool := false
  HSHK_IN_DACK : Bool := false
  HSHK_IN_DATA : Byte := 0
deriving DecidableEq

/-- `createHandshakeBus` -/
def createHandshakeBus : Bus := {}

end Lines

section Phases

/-- The waits of the operations. -/
inductive IoWait
  /-- `initiateSend`: no interrupt, and neither request -/
  | busFree
  /-- `initiateSend` without interrupt, before its request -/
  | inReqLow
  /-- `initiateSend` without interrupt, behind its request -/
  | outReqLow
  /-- `transferUnitToCpu`, first byte -/
  | dackHigh
  /-- `transferUnitToCpu`, second byte -/
  | dackLow
  /-- `finalizeSend` -/
  | sendEnd
  /-- `waitForCpuRequest` -/
  | cpuRequest
  /-- `receiveUnitFromCpu`, first byte -/
  | denaHigh
  /-- `receiveUnitFromCpu`, second byte -/
  | denaLow
  /-- `finalizeReceive` -/
  | receiveEnd
deriving DecidableEq, Repr

/-- An operation; it may throw. -/
abbrev Io := ExceptT String (Prog Bus IoWait)

def drive (f : Bus → Bus) : Io Unit := ExceptT.mk (.access f fun _ => .done (.ok ()))

def sample {α : Type} (g : Bus → α) : Io α := ExceptT.mk (.access id fun bus => .done (.ok (g bus)))

/-- What an operation makes of the end of a wait. -/
def waitResult : Option Nat → Except String Unit
  | some _ => .ok ()
  | none => .error "handshake timeout"

/-- `wait` -/
def wait (name : IoWait) (condition : Bus → Bool) : Io Unit :=
  ExceptT.mk (.wait name condition fun r => .done (waitResult r))

def INT_CAUSE_HANDSHAKE : BitVec 16 := 2

/-- `initiateSend` -/
def initiateSend (raiseIrq : Bool) : Io Unit :=
  if !raiseIrq then do
    wait .inReqLow fun bus => !bus.HSHK_IN_REQ
    drive fun bus => { bus with HSHK_IN_DENA := false }
    drive fun bus => { bus with INT_CAUSE := INT_CAUSE_HANDSHAKE }
    drive fun bus => { bus with HSHK_IN_REQ := true }
    wait .outReqLow fun bus => !bus.HSHK_OUT_REQ
  else do
    wait .busFree fun bus => !bus.INTERRUPT_BUSY && !bus.HSHK_OUT_REQ && !bus.HSHK_IN_REQ
    drive fun bus => { bus with HSHK_IN_DENA := false }
    drive fun bus => { bus with INT_CAUSE := INT_CAUSE_HANDSHAKE }
    drive fun bus => { bus with HSHK_IN_REQ := true }

/-- `transferUnitToCpu` -/
def transferUnitToCpu (b0 b1 : Byte) : Io Unit := do
  drive fun bus => { bus with HSHK_IN_DATA := b0 }
  drive fun bus => { bus with HSHK_IN_DENA := true }
  wait .dackHigh fun bus => bus.HSHK_IN_DACK
  drive fun bus => { bus with HSHK_IN_DATA := b1 }
  drive fun bus => { bus with HSHK_IN_DENA := false }
  wait .dackLow fun bus => !bus.HSHK_IN_DACK

/-- `transferBytesToCpu`: an odd length is padded with 0. -/
def transferBytesToCpu : List Byte → Io Unit
  | [] => pure ()
  | [b0] => transferUnitToCpu b0 0
  | b0 :: b1 :: data => do
      transferUnitToCpu b0 b1
      transferBytesToCpu data

/-- `finalizeSend` -/
def finalizeSend : Io Unit := do
  wait .sendEnd fun bus => !bus.HSHK_IN_DACK
  drive fun bus => { bus with HSHK_IN_REQ := false }

/-- `waitForCpuRequest` -/
def waitForCpuRequest : Io Unit := do
  wait .cpuRequest fun bus => bus.HSHK_OUT_REQ
  drive fun bus => { bus with HSHK_OUT_DACK := false }

/-- `receiveUnitFromCpu` -/
def receiveUnitFromCpu : Io (Byte × Byte) := do
  wait .denaHigh fun bus => bus.HSHK_OUT_DENA
  let b0 ← sample (·.HSHK_OUT_DATA)
  drive fun bus => { bus with HSHK_OUT_DACK := true }
  wait .denaLow fun bus => !bus.HSHK_OUT_DENA
  let b1 ← sample (·.HSHK_OUT_DATA)
  drive fun bus => { bus with HSHK_OUT_DACK := false }
  return (b0, b1)

/-- `receiveBytesFromCpu`: the pad behind an odd length is dropped. -/
def receiveBytesFromCpu : Nat → Io (List Byte)
  | 0 => pure []
  | 1 => do
      let (b0, _) ← receiveUnitFromCpu
      return [b0]
  | n + 2 => do
      let (b0, b1) ← receiveUnitFromCpu
      return b0 :: b1 :: (← receiveBytesFromCpu n)

/-- `finalizeReceive` -/
def finalizeReceive : Io Unit := wait .receiveEnd fun bus => !bus.HSHK_OUT_REQ

end Phases

section Operations

/-- `send` -/
def send (data : List Byte) (raiseIrq : Bool) : Io Unit := do
  initiateSend raiseIrq
  transferBytesToCpu data
  finalizeSend

/-- `sendReceive` -/
def sendReceive (toCpu : List Byte) (fromCpu : Nat) (thenToCpu : List Byte) : Io (List Byte) := do
  initiateSend true
  transferBytesToCpu toCpu
  let reply ← receiveBytesFromCpu fromCpu
  transferBytesToCpu thenToCpu
  finalizeSend
  return reply

/-- `receive` -/
def receive (length : Nat) : Io (List Byte) := do
  waitForCpuRequest
  let data ← receiveBytesFromCpu length
  finalizeReceive
  return data

def MEM_READ : Byte := 0x83
def MEM_WRITE : Byte := 0x84
def IO_READ : Byte := 0x85
def IO_WRITE : Byte := 0x86
def BREAK_MEM_IO_SET : Byte := 0x80
def BREAK_MEM_IO_CLR : Byte := 0x81

/-- `RESPONSE_CODE` -/
def RESPONSE_OK : Byte := 0
def RESPONSE_NG : Byte := 1

/-- `u32be` -/
def u32be (n : BitVec 32) : List Byte :=
  [(n >>> 24).setWidth 8, (n >>> 16).setWidth 8, (n >>> 8).setWidth 8, n.setWidth 8]

/-- `memRead` -/
def memRead (byteAddr count : BitVec 32) : Io (List Byte) := do
  initiateSend true
  transferBytesToCpu ([MEM_READ, 0] ++ u32be byteAddr ++ u32be count)
  let out ← receiveBytesFromCpu count.toNat
  transferBytesToCpu [RESPONSE_OK]
  finalizeSend
  return out

def ADDR_BREAK_SET_PAYLOAD_LEN : Nat := 9

/-- `addrBreakSet` -/
def addrBreakSet (payload : List Byte) : Io Byte :=
  if payload.length ≠ ADDR_BREAK_SET_PAYLOAD_LEN then pure RESPONSE_NG
  else do return (← sendReceive (BREAK_MEM_IO_SET :: payload) 1 []).headD RESPONSE_NG

/-- `addrBreakClr` -/
def addrBreakClr (slot : Byte) : Io Byte := do
  return (← sendReceive [BREAK_MEM_IO_CLR, slot] 1 []).headD RESPONSE_NG

/-- `memWrite` -/
def memWrite (byteAddr : BitVec 32) (data : List Byte) : Io Unit := do
  initiateSend true
  transferBytesToCpu
    ([MEM_WRITE, 0] ++ u32be byteAddr ++ u32be (BitVec.ofNat 32 data.length) ++ data)
  let st ← receiveBytesFromCpu 1
  finalizeSend
  if st.head? ≠ some RESPONSE_OK then throw "handshake 14h NG" else pure ()

def HSHK_IO_MAX_BYTES : Nat := 254

/-- `ioRead` -/
def ioRead (ioAddr : BitVec 16) (byteCount : Byte) : Io (List Byte) :=
  if byteCount.toNat > HSHK_IO_MAX_BYTES then throw "handshake 15h count"
  else do
    initiateSend true
    transferBytesToCpu
      [IO_READ, 0, (ioAddr >>> 8).setWidth 8, ioAddr.setWidth 8, byteCount, 0]
    let rec_ ← receiveBytesFromCpu (byteCount.toNat + 1)
    finalizeSend
    if rec_[byteCount.toNat]? ≠ some RESPONSE_OK then throw "handshake 15h NG"
    else return rec_.take byteCount.toNat

/-- `ioWrite` -/
def ioWrite (ioAddr : BitVec 16) (data : List Byte) : Io Unit :=
  if data.length > HSHK_IO_MAX_BYTES then throw "handshake 16h count"
  else do
    initiateSend true
    transferBytesToCpu ([IO_WRITE, 0, (ioAddr >>> 8).setWidth 8, ioAddr.setWidth 8,
      BitVec.ofNat 8 data.length, 0] ++ data)
    let st ← receiveBytesFromCpu 1
    finalizeSend
    if st.head? ≠ some RESPONSE_OK then throw "handshake 16h NG" else pure ()

/-- What `receiveFramed` reads behind the first unit. -/
def framedRest (second : Byte) (rem : Nat) : Io (List Byte) :=
  match rem with
  | 0 => pure []
  | 1 => pure [second]
  | rem + 2 => do return second :: (← receiveBytesFromCpu (rem + 1))

/-- `receiveFramed` -/
def receiveFramed (remainingAfterFirst : Byte → Int) : Io (List Byte) := do
  waitForCpuRequest
  let (first, second) ← receiveUnitFromCpu
  let rest ← framedRest second (remainingAfterFirst first).toNat
  finalizeReceive
  return first :: rest

/-- The loop of `receiveFramedAdaptive`, up to a number of rounds; it ends where a unit does
not come. -/
def adaptiveLoop (remainingFromSoFar : List Byte → Int) :
    Nat → List Byte → List Byte → Io (List Byte)
  | 0, _, _ => ExceptT.mk .stop
  | fuel + 1, bytes, pending =>
      if remainingFromSoFar bytes ≤ 0 then pure bytes
      else
        match pending with
        | b :: pending => adaptiveLoop remainingFromSoFar fuel (bytes ++ [b]) pending
        | [] => do
            match ← tryCatch (some <$> receiveUnitFromCpu) fun _ => pure none with
            | some (b0, b1) => adaptiveLoop remainingFromSoFar fuel (bytes ++ [b0]) [b1]
            | none => return bytes

/-- `receiveFramedAdaptive`, up to a number of rounds -/
def receiveFramedAdaptive (fuel : Nat) (remainingFromSoFar : List Byte → Int) :
    Io (List Byte) := do
  waitForCpuRequest
  let (first, second) ← receiveUnitFromCpu
  let bytes ← adaptiveLoop remainingFromSoFar fuel [first] [second]
  finalizeReceive
  return bytes

end Operations

end Handshake
end RetroCpu
