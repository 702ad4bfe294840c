import RetroCpu.EmuTs.Handshake

/-!
# The debug connection of the I/O board (`debug_host.ts`)

The frames of the debugger, with their encoders and parsers, and the loop that cuts the
received bytes into frames again.  A connection goes on with the next frame when the answer
to the last one is there.
-/

namespace RetroCpu
namespace DebugHost

open Handshake

section Frames

def ADDR_BREAK_SLOT_COUNT : Nat := 4
def ADDR_BREAK_SET_FRAME_LEN : Nat := 1 + ADDR_BREAK_SET_PAYLOAD_LEN
def ADDR_BREAK_CLR_FRAME_LEN : Nat := 2
def MEM_READ_REQ_FRAME_LEN : Nat := 9
def MEM_WRITE_REQ_HEADER_LEN : Nat := 9
def DEBUG_MEM_MAX_BYTES : Nat := 65536

/-- `AddrBreakSetFields` -/
structure AddrBreakSetFields where
  slot : Byte
  flags : Byte
  count : Byte
  addr : BitVec 32
  data : BitVec 16
deriving DecidableEq, Repr

/-- A byte of a frame. -/
def at_ (frame : List Byte) (i : Nat) : Byte := frame.getD i 0

/-- Four bytes of a frame, big endian. -/
def u32At (frame : List Byte) (i : Nat) : BitVec 32 :=
  (at_ frame i).setWidth 32 <<< 24 ||| (at_ frame (i + 1)).setWidth 32 <<< 16 |||
    (at_ frame (i + 2)).setWidth 32 <<< 8 ||| (at_ frame (i + 3)).setWidth 32

/-- `encodeAddrBreakSetFrame` -/
def encodeAddrBreakSetFrame (fields : AddrBreakSetFields) : List Byte :=
  [BREAK_MEM_IO_SET, fields.slot, fields.flags, fields.count] ++ u32be fields.addr ++
    [(fields.data >>> 8).setWidth 8, fields.data.setWidth 8]

/-- `parseAddrBreakSetFrame` -/
def parseAddrBreakSetFrame (frame : List Byte) : Option AddrBreakSetFields :=
  if frame.length < ADDR_BREAK_SET_FRAME_LEN then none
  else if at_ frame 0 ≠ BREAK_MEM_IO_SET then none
  else some
    { slot := at_ frame 1
      flags := at_ frame 2
      count := at_ frame 3
      addr := u32At frame 4
      data := (at_ frame 8).setWidth 16 <<< 8 ||| (at_ frame 9).setWidth 16 }

/-- `addrBreakSetPayload` -/
def addrBreakSetPayload (frame : List Byte) : Option (List Byte) :=
  match parseAddrBreakSetFrame frame with
  | none => none
  | some _ => some ((frame.drop 1).take ADDR_BREAK_SET_PAYLOAD_LEN)

/-- `encodeAddrBreakClrFrame` -/
def encodeAddrBreakClrFrame (slot : Byte) : List Byte := [BREAK_MEM_IO_CLR, slot]

/-- `parseAddrBreakClrSlot` -/
def parseAddrBreakClrSlot (frame : List Byte) : Option Byte :=
  if frame.length < ADDR_BREAK_CLR_FRAME_LEN then none
  else if at_ frame 0 ≠ BREAK_MEM_IO_CLR then none
  else some (at_ frame 1)

/-- `isAddrBreakSlot` -/
def isAddrBreakSlot (slot : Byte) : Bool := slot.toNat < ADDR_BREAK_SLOT_COUNT

/-- `encodeMemReadFrame` -/
def encodeMemReadFrame (byteAddr byteCount : BitVec 32) : List Byte :=
  MEM_READ :: u32be byteAddr ++ u32be byteCount

/-- `parseMemReadFrame` -/
def parseMemReadFrame (frame : List Byte) : Option (BitVec 32 × BitVec 32) :=
  if frame.length < MEM_READ_REQ_FRAME_LEN then none
  else if at_ frame 0 ≠ MEM_READ then none
  else some (u32At frame 1, u32At frame 5)

/-- `encodeMemWriteFrame` -/
def encodeMemWriteFrame (byteAddr : BitVec 32) (data : List Byte) : List Byte :=
  MEM_WRITE :: u32be byteAddr ++ u32be (BitVec.ofNat 32 data.length) ++ data

/-- `parseMemWriteFrame` -/
def parseMemWriteFrame (frame : List Byte) : Option (BitVec 32 × List Byte) :=
  if frame.length < MEM_WRITE_REQ_HEADER_LEN then none
  else if at_ frame 0 ≠ MEM_WRITE then none
  else
    let byteCount := (u32At frame 5).toNat
    if byteCount > DEBUG_MEM_MAX_BYTES then none
    else if frame.length < MEM_WRITE_REQ_HEADER_LEN + byteCount then none
    else some (u32At frame 1, (frame.drop MEM_WRITE_REQ_HEADER_LEN).take byteCount)

/-- `debugPcFrameLength` -/
def debugPcFrameLength (cmd : Byte) : Nat :=
  if cmd = BREAK_MEM_IO_SET then ADDR_BREAK_SET_FRAME_LEN
  else if cmd = BREAK_MEM_IO_CLR then ADDR_BREAK_CLR_FRAME_LEN
  else if cmd = MEM_READ then MEM_READ_REQ_FRAME_LEN
  else if cmd = MEM_WRITE then MEM_WRITE_REQ_HEADER_LEN
  else 1

/-- `debugPcNeededBytes` -/
def debugPcNeededBytes (buf : List Byte) : Option Nat :=
  if buf.length < 1 then none
  else if at_ buf 0 = MEM_WRITE then
    if buf.length < MEM_WRITE_REQ_HEADER_LEN then none
    else
      let n := (u32At buf 5).toNat
      if n > DEBUG_MEM_MAX_BYTES then some MEM_WRITE_REQ_HEADER_LEN
      else some (MEM_WRITE_REQ_HEADER_LEN + n)
  else some (debugPcFrameLength (at_ buf 0))

end Frames

section Dispatch

/-- Which of the optional handlers are there. -/
structure Handlers where
  memRead : Bool := true
  memWrite : Bool := true

/-- What `dispatch` does with a frame before it waits: a reply, or a call of a handler. -/
inductive Call
  | reply (bytes : List Byte)
  | addrBreakSet (payload : List Byte)
  | addrBreakClr (slot : Byte)
  | memRead (byteAddr byteCount : BitVec 32)
  | memWrite (byteAddr : BitVec 32) (data : List Byte)
deriving DecidableEq, Repr

/-- `dispatch`, for a frame that is not one of a break. -/
def dispatchMem (handlers : Handlers) (frame : List Byte) : Call :=
  match parseMemReadFrame frame with
  | some (byteAddr, byteCount) =>
      if !handlers.memRead then .reply [RESPONSE_NG]
      else if byteCount.toNat < 1 ∨ byteCount.toNat > DEBUG_MEM_MAX_BYTES then
        .reply [RESPONSE_NG]
      else .memRead byteAddr byteCount
  | none =>
      match parseMemWriteFrame frame with
      | some (byteAddr, data) =>
          if !handlers.memWrite then .reply [RESPONSE_NG]
          else if data.length < 1 ∨ data.length > DEBUG_MEM_MAX_BYTES then .reply [RESPONSE_NG]
          else .memWrite byteAddr data
      | none => .reply [RESPONSE_NG]

/-- `dispatch` -/
def dispatch (handlers : Handlers) (frame : List Byte) : Call :=
  match parseAddrBreakSetFrame frame with
  | some set =>
      if !isAddrBreakSlot set.slot then .reply [RESPONSE_NG]
      else
        match addrBreakSetPayload frame with
        | none => .reply [RESPONSE_NG]
        | some payload => .addrBreakSet payload
  | none =>
      match parseAddrBreakClrSlot frame with
      | some slot =>
          if !isAddrBreakSlot slot then .reply [RESPONSE_NG] else .addrBreakClr slot
      | none => dispatchMem handlers frame

/-- How the promise of a handler ends. -/
inductive Answer
  | status (status : Byte)
  | data (bytes : List Byte)
  | rejected
deriving DecidableEq, Repr

/-- The reply to a frame. -/
def reply (handlers : Handlers) (frame : List Byte) (answer : Answer) : List Byte :=
  match dispatch handlers frame, answer with
  | .reply bytes, _ => bytes
  | _, .rejected => [RESPONSE_NG]
  | .memRead _ _, .data bytes => RESPONSE_OK :: u32be (BitVec.ofNat 32 bytes.length) ++ bytes
  | .memRead _ _, .status _ => [RESPONSE_NG]
  | .memWrite _ _, _ => [RESPONSE_OK]
  | _, .status status => [status]
  | _, .data _ => [RESPONSE_NG]

end Dispatch

section Connections

/-- The variables of `onConnection`, with the frames dispatched and the replies written. -/
structure Connection where
  buf : List Byte := []
  busy : Option (List Byte) := none
  frames : List (List Byte) := []
  replies : List (List Byte) := []
deriving DecidableEq

/-- A frame of `need` bytes is taken out of the buffer and dispatched. -/
def Connection.take (need : Nat) (c : Connection) : Connection :=
  { c with
    buf := c.buf.drop need
    busy := some (c.buf.take need)
    frames := c.frames ++ [c.buf.take need] }

/-- `pump` -/
def pump (c : Connection) : Connection :=
  if c.busy.isSome then c
  else
    match debugPcNeededBytes c.buf with
    | none => c
    | some need => if c.buf.length < need then c else c.take need

inductive Event
  | data (chunk : List Byte)
  | settled (answer : Answer)

/-- An event of a connection; a promise can only settle when there is one. -/
def step (handlers : Handlers) (c : Connection) : Event → Option Connection
  | .data chunk => some (pump { c with buf := c.buf ++ chunk })
  | .settled answer =>
      match c.busy with
      | none => none
      | some frame =>
          some (pump { c with busy := none, replies := c.replies ++ [reply handlers frame answer] })

/-- A run of a connection. -/
def run (handlers : Handlers) (c : Connection) : List Event → Option Connection
  | [] => some c
  | event :: events =>
      match step handlers c event with
      | none => none
      | some c' => run handlers c' events

/-- The bytes received in a run. -/
def received : List Event → List Byte
  | [] => []
  | .data chunk :: events => chunk ++ received events
  | .settled _ :: events => received events

attribute [grind =] received

/-- The answers of a run. -/
def answers : List Event → List Answer
  | [] => []
  | .data _ :: events => answers events
  | .settled answer :: events => answer :: answers events

end Connections

section Requests

/-- A request of the debugger. -/
inductive Request
  | addrBreakSet (fields : AddrBreakSetFields)
  | addrBreakClr (slot : Byte)
  | memRead (byteAddr byteCount : BitVec 32)
  | memWrite (byteAddr : BitVec 32) (data : List Byte)

/-- The encoder of a request. -/
def Request.encode : Request → List Byte
  | .addrBreakSet fields => encodeAddrBreakSetFrame fields
  | .addrBreakClr slot => encodeAddrBreakClrFrame slot
  | .memRead byteAddr byteCount => encodeMemReadFrame byteAddr byteCount
  | .memWrite byteAddr data => encodeMemWriteFrame byteAddr data

/-- A write of more bytes than the host takes. -/
def Request.OverLimit : Request → Prop
  | .memWrite _ data => data.length > DEBUG_MEM_MAX_BYTES
  | _ => False

end Requests

end DebugHost
end RetroCpu
