import RetroCpu.BootMonitor.Tms9995

/-!
# Sessions of the handshake

A session is a request of one side and the bytes that follow it.  Both sides know the
lengths from the command; the I/O board uses the operations of `IoControlHandshake`, the
processor the routines of its monitor.
-/

namespace RetroCpu
namespace Handshake

open Interleave

section Sides

/-- The routines of a monitor. -/
structure CpuSide (S : Type) where
  initiateSend : StateT S (Prog Bus Unit) Unit
  sendByte : Byte → StateT S (Prog Bus Unit) Unit
  finalizeSend : StateT S (Prog Bus Unit) Unit
  acceptRequest : StateT S (Prog Bus Unit) Unit
  recvByte : StateT S (Prog Bus Unit) Byte
  finalizeRecv : StateT S (Prog Bus Unit) Unit

def mn1613 : CpuSide BootMonitor.Mn1613.Cpu where
  initiateSend := BootMonitor.Mn1613.g_hshk_initiate_send
  sendByte b := do
    modify fun c => { c with R0 := b.setWidth 16 }
    BootMonitor.Mn1613.g_hshk_send_byte
  finalizeSend := BootMonitor.Mn1613.g_hshk_finalize_send
  acceptRequest := BootMonitor.Mn1613.g_hshk_accept_request
  recvByte := do
    BootMonitor.Mn1613.g_hshk_recv_byte
    return (← get).R1.setWidth 8
  finalizeRecv := BootMonitor.Mn1613.g_hshk_finalize_recv

def tms9995 (half : BootMonitor.Tms9995.ByteHalf) : CpuSide BootMonitor.Tms9995.Cpu where
  initiateSend := BootMonitor.Tms9995.g_hshk_initiate_send
  sendByte b := do
    modify fun c => { c with R2 := b.setWidth 16 }
    BootMonitor.Tms9995.g_hshk_send_byte half
  finalizeSend := BootMonitor.Tms9995.g_hshk_finalize_send half
  acceptRequest := BootMonitor.Tms9995.g_hshk_accept_request
  recvByte := do
    BootMonitor.Tms9995.g_hshk_recv_byte half
    return (← get).R3.setWidth 8
  finalizeRecv := BootMonitor.Tms9995.g_hshk_finalize_recv

variable {S : Type} (cpu : CpuSide S)

def CpuSide.sendBytes : List Byte → StateT S (Prog Bus Unit) Unit
  | [] => pure ()
  | b :: data => do
      cpu.sendByte b
      CpuSide.sendBytes data

def CpuSide.recvBytes : Nat → StateT S (Prog Bus Unit) (List Byte)
  | 0 => pure []
  | n + 1 => do
      let b ← cpu.recvByte
      return b :: (← CpuSide.recvBytes n)

end Sides

section Scripts

/-- The direction of a turn. -/
inductive Direction
  | toCpu
  | fromCpu
deriving DecidableEq, Repr

/-- Bytes that go in one direction. -/
abbrev Turn := Direction × List Byte

/-- A request of the processor with its bytes, or a request of the I/O board with bytes in
turns. -/
inductive Session
  | fromCpu (data : List Byte)
  | toCpu (raiseIrq : Bool) (turns : List Turn)

/-- The turns on the side of the I/O board: what it receives. -/
def ioTurns : List Turn → Io (List (List Byte))
  | [] => pure []
  | (.toCpu, data) :: turns => do
      transferBytesToCpu data
      ioTurns turns
  | (.fromCpu, data) :: turns => do
      let received ← receiveBytesFromCpu data.length
      return received :: (← ioTurns turns)

/-- A session on the side of the I/O board. -/
def ioSession : Session → Io (List (List Byte))
  | .fromCpu data => do
      waitForCpuRequest
      let received ← receiveBytesFromCpu data.length
      finalizeReceive
      return [received]
  | .toCpu raiseIrq turns => do
      initiateSend raiseIrq
      let received ← ioTurns turns
      finalizeSend
      return received

/-- Sessions back to back. -/
def ioScript : List Session → Io (List (List Byte))
  | [] => pure []
  | session :: script => do
      let received ← ioSession session
      return received ++ (← ioScript script)

variable {S : Type} (cpu : CpuSide S)

/-- The turns on the side of the processor: what it receives. -/
def cpuTurns : List Turn → StateT S (Prog Bus Unit) (List (List Byte))
  | [] => pure []
  | (.toCpu, data) :: turns => do
      let received ← cpu.recvBytes data.length
      return received :: (← cpuTurns turns)
  | (.fromCpu, data) :: turns => do
      cpu.sendBytes data
      cpuTurns turns

attribute [grind =] cpuTurns

def cpuSession : Session → StateT S (Prog Bus Unit) (List (List Byte))
  | .fromCpu data => do
      cpu.initiateSend
      cpu.sendBytes data
      cpu.finalizeSend
      return []
  | .toCpu _ turns => do
      cpu.acceptRequest
      let received ← cpuTurns cpu turns
      cpu.finalizeRecv
      return received

def cpuScript : List Session → StateT S (Prog Bus Unit) (List (List Byte))
  | [] => pure []
  | session :: script => do
      let received ← cpuSession cpu session
      return received ++ (← cpuScript script)

/-- The bytes that a session sends in a direction. -/
def Session.sent (direction : Direction) : Session → List (List Byte)
  | .fromCpu data => if direction = .fromCpu then [data] else []
  | .toCpu _ turns => (turns.filter (·.1 = direction)).map (·.2)

/-- The bytes that a script sends in a direction. -/
def sent (direction : Direction) (script : List Session) : List (List Byte) :=
  script.flatMap (Session.sent direction)

/-- All lines of the handshake are at 0. -/
structure Bus.Quiet (bus : Bus) : Prop where
  outReq : bus.HSHK_OUT_REQ = false
  outDena : bus.HSHK_OUT_DENA = false
  outDack : bus.HSHK_OUT_DACK = false
  inReq : bus.HSHK_IN_REQ = false
  inDena : bus.HSHK_IN_DENA = false
  inDack : bus.HSHK_IN_DACK = false

/-- Both sides have ended, have received what was sent, and have left the lines at 0. -/
def Delivered (script : List Session)
    (x : Pair Bus IoWait Unit (Except String (List (List Byte))) (List (List Byte) × S)) : Prop :=
  (∃ s, x.left = .done (.ok (sent .fromCpu script)) ∧ x.right = .done (sent .toCpu script, s)) ∧
    x.state.Quiet

/-- Whatever the interleaving, a script comes to an end with all its bytes delivered. -/
def Lossless (script : List Session) (s : S) (bus : Bus) : Prop :=
  Settles (Delivered script) ⟨(ioScript script).run, (cpuScript cpu script).run s, bus⟩

end Scripts

end Handshake
end RetroCpu
