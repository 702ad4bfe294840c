/-!
# The handshake agent of the CPU board (`cpu_hshk_agent.ts`)

Both directions of the handshake share one bus.  On the side of the I/O board `busLock` lets
one operation after the other use it: a call of `memRead`, `memWrite`, `addrBreakSet` or
`addrBreakClr`, or the `handleOneRequest` that the receive loop queues when it sees
`HSHK_OUT_REQ`.  The CPU does not know the lock; it raises its request when its program wants to.

A transfer on the lines is one step of both sides here, and a wait ends only by its
condition: a state in which nothing but a timeout can happen is stuck.
-/

namespace RetroCpu
namespace HshkAgent

section Agent

/-- What is queued on `busLock`. -/
inductive Op
  | call
  | serve
deriving DecidableEq, Repr

/-- Where the operation is that holds the lock. -/
inductive Holder
  /-- `initiateSend` of a call, in its wait -/
  | callWait
  | callTransfer
  /-- `finalizeSend` of a call -/
  | callEnd
  /-- `waitForCpuRequest` -/
  | serveWait
  | serveReceive
  /-- `finalizeReceive` -/
  | serveReceiveEnd
  /-- `forward` -/
  | serveForward
  /-- `initiateSend` of the reply, before its request -/
  | replyWait
  /-- `initiateSend` of the reply, behind its request -/
  | replyStart
  | replyTransfer
  /-- `finalizeSend` of the reply -/
  | replyEnd
deriving DecidableEq, Repr

/-- Where the CPU is. -/
inductive Cpu
  | run
  /-- its request is up, and it waits for `HSHK_OUT_DACK` -/
  | send
  /-- the frame is out, and the request still up -/
  | sent
  /-- `g_hshk_wait_req1_1` -/
  | waitReply
  /-- the handler of the handshake interrupt -/
  | handler
  /-- the handler, behind the transfer -/
  | handlerEnd
  /-- the handler, over a CPU that waits for `HSHK_OUT_DACK` -/
  | nested
  | nestedEnd
deriving DecidableEq, Repr

/-- The agent, the CPU and the lines between them.  `raised` and `called` count the requests of
the CPU and the calls of the I/O board, `served` and `answered` the ones that are over. -/
structure State where
  holder : Option Holder := none
  queue : List Op := []
  /-- `serveLoop` is in `waitForRequest` -/
  polling : Bool := true
  cpu : Cpu := .run
  irq : Bool := false
  INTERRUPT_BUSY : Bool := false
  HSHK_OUT_REQ : Bool := false
  HSHK_IN_REQ : Bool := false
  raised : Nat := 0
  served : Nat := 0
  called : Nat := 0
  answered : Nat := 0
deriving DecidableEq, Repr

def Op.start : Op → Holder
  | .call => .callWait
  | .serve => .serveWait

/-- `withBusLock`: behind the operations that are there, or at once. -/
def withBusLock (op : Op) (s : State) : State :=
  match s.holder with
  | none => { s with holder := some op.start }
  | some _ => { s with queue := s.queue ++ [op] }

/-- The end of the operation that holds the lock. -/
def release (s : State) : State :=
  match s.queue with
  | [] => { s with holder := none }
  | op :: queue => { s with holder := some op.start, queue }

end Agent

section Steps

inductive Event
  /-- a call of `memRead`, `memWrite`, `addrBreakSet` or `addrBreakClr` -/
  | call
  /-- the program of the CPU raises `HSHK_OUT_REQ` -/
  | raise
  /-- the receive loop looks at `HSHK_OUT_REQ` -/
  | poll
  /-- the operation that holds the lock goes on -/
  | agent
  /-- the CPU accepts the handshake interrupt -/
  | accept
  /-- the CPU goes on behind a transfer -/
  | cpu
  /-- a transfer between the two -/
  | transfer
deriving DecidableEq, Repr

/-- The steps that the two sides make by themselves. -/
def Event.Internal (event : Event) : Prop := event ≠ .call ∧ event ≠ .raise

instance (event : Event) : Decidable event.Internal := inferInstanceAs (Decidable (_ ∧ _))

def call (s : State) : State := withBusLock .call { s with called := s.called + 1 }

/-- `g_hshk_initiate_send` -/
def raise (s : State) : Option State :=
  match s.cpu with
  | .run => some { s with cpu := .send, HSHK_OUT_REQ := true, raised := s.raised + 1 }
  | _ => none

/-- `waitForRequest`, and `handleOneRequest` behind it -/
def poll (s : State) : Option State :=
  if s.polling && s.HSHK_OUT_REQ then some (withBusLock .serve { s with polling := false })
  else none

def agent (s : State) : Option State :=
  match s.holder with
  | some .callWait =>
      if !s.INTERRUPT_BUSY && !s.HSHK_OUT_REQ && !s.HSHK_IN_REQ then
        some { s with holder := some .callTransfer, HSHK_IN_REQ := true, irq := true }
      else none
  | some .callEnd => some (release { s with HSHK_IN_REQ := false, answered := s.answered + 1 })
  | some .serveWait =>
      if s.HSHK_OUT_REQ then some { s with holder := some .serveReceive } else none
  | some .serveReceiveEnd =>
      if !s.HSHK_OUT_REQ then some { s with holder := some .serveForward } else none
  | some .serveForward => some { s with holder := some .replyWait }
  | some .replyWait =>
      if !s.HSHK_IN_REQ then some { s with holder := some .replyStart, HSHK_IN_REQ := true }
      else none
  | some .replyStart =>
      if !s.HSHK_OUT_REQ then some { s with holder := some .replyTransfer } else none
  | some .replyEnd =>
      some (release { s with HSHK_IN_REQ := false, polling := true, served := s.served + 1 })
  | _ => none

def accept (s : State) : Option State :=
  if s.irq then
    match s.cpu with
    | .run => some { s with cpu := .handler, irq := false, INTERRUPT_BUSY := true }
    | .send => some { s with cpu := .nested, irq := false, INTERRUPT_BUSY := true }
    | _ => none
  else none

def cpu (s : State) : Option State :=
  match s.cpu with
  | .sent => some { s with cpu := .waitReply, HSHK_OUT_REQ := false }
  | .handlerEnd => some { s with cpu := .run, INTERRUPT_BUSY := false }
  | .nestedEnd => some { s with cpu := .send, INTERRUPT_BUSY := false }
  | _ => none

def transfer (s : State) : Option State :=
  match s.holder, s.cpu with
  | some .callTransfer, .handler => some { s with holder := some .callEnd, cpu := .handlerEnd }
  | some .callTransfer, .nested => some { s with holder := some .callEnd, cpu := .nestedEnd }
  | some .serveReceive, .send => some { s with holder := some .serveReceiveEnd, cpu := .sent }
  | some .replyTransfer, .waitReply => some { s with holder := some .replyEnd, cpu := .run }
  | _, _ => none

def step (s : State) : Event → Option State
  | .call => some (call s)
  | .raise => raise s
  | .poll => poll s
  | .agent => agent s
  | .accept => accept s
  | .cpu => cpu s
  | .transfer => transfer s

end Steps

end HshkAgent
end RetroCpu
