import RetroCpu.EmuTs.DebugFrames
import RetroCpu.Lib.StepRuns
import Mathlib.Logic.Function.Basic
import Mathlib.Tactic.SplitIfs

/-!
# The debugger's TCP client

`debugIo.ts`: the calls of `memRead` are done one after the other on a connection that is kept.
A call writes its request and reads its reply in three pieces; a piece waits in a queue until
the receive buffer holds enough.  A timer that fires rejects the promise of a piece and leaves
the piece in the queue.

A connection remembers here which calls were written to it and which replies the host gave:
the host answers the requests of a connection in their order (`debug_host.ts`), and the bytes
of its replies arrive in any pieces.
-/

namespace RetroCpu
namespace DebugExpand

open Handshake (Byte u32be RESPONSE_OK RESPONSE_NG)
open DebugHost (at_ u32At encodeMemReadFrame)
open StepRuns (after Always)

section Host

/-- How the host answers a request for memory. -/
inductive Reply
  | ok (data : List Byte)
  | ng
deriving DecidableEq

/-- The bytes of a reply; an array that its length field cannot count is not sent. -/
def Reply.encode : Reply → List Byte
  | .ok data =>
      if data.length < 2 ^ 32 then
        RESPONSE_OK :: u32be (BitVec.ofNat 32 data.length) ++ data
      else [RESPONSE_NG]
  | .ng => [RESPONSE_NG]

structure Call where
  id : Nat
  byteAddr : BitVec 32
  byteCount : BitVec 32
deriving DecidableEq

/-- A connection: the calls and the bytes written to it, the replies to them, and what of the
replies has not arrived. -/
structure Socket where
  sent : List Call := []
  written : List Byte := []
  replies : List Reply := []
  wire : List Byte := []
  destroyed : Bool := false

end Host

section Client

/-- An entry of `waiters`; the promise of one that has timed out is rejected already. -/
structure Waiter where
  need : Nat
  timedOut : Bool
deriving DecidableEq

/-- What the running call waits for. -/
inductive Stage
  | connecting
  | status
  | length
  | data (m : Nat)
deriving DecidableEq

def Stage.need : Stage → Nat
  | .connecting => 0
  | .status => 1
  | .length => 4
  | .data m => m

/-- The errors of a call. -/
inductive Failure
  | connect
  | closed
  | timeout (n : Nat)
  | ng (status : Byte)
  | tooLarge (m : Nat)
deriving DecidableEq

structure DebugIoClient where
  sock : Option Nat := none
  buf : List Byte := []
  waiters : List Waiter := []
  chain : List Call := []
  running : Option (Call × Stage) := none
  calls : Nat := 0
  results : List (Call × Except Failure (List Byte)) := []
  made : Nat := 0
  sockets : Nat → Socket := fun _ => {}

/-- The loop of `flushWaiters`, with what the one live waiter is given. -/
def flushWaiters : List Waiter → List Byte → Option (List Byte) × List Waiter × List Byte
  | [], buf => (none, [], buf)
  | w :: waiters, buf =>
      if w.need ≤ buf.length then
        let rest := flushWaiters waiters (buf.drop w.need)
        (if w.timedOut then rest.1 else some (buf.take w.need), rest.2)
      else (none, w :: waiters, buf)

namespace DebugIoClient

variable (s : DebugIoClient)

def updateSocket (id : Nat) (f : Socket → Socket) : DebugIoClient :=
  { s with sockets := Function.update s.sockets id (f (s.sockets id)) }

def destroy (id : Nat) : DebugIoClient := s.updateSocket id fun x => { x with destroyed := true }

/-- `this.sock && !this.sock.destroyed` -/
def openSock : Option Nat :=
  match s.sock with
  | none => none
  | some id => if (s.sockets id).destroyed then none else some id

/-- A waiter is pushed and the queue flushed. -/
def readExact (n : Nat) : Option (List Byte) × DebugIoClient :=
  let flushed := flushWaiters (s.waiters ++ [⟨n, false⟩]) s.buf
  (flushed.1, { s with waiters := flushed.2.1, buf := flushed.2.2 })

/-- The running call ends. -/
def finish (call : Call) (result : Except Failure (List Byte)) : DebugIoClient :=
  { s with running := none, results := s.results ++ [(call, result)] }

def waitAt (call : Call) (stage : Stage) : DebugIoClient :=
  { s with running := some (call, stage) }

def onLength (call : Call) (lenBuf : List Byte) : DebugIoClient :=
  let m := (u32At lenBuf 0).toNat
  if m > 65536 then s.finish call (.error (.tooLarge m))
  else if m = 0 then s.finish call (.ok [])
  else
    match (s.readExact m).1 with
    | none => (s.readExact m).2.waitAt call (.data m)
    | some data => (s.readExact m).2.finish call (.ok data)

def onStatus (call : Call) (st : List Byte) : DebugIoClient :=
  if at_ st 0 ≠ RESPONSE_OK then s.finish call (.error (.ng (at_ st 0)))
  else
    match (s.readExact 4).1 with
    | none => (s.readExact 4).2.waitAt call .length
    | some lenBuf => (s.readExact 4).2.onLength call lenBuf

/-- The running call goes on with what it waited for. -/
def resume (call : Call) (stage : Stage) (bytes : List Byte) : DebugIoClient :=
  match stage with
  | .connecting => s
  | .status => s.onStatus call bytes
  | .length => s.onLength call bytes
  | .data _ => s.finish call (.ok bytes)

/-- `sock.write(encodeMemReadFrame(..))` -/
def write (call : Call) (id : Nat) : DebugIoClient :=
  s.updateSocket id fun x =>
    { x with
      sent := x.sent ++ [call]
      written := x.written ++ encodeMemReadFrame call.byteAddr call.byteCount }

/-- The request is written and its status read. -/
def request (call : Call) (id : Nat) : DebugIoClient :=
  match ((s.write call id).readExact 1).1 with
  | none => ((s.write call id).readExact 1).2.waitAt call .status
  | some st => ((s.write call id).readExact 1).2.onStatus call st

/-- `run`, up to its first wait. -/
def start (call : Call) : DebugIoClient :=
  match s.openSock with
  | some id => s.request call id
  | none => { s with sock := none, buf := [], running := some (call, .connecting) }

/-- The calls of the chain are started until one waits. -/
def drain : List Call → DebugIoClient → DebugIoClient
  | [], s => { s with chain := [] }
  | call :: chain, s =>
      if s.running.isSome then { s with chain := call :: chain } else drain chain (s.start call)

def go : DebugIoClient := drain s.chain s

/-- All waiters are rejected; if one of them is live, the running call fails. -/
def failWaiters : DebugIoClient :=
  match s.running with
  | none => { s with waiters := [] }
  | some (call, _) =>
      if s.waiters.any (fun w => !w.timedOut) then { s with waiters := [] }.finish call (.error .closed)
      else { s with waiters := [] }

/-- What happens to a client. -/
inductive Event
  | memRead (byteAddr byteCount : BitVec 32)
  | connected
  | connectFailed
  | answer (id : Nat) (reply : Reply)
  | deliver (id n : Nat)
  | timeout
  | lost (id : Nat)
  | error (id : Nat)
  | closed (id : Nat)
  | close

/-- The timer of the piece that the running call waits for fires. -/
def onTimeout : DebugIoClient :=
  match s.running with
  | none => s
  | some (_, .connecting) => s
  | some (call, stage) =>
      ({ s with waiters := s.waiters.map fun w : Waiter => { w with timedOut := true } }.finish call
        (.error (.timeout stage.need))).go

/-- `sock.on("data")` -/
def onChunk (id n : Nat) : DebugIoClient :=
  let received := s.updateSocket id fun x => { x with wire := x.wire.drop n }
  let flushed := flushWaiters s.waiters (s.buf ++ (s.sockets id).wire.take n)
  let read := { received with waiters := flushed.2.1, buf := flushed.2.2 }
  match s.running, flushed.1 with
  | some (call, stage), some bytes => (read.resume call stage bytes).go
  | _, _ => read

/-- One event; one of a connection that is not there does nothing. -/
def step : Event → DebugIoClient
  | .memRead byteAddr byteCount =>
      (DebugIoClient.go
        { s with
          chain := s.chain ++ [Call.mk s.calls byteAddr byteCount], calls := s.calls + 1 })
  | .connected =>
      match s.running with
      | some (call, .connecting) =>
          ({ s with made := s.made + 1, sock := some s.made }.request call s.made).go
      | _ => s
  | .connectFailed =>
      match s.running with
      | some (call, .connecting) => (s.finish call (.error .connect)).go
      | _ => s
  | .answer id reply =>
      if id < s.made ∧ (s.sockets id).replies.length < (s.sockets id).sent.length then
        s.updateSocket id fun x =>
          { x with replies := x.replies ++ [reply], wire := x.wire ++ reply.encode }
      else s
  | .deliver id n =>
      if id < s.made ∧ (s.sockets id).destroyed = false then s.onChunk id n else s
  | .timeout => s.onTimeout
  | .lost id => if id < s.made then s.destroy id else s
  | .error id => if id < s.made then (s.destroy id).failWaiters.go else s
  | .closed id =>
      if id < s.made then { (s.destroy id).failWaiters with sock := none }.go else s
  | .close =>
      match s.sock with
      | none => s.failWaiters.go
      | some id => { (s.destroy id).failWaiters with sock := none }.go

end DebugIoClient

end Client

section Condition

open DebugIoClient (Event)

/-- The call has the data of the host's reply to its own request. -/
def Answered (s : DebugIoClient) (call : Call) (data : List Byte) : Prop :=
  ∃ id i : Nat, (s.sockets id).sent[i]? = some call ∧
    (s.sockets id).replies[i]? = some (.ok data)

/-- A failure after which bytes of the reply may still come. -/
inductive Failure.Spoils : Failure → Prop
  | timeout (n : Nat) : Spoils (.timeout n)
  | tooLarge (m : Nat) : Spoils (.tooLarge m)

/-- A call on this connection has timed out or was told a length over the limit. -/
def Spoiled (s : DebugIoClient) (id : Nat) : Prop :=
  ∃ call ∈ (s.sockets id).sent, ∃ why, (call, .error why) ∈ s.results ∧ why.Spoils

/-- The part of its reply that a stage has read. -/
def Stage.read : Stage → List Byte
  | .connecting => []
  | .status => []
  | .length => [RESPONSE_OK]
  | .data m => RESPONSE_OK :: u32be (BitVec.ofNat 32 m)

/-- The length field of a reply that is over the limit arrives with the next `n` bytes. -/
def TooLargeArrives (s : DebugIoClient) (id n : Nat) : Prop :=
  ∃ call stage data, s.running = some (call, stage) ∧
    (s.sockets id).replies.getLast? = some (.ok data) ∧ 65536 < data.length ∧
    5 ≤ stage.read.length + s.buf.length + ((s.sockets id).wire.take n).length

/-- No call is made on a connection on which one has timed out or was told a length over the
limit, and the events of an old connection come before there is a new one. -/
def Proper (s : DebugIoClient) : Event → Prop
  | .memRead _ _ => s.running = none → ∀ id, s.openSock = some id → ¬ Spoiled s id
  | .connected => s.waiters = []
  | .timeout => s.chain = [] ∨ s.openSock = none
  | .deliver id n => TooLargeArrives s id n → s.chain = []
  | .error id => s.sock = some id ∨ s.sock = none
  | .closed id => s.sock = some id ∨ s.sock = none
  | _ => True

end Condition

section Invariant

/-- Nothing of the replies of a connection is left. -/
structure Clean (s : DebugIoClient) (id : Nat) : Prop where
  buf : s.buf = []
  waiters : s.waiters = []
  wire : (s.sockets id).wire = []
  replies : (s.sockets id).replies.length = (s.sockets id).sent.length

/-- The running call is the last one written to the connection; what has been read of its
reply, what is in the buffer and what is still to arrive are its reply, if there is one. -/
structure Reading (s : DebugIoClient) (id : Nat) (call : Call) (stage : Stage) : Prop where
  sock : s.sock = some id
  waiters : s.waiters = [⟨stage.need, false⟩]
  short : s.buf.length < stage.need
  parts : ∃ earlier older reply, (s.sockets id).sent = earlier ++ [call] ∧
    (s.sockets id).replies = older ++ Option.toList reply ∧ older.length = earlier.length ∧
    stage.read ++ s.buf ++ (s.sockets id).wire = (reply.map Reply.encode).getD []

/-- No call is running. -/
structure Ended (s : DebugIoClient) : Prop where
  running : s.running = none
  stale : ∀ w ∈ s.waiters, w.timedOut = true
  clean : ∀ id, s.openSock = some id → ¬ Spoiled s id → Clean s id

inductive Phase (s : DebugIoClient) : Prop
  | idle (h : Ended s) (hchain : s.chain = [])
  | connecting (call : Call) (h : s.running = some (call, .connecting)) (hsock : s.sock = none)
      (hbuf : s.buf = []) (hstale : ∀ w ∈ s.waiters, w.timedOut = true)
  | reading (call : Call) (stage : Stage) (id : Nat) (h : s.running = some (call, stage))
      (hread : Reading s id call stage)

/-- Only the connection in use can be open, and every call that returned has its own reply. -/
structure Wires (s : DebugIoClient) : Prop where
  made : ∀ id, s.sock = some id → id < s.made
  one : ∀ id, id < s.made → (s.sockets id).destroyed = false → s.sock = some id
  unmade : ∀ id, s.made ≤ id → s.sockets id = {}
  own : ∀ call data, (call, .ok data) ∈ s.results → Answered s call data

structure Good (s : DebugIoClient) : Prop where
  wires : Wires s
  phase : Phase s

end Invariant

section Pieces

variable {s : DebugIoClient} {id n : Nat} {call : Call}

/-- What is asked for when nobody else waits. -/
theorem readExact_alone (h : s.waiters = []) :
    s.readExact n =
      if n ≤ s.buf.length then (some (s.buf.take n), { s with buf := s.buf.drop n })
      else (none, { s with waiters := [⟨n, false⟩] }) := by
  cases s with
  | mk sock buf waiters chain running calls results made sockets =>
      cases h
      simp only [DebugIoClient.readExact, List.nil_append, flushWaiters, Bool.false_eq_true,
        if_false]
      split_ifs <;> rfl

/-- Waiters that have timed out take bytes and give nobody any. -/
theorem flushWaiters_stale {waiters : List Waiter} (h : ∀ w ∈ waiters, w.timedOut = true)
    (buf : List Byte) :
    (flushWaiters waiters buf).1 = none ∧
      ∀ w ∈ (flushWaiters waiters buf).2.1, w.timedOut = true := by
  induction waiters generalizing buf with
  | nil => exact ⟨rfl, h⟩
  | cons w waiters ih =>
      rw [flushWaiters]
      split
      · dsimp only
        rw [if_pos (h w List.mem_cons_self)]
        exact ih (fun w hw => h w (List.mem_cons_of_mem _ hw)) _
      · exact ⟨rfl, h⟩

theorem u32At_u32be (n : BitVec 32) (t : List Byte) : u32At (u32be n ++ t) 0 = n :=
  DebugHost.u32At_be n [] t

/-- The stages read a reply from its start. -/
theorem encode_ok {data : List Byte} (h : data.length < 2 ^ 32) :
    (Reply.ok data).encode =
      RESPONSE_OK :: u32be (BitVec.ofNat 32 data.length) ++ data := if_pos h

/-- A reply is one byte that says no, or starts with the status and the length. -/
theorem encode_cases (reply : Reply) :
    reply.encode = [RESPONSE_NG] ∨
      ∃ data : List Byte, data.length < 2 ^ 32 ∧ reply = .ok data ∧
        reply.encode = RESPONSE_OK :: u32be (BitVec.ofNat 32 data.length) ++ data := by
  cases reply with
  | ng => exact .inl rfl
  | ok data =>
      by_cases h : data.length < 2 ^ 32
      · exact .inr ⟨data, h, rfl, encode_ok h⟩
      · exact .inl (if_neg h)

end Pieces

section Stages

variable {s s' : DebugIoClient} {arrived : Nat} {call : Call} {reply : Reply} {wire : List Byte}

/-- The running call has taken a piece of its reply, `arrived` bytes of which are there: it
waits for the next piece, or it ends, and then nothing of the reply is left unless its length is
over the limit. -/
inductive GoesOn (s : DebugIoClient) (call : Call) (reply : Reply) (wire : List Byte)
    (arrived : Nat) : DebugIoClient → Prop
  | reads (stage : Stage) (buf : List Byte) (hshort : buf.length < stage.need)
      (hbytes : stage.read ++ buf ++ wire = reply.encode) :
      GoesOn s call reply wire arrived
        { s with
          running := some (call, stage), waiters := [⟨stage.need, false⟩], buf := buf }
  | ends (result : Except Failure (List Byte))
      (hown : ∀ data, result = .ok data → reply = .ok data) (hwire : wire = []) :
      GoesOn s call reply wire arrived
        { s with running := none, buf := [], results := s.results ++ [(call, result)] }
  | refused (data buf : List Byte) (hreply : reply = .ok data) (hlarge : 65536 < data.length)
      (harrived : 5 ≤ arrived) :
      GoesOn s call reply wire arrived
        { s with
          running := none, buf := buf
          results := s.results ++ [(call, .error (.tooLarge data.length))] }

/-- It does not matter what was in the buffer. -/
theorem GoesOn.of_buf (buf : List Byte)
    (h : GoesOn { s with buf := buf } call reply wire arrived s') :
    GoesOn s call reply wire arrived s' := by
  cases h with
  | reads stage buf hshort hbytes => exact .reads stage buf hshort hbytes
  | ends result hown hwire => exact .ends result hown hwire
  | refused data buf hreply hlarge harrived => exact .refused data buf hreply hlarge harrived

theorem GoesOn.finish {result : Except Failure (List Byte)} (hbuf : s.buf = [])
    (hown : ∀ data, result = .ok data → reply = .ok data) (hwire : wire = []) :
    GoesOn s call reply wire arrived (s.finish call result) := by
  have h : GoesOn s call reply wire arrived
      { s with running := none, buf := [], results := s.results ++ [(call, result)] } :=
    .ends result hown hwire
  rw [← hbuf] at h
  exact h

theorem u32be_inj {m n : BitVec 32} (h : u32be m = u32be n) : m = n := by
  have hread := u32At_u32be m []
  rw [h, u32At_u32be] at hread
  exact hread.symm

/-- A reply with status OK and a length field. -/
theorem encode_eq_ok {n : BitVec 32} {rest : List Byte}
    (h : RESPONSE_OK :: u32be n ++ rest = reply.encode) :
    reply = .ok rest ∧ n = BitVec.ofNat 32 rest.length ∧ rest.length < 2 ^ 32 := by
  rcases encode_cases reply with hng | ⟨data, hdata, hreply, hok⟩
  · rw [hng] at h
    exact absurd (List.cons.inj h).1 (by decide)
  · rw [hok, List.cons_append, List.cons_append] at h
    obtain ⟨hlength, hrest⟩ := List.append_inj (List.cons.inj h).2 rfl
    subst hrest
    exact ⟨hreply, u32be_inj hlength, hdata⟩

theorem goesOn_data {m : Nat} {bytes : List Byte} (hlength : bytes.length = m)
    (hbytes : (Stage.data m).read ++ bytes ++ s.buf ++ wire = reply.encode) :
    GoesOn s call reply wire arrived (s.finish call (.ok bytes)) := by
  rw [List.append_assoc, List.append_assoc] at hbytes
  obtain ⟨hreply, hm, hlt⟩ := encode_eq_ok hbytes
  have hm' : m = (bytes ++ (s.buf ++ wire)).length := by
    have hle : m ≤ (bytes ++ (s.buf ++ wire)).length := by
      rw [List.length_append]
      omega
    have hnat := congrArg BitVec.toNat hm
    rw [BitVec.toNat_ofNat, BitVec.toNat_ofNat, Nat.mod_eq_of_lt hlt,
      Nat.mod_eq_of_lt (Nat.lt_of_le_of_lt hle hlt)] at hnat
    exact hnat
  have hrest : s.buf ++ wire = [] := by
    rw [List.length_append, hlength] at hm'
    exact List.eq_nil_of_length_eq_zero (by omega)
  rw [hrest, List.append_nil] at hreply
  obtain ⟨hbuf, hwire⟩ := List.append_eq_nil_iff.mp hrest
  refine GoesOn.finish hbuf (fun data hdata => ?_) hwire
  cases hdata
  exact hreply

theorem goesOn_length {lenBuf : List Byte} (hwait : s.waiters = []) (hlength : lenBuf.length = 4)
    (harrived : 5 ≤ arrived)
    (hbytes : Stage.length.read ++ lenBuf ++ s.buf ++ wire = reply.encode) :
    GoesOn s call reply wire arrived (s.onLength call lenBuf) := by
  rcases encode_cases reply with hng | ⟨data, hdata, hreply, hok⟩
  · rw [hng] at hbytes
    exact absurd (List.cons.inj hbytes).1 (by decide)
  · rw [hok, List.append_assoc, List.append_assoc] at hbytes
    have hcons : RESPONSE_OK :: (lenBuf ++ (s.buf ++ wire)) =
      RESPONSE_OK :: (u32be (BitVec.ofNat 32 data.length) ++ data) := hbytes
    obtain ⟨hlenBuf, hrest⟩ := List.append_inj (List.cons.inj hcons).2 hlength
    have hm : (u32At lenBuf 0).toNat = data.length := by
      have hread := u32At_u32be (BitVec.ofNat 32 data.length) []
      rw [List.append_nil, ← hlenBuf] at hread
      rw [hread, BitVec.toNat_ofNat, Nat.mod_eq_of_lt hdata]
    rw [DebugIoClient.onLength, hm]
    split_ifs with hlarge hzero
    · exact .refused data s.buf hreply hlarge harrived
    · have hnil : s.buf ++ wire = [] := by
        rw [hrest]
        exact List.eq_nil_of_length_eq_zero hzero
      obtain ⟨hbuf, hwire⟩ := List.append_eq_nil_iff.mp hnil
      refine GoesOn.finish hbuf (fun data' hdata' => ?_) hwire
      cases hdata'
      rw [hreply, List.eq_nil_of_length_eq_zero hzero]
    · rw [readExact_alone hwait]
      by_cases hthere : data.length ≤ s.buf.length
      · rw [if_pos hthere]
        dsimp only
        apply GoesOn.of_buf (s.buf.drop data.length)
        apply goesOn_data (m := data.length)
        · rw [List.length_take, Nat.min_eq_left hthere]
        · rw [hok, List.append_assoc (Stage.data data.length).read, List.take_append_drop,
            List.append_assoc, hrest]
          rfl
      · rw [if_neg hthere]
        apply GoesOn.reads (.data data.length) s.buf
        · exact Nat.lt_of_not_le hthere
        · rw [hok, List.append_assoc, hrest]
          rfl

theorem goesOn_status {st : List Byte} (hwait : s.waiters = []) (hlength : st.length = 1)
    (harrived : 1 + s.buf.length ≤ arrived) (hbytes : st ++ s.buf ++ wire = reply.encode) :
    GoesOn s call reply wire arrived (s.onStatus call st) := by
  obtain ⟨status, hst⟩ := List.length_eq_one_iff.mp hlength
  subst hst
  rw [List.append_assoc, List.singleton_append] at hbytes
  rw [DebugIoClient.onStatus]
  rcases encode_cases reply with hng | ⟨data, hdata, hreply, hok⟩
  · rw [hng] at hbytes
    obtain ⟨hstatus, hnil⟩ := List.cons.inj hbytes
    obtain ⟨hbuf, hwire⟩ := List.append_eq_nil_iff.mp hnil
    subst hstatus
    rw [if_pos (by decide)]
    exact GoesOn.finish hbuf nofun hwire
  · rw [hok] at hbytes
    obtain ⟨hstatus, hrest⟩ := List.cons.inj hbytes
    subst hstatus
    rw [if_neg (by decide), readExact_alone hwait]
    by_cases hthere : 4 ≤ s.buf.length
    · rw [if_pos hthere]
      dsimp only
      apply GoesOn.of_buf (s.buf.drop 4)
      apply goesOn_length (s := { s with buf := s.buf.drop 4 }) hwait
      · rw [List.length_take, Nat.min_eq_left hthere]
      · omega
      · rw [List.append_assoc Stage.length.read, List.take_append_drop, List.append_assoc, hrest,
          hok]
        rfl
    · rw [if_neg hthere]
      apply GoesOn.reads .length s.buf
      · exact Nat.lt_of_not_le hthere
      · rw [List.append_assoc, hrest, hok]
        rfl

/-- The running call goes on with the piece that it waited for. -/
theorem goesOn_resume {stage : Stage} {bytes : List Byte} (hwait : s.waiters = [])
    (hstage : 0 < stage.need) (hlength : bytes.length = stage.need)
    (harrived : stage.read.length + bytes.length + s.buf.length ≤ arrived)
    (hbytes : stage.read ++ bytes ++ s.buf ++ wire = reply.encode) :
    GoesOn s call reply wire arrived (s.resume call stage bytes) := by
  cases stage with
  | connecting => cases hstage
  | status =>
      apply goesOn_status hwait hlength _ hbytes
      rw [hlength] at harrived
      exact Nat.le_trans (Nat.le_of_eq (congrArg (· + _) (Nat.zero_add 1).symm)) harrived
  | length =>
      apply goesOn_length hwait hlength _ hbytes
      rw [hlength] at harrived
      exact Nat.le_trans (Nat.le_add_right _ _) harrived
  | data m => exact goesOn_data hlength hbytes

end Stages

section Sockets

variable {s s' : DebugIoClient} {id : Nat} {call : Call}

theorem openSock_eq_some : s.openSock = some id ↔
    s.sock = some id ∧ (s.sockets id).destroyed = false := by
  rw [DebugIoClient.openSock]
  cases s.sock with
  | none => exact ⟨nofun, nofun⟩
  | some id' =>
      dsimp only
      split_ifs with hdestroyed
      · refine ⟨nofun, fun h => ?_⟩
        rw [← Option.some.inj h.1, hdestroyed] at h
        exact absurd h.2 nofun
      · constructor
        · rintro h
          cases h
          exact ⟨rfl, Bool.eq_false_iff.mpr hdestroyed⟩
        · exact fun h => h.1

theorem openSock_none (h : s.sock = none) : s.openSock = none := by
  rw [DebugIoClient.openSock, h]

/-- The client itself has changed, and its results by such as are answered. -/
theorem Wires.client (h : Wires s) (hsock : s'.sock = s.sock) (hmade : s'.made = s.made)
    (hsockets : s'.sockets = s.sockets)
    (hresults : ∀ call data, (call, .ok data) ∈ s'.results →
      (call, .ok data) ∈ s.results ∨ Answered s call data) : Wires s' := by
  refine ⟨?_, ?_, ?_, ?_⟩
  · rw [hsock, hmade]
    exact h.made
  · rw [hsock, hmade, hsockets]
    exact h.one
  · rw [hmade, hsockets]
    exact h.unmade
  · intro call data hmem
    have hanswered : Answered s call data := by
      rcases hresults call data hmem with hold | hnew
      · exact h.own call data hold
      · exact hnew
    rw [Answered, hsockets]
    exact hanswered

theorem getElem?_append_of_some {α : Type} {l l' : List α} {i : Nat} {x : α} (h : l <+: l')
    (hx : l[i]? = some x) : l'[i]? = some x := by
  obtain ⟨t, rfl⟩ := h
  obtain ⟨hi, _⟩ := List.getElem?_eq_some_iff.mp hx
  rw [List.getElem?_append_left hi, hx]

theorem sockets_update (f : Socket → Socket) :
    (s.updateSocket id f).sockets id = f (s.sockets id) := Function.update_self _ _ _

theorem sockets_update_ne {other : Nat} (f : Socket → Socket) (h : other ≠ id) :
    (s.updateSocket id f).sockets other = s.sockets other := Function.update_of_ne h _ _

/-- A connection is written to, answered, read or destroyed. -/
theorem Wires.update (h : Wires s) (hid : id < s.made) {f : Socket → Socket}
    (hsent : (s.sockets id).sent <+: (f (s.sockets id)).sent)
    (hreplies : (s.sockets id).replies <+: (f (s.sockets id)).replies)
    (hopen : (f (s.sockets id)).destroyed = false → (s.sockets id).destroyed = false) :
    Wires (s.updateSocket id f) := by
  refine ⟨h.made, ?_, ?_, ?_⟩
  · intro other hother hdestroyed
    by_cases heq : other = id
    · subst heq
      rw [sockets_update] at hdestroyed
      exact h.one other hother (hopen hdestroyed)
    · rw [sockets_update_ne f heq] at hdestroyed
      exact h.one other hother hdestroyed
  · intro other hother
    have hne : other ≠ id := fun heq => Nat.not_le_of_lt hid (heq ▸ hother)
    rw [sockets_update_ne f hne]
    exact h.unmade other hother
  · intro call data hmem
    obtain ⟨other, i, hcall, hreply⟩ := h.own call data hmem
    refine ⟨other, i, ?_⟩
    by_cases heq : other = id
    · subst heq
      rw [sockets_update]
      exact ⟨getElem?_append_of_some hsent hcall, getElem?_append_of_some hreplies hreply⟩
    · rw [sockets_update_ne f heq]
      exact ⟨hcall, hreply⟩

/-- A connection that is not open is given up. -/
theorem Wires.giveUp (h : Wires s) (hopen : s.openSock = none) : Wires { s with sock := none } := by
  refine ⟨nofun, ?_, h.unmade, h.own⟩
  intro id hid hdestroyed
  have hsome := openSock_eq_some.mpr ⟨h.one id hid hdestroyed, hdestroyed⟩
  rw [hopen] at hsome
  cases hsome

end Sockets

section Starts

variable {s s' : DebugIoClient} {id : Nat} {call : Call}

theorem drain_running (h : s.running.isSome) (chain : List Call) :
    DebugIoClient.drain chain s = { s with chain := chain } := by
  cases chain with
  | nil => rfl
  | cons call chain => rw [DebugIoClient.drain, if_pos h]

theorem go_running (h : s.running.isSome) : s.go = s := drain_running h s.chain

/-- On a connection with nothing left the request is written and its status waited for. -/
theorem good_request (call : Call) (hw : Wires s) (hsock : s.sock = some id) (h : Clean s id) :
    Wires (s.request call id) ∧ (s.request call id).running = some (call, .status) ∧
      Reading (s.request call id) id call .status := by
  have hread : (s.write call id).readExact 1 =
      (none, { s.write call id with waiters := [⟨1, false⟩] }) := by
    rw [readExact_alone (s := s.write call id) h.waiters, if_neg]
    have hbuf : (s.write call id).buf = [] := h.buf
    rw [hbuf]
    exact Nat.not_succ_le_zero 0
  have hrequest : s.request call id =
      { s.write call id with waiters := [⟨1, false⟩], running := some (call, .status) } := by
    rw [DebugIoClient.request, hread]
    rfl
  have hwritten : Wires (s.write call id) :=
    hw.update (hw.made id hsock) (List.prefix_append _ _) (List.prefix_refl _) fun hopen => hopen
  rw [hrequest]
  refine ⟨hwritten.client rfl rfl rfl fun _ _ hmem => .inl hmem, rfl, ⟨hsock, rfl, ?_, ?_⟩⟩
  · change s.buf.length < 1
    rw [h.buf]
    exact Nat.one_pos
  · have hself : (s.write call id).sockets id =
        { s.sockets id with
          sent := (s.sockets id).sent ++ [call]
          written := (s.sockets id).written ++
            encodeMemReadFrame call.byteAddr call.byteCount } := sockets_update _
    refine ⟨(s.sockets id).sent, (s.sockets id).replies, none, ?_, ?_, h.replies, ?_⟩
    · change ((s.write call id).sockets id).sent = _
      rw [hself]
    · change ((s.write call id).sockets id).replies = _ ++ []
      rw [hself, List.append_nil]
    · change [] ++ s.buf ++ ((s.write call id).sockets id).wire = []
      rw [hself, h.buf]
      exact h.wire

/-- A call has ended: the next one of the chain starts. -/
theorem good_go (hw : Wires s) (h : Ended s)
    (hnext : s.chain ≠ [] → ∀ id, s.openSock = some id → Clean s id) : Good s.go := by
  rw [DebugIoClient.go]
  cases hchain : s.chain with
  | nil =>
      have hsame : DebugIoClient.drain [] s = s := by
        rw [DebugIoClient.drain, ← hchain]
      rw [hsame]
      exact ⟨hw, .idle h hchain⟩
  | cons call chain =>
      rw [DebugIoClient.drain, if_neg (by rw [h.running]; exact nofun)]
      cases hopen : s.openSock with
      | none =>
          have hstart : s.start call =
              { s with sock := none, buf := [], running := some (call, .connecting) } := by
            rw [DebugIoClient.start, hopen]
          rw [hstart, drain_running rfl]
          exact ⟨(hw.giveUp hopen).client rfl rfl rfl fun _ _ hmem => .inl hmem,
            .connecting call rfl rfl rfl h.stale⟩
      | some id =>
          have hstart : s.start call = s.request call id := by
            rw [DebugIoClient.start, hopen]
          have hclean := hnext (by rw [hchain]; exact List.cons_ne_nil _ _) id hopen
          obtain ⟨hwires, hrunning, hread⟩ :=
            good_request call hw (openSock_eq_some.mp hopen).1 hclean
          rw [hstart, drain_running (by rw [hrunning]; rfl)]
          exact ⟨hwires.client rfl rfl rfl fun _ _ hmem => .inl hmem,
            .reading call .status id hrunning ⟨hread.sock, hread.waiters, hread.short, hread.parts⟩⟩

end Starts

section Steps

variable {s s' : DebugIoClient} {id n : Nat} {call : Call}

/-- A client whose phase does not look at the chain. -/
theorem Phase.running {call : Call} {stage : Stage} (h : Phase s)
    (hrun : s.running = some (call, stage)) :
    (stage = .connecting ∧ s.sock = none ∧ s.buf = [] ∧ ∀ w ∈ s.waiters, w.timedOut = true) ∨
      (0 < stage.need ∧ ∃ id, Reading s id call stage) := by
  cases h with
  | idle h _ =>
      rw [h.running] at hrun
      cases hrun
  | connecting call' h hsock hbuf hstale =>
      rw [h] at hrun
      cases hrun
      exact .inl ⟨rfl, hsock, hbuf, hstale⟩
  | reading call' stage' id h hread =>
      rw [h] at hrun
      cases hrun
      exact .inr ⟨Nat.lt_of_le_of_lt (Nat.zero_le _) hread.short, id, hread⟩

theorem Phase.not_running (h : Phase s) (hrun : s.running = none) : Ended s ∧ s.chain = [] := by
  cases h with
  | idle h hchain => exact ⟨h, hchain⟩
  | connecting call' h _ _ _ =>
      rw [h] at hrun
      cases hrun
  | reading call' stage' id h _ =>
      rw [h] at hrun
      cases hrun

/-- The running call goes on after a piece of its reply. -/
theorem good_goesOn {reply : Reply} {arrived : Nat} (hw : Wires s) (hsock : s.sock = some id)
    (hwait : s.waiters = [])
    (hparts : ∃ earlier older, (s.sockets id).sent = earlier ++ [call] ∧
      (s.sockets id).replies = older ++ [reply] ∧ older.length = earlier.length)
    (hnext : ∀ data, reply = .ok data → 65536 < data.length → 5 ≤ arrived → s.chain = [])
    (h : GoesOn s call reply (s.sockets id).wire arrived s') : Good s'.go := by
  obtain ⟨earlier, older, hsent, hreplies, hlength⟩ := hparts
  cases h with
  | reads stage buf hshort hbytes =>
      rw [go_running rfl]
      refine ⟨hw.client rfl rfl rfl fun _ _ hmem => .inl hmem, .reading call stage id rfl ?_⟩
      exact ⟨hsock, rfl, hshort, earlier, older, some reply, hsent, hreplies, hlength, hbytes⟩
  | ends result hown hwire =>
      have hclean : Clean
          { s with running := none, buf := [], results := s.results ++ [(call, result)] } id := by
        refine ⟨rfl, hwait, hwire, ?_⟩
        change (s.sockets id).replies.length = (s.sockets id).sent.length
        rw [hsent, hreplies, List.length_append, List.length_append, hlength]
        rfl
      have honly : ∀ other, DebugIoClient.openSock
          { s with running := none, buf := [], results := s.results ++ [(call, result)] } =
            some other → other = id := by
        intro other hopen
        exact Option.some.inj ((openSock_eq_some.mp hopen).1.symm.trans hsock)
      apply good_go
      · refine hw.client rfl rfl rfl fun call' data hmem => ?_
        rcases List.mem_append.mp hmem with hold | hnew
        · exact .inl hold
        · obtain ⟨hcall, hresult⟩ := Prod.mk.inj (List.mem_singleton.mp hnew)
          refine .inr ⟨id, earlier.length, ?_, ?_⟩
          · rw [hsent, hcall, List.getElem?_concat_length]
          · rw [hreplies, ← hlength, List.getElem?_concat_length, hown data hresult.symm]
      · refine ⟨rfl, ?_, fun other hopen _ => honly other hopen ▸ hclean⟩
        intro w hw
        rw [show DebugIoClient.waiters _ = [] from hwait] at hw
        cases hw
      · exact fun _ other hopen => honly other hopen ▸ hclean
  | refused data buf hreply hlarge harrived =>
      apply good_go
      · refine hw.client rfl rfl rfl fun call' data' hmem => ?_
        rcases List.mem_append.mp hmem with hold | hnew
        · exact .inl hold
        · cases (Prod.mk.inj (List.mem_singleton.mp hnew)).2
      · refine ⟨rfl, ?_, fun other hopen hspoiled => absurd ?_ hspoiled⟩
        · intro w hw
          rw [show DebugIoClient.waiters _ = [] from hwait] at hw
          cases hw
        · have hother := Option.some.inj ((openSock_eq_some.mp hopen).1.symm.trans hsock)
          subst hother
          refine ⟨call, ?_, .tooLarge data.length, ?_, .tooLarge _⟩
          · change call ∈ (s.sockets other).sent
            rw [hsent]
            exact List.mem_append_right _ List.mem_cons_self
          · exact List.mem_append_right _ List.mem_cons_self
      · exact fun hchain => absurd (hnext data hreply hlarge harrived) hchain

theorem good_memRead {byteAddr byteCount : BitVec 32} (h : Good s)
    (hproper : Proper s (.memRead byteAddr byteCount)) :
    Good (s.step (.memRead byteAddr byteCount)) := by
  obtain ⟨hw, hp⟩ := h
  cases hrun : s.running with
  | none =>
      obtain ⟨hended, _⟩ := hp.not_running hrun
      rw [DebugIoClient.step]
      apply good_go
      · exact hw.client rfl rfl rfl fun _ _ hmem => .inl hmem
      · exact ⟨hended.running, hended.stale, fun id hopen hspoiled => by
          obtain ⟨hbuf, hwaiters, hwire, hreplies⟩ := hended.clean id hopen hspoiled
          exact ⟨hbuf, hwaiters, hwire, hreplies⟩⟩
      · intro _ id hopen
        obtain ⟨hbuf, hwaiters, hwire, hreplies⟩ := hended.clean id hopen (hproper hrun id hopen)
        exact ⟨hbuf, hwaiters, hwire, hreplies⟩
  | some running =>
      rw [DebugIoClient.step, go_running (by dsimp only; rw [hrun]; rfl)]
      refine ⟨hw.client rfl rfl rfl fun _ _ hmem => .inl hmem, ?_⟩
      rcases hp.running hrun with ⟨hstage, hsock, hbuf, hstale⟩ | ⟨_, id, hread⟩
      · exact .connecting running.1 (hrun.trans (congrArg some (Prod.ext rfl hstage))) hsock hbuf
          hstale
      · exact .reading running.1 running.2 id hrun
          ⟨hread.sock, hread.waiters, hread.short, hread.parts⟩

theorem good_connected (h : Good s) (hproper : Proper s .connected) :
    Good (s.step .connected) := by
  obtain ⟨hw, hp⟩ := h
  rw [DebugIoClient.step]
  split
  · rename_i call hrun
    rcases hp.running hrun with ⟨_, hsock, hbuf, _⟩ | ⟨hneed, _⟩
    · have hunmade := hw.unmade s.made (Nat.le_refl _)
      have hclean : Clean { s with made := s.made + 1, sock := some s.made } s.made := by
        refine ⟨hbuf, hproper, ?_, ?_⟩
        · exact congrArg Socket.wire hunmade
        · exact congrArg (fun x : Socket => x.replies.length) hunmade |>.trans
            (congrArg (fun x : Socket => x.sent.length) hunmade).symm
      have hwires : Wires { s with made := s.made + 1, sock := some s.made } := by
        refine ⟨?_, ?_, ?_, hw.own⟩
        · intro id hid
          cases hid
          exact Nat.lt_succ_self _
        · intro id hid hdestroyed
          rcases Nat.lt_or_eq_of_le (Nat.le_of_lt_succ hid) with hlt | heq
          · have hsome := hw.one id hlt hdestroyed
            rw [hsock] at hsome
            cases hsome
          · exact congrArg some heq.symm
        · exact fun id hid => hw.unmade id (Nat.le_of_succ_le hid)
      obtain ⟨hwires', hrunning, hread⟩ := good_request call hwires rfl hclean
      rw [go_running (by rw [hrunning]; rfl)]
      exact ⟨hwires', .reading call .status s.made hrunning hread⟩
    · cases hneed
  · exact ⟨hw, hp⟩

theorem good_connectFailed (h : Good s) : Good (s.step .connectFailed) := by
  obtain ⟨hw, hp⟩ := h
  rw [DebugIoClient.step]
  split
  · rename_i call hrun
    rcases hp.running hrun with ⟨_, hsock, _, hstale⟩ | ⟨hneed, _⟩
    · have hnone : ∀ id, (s.finish call (.error .connect)).openSock ≠ some id := by
        intro id hopen
        rw [openSock_none (s := s.finish call (.error .connect)) hsock] at hopen
        cases hopen
      apply good_go
      · refine hw.client rfl rfl rfl fun call' data hmem => ?_
        rcases List.mem_append.mp hmem with hold | hnew
        · exact .inl hold
        · cases (Prod.mk.inj (List.mem_singleton.mp hnew)).2
      · exact ⟨rfl, hstale, fun id hopen => absurd hopen (hnone id)⟩
      · exact fun _ id hopen => absurd hopen (hnone id)
    · cases hneed
  · exact ⟨hw, hp⟩

theorem good_answer {reply : Reply} (h : Good s) : Good (s.step (.answer id reply)) := by
  obtain ⟨hw, hp⟩ := h
  rw [DebugIoClient.step]
  split
  · rename_i hid
    obtain ⟨hmade, hshort⟩ := hid
    let f : Socket → Socket := fun x =>
      { x with replies := x.replies ++ [reply], wire := x.wire ++ reply.encode }
    have hself : (s.updateSocket id f).sockets id = f (s.sockets id) := sockets_update f
    have hother : ∀ other, other ≠ id →
        (s.updateSocket id f).sockets other = s.sockets other :=
      fun other hne => sockets_update_ne f hne
    refine ⟨hw.update hmade (List.prefix_refl _) (List.prefix_append _ _) fun hopen => hopen, ?_⟩
    cases hrun : s.running with
    | none =>
        obtain ⟨hended, hchain⟩ := hp.not_running hrun
        refine .idle ⟨hrun, hended.stale, fun used hopen hspoiled => ?_⟩ hchain
        obtain ⟨hsock, hdestroyed⟩ := openSock_eq_some.mp hopen
        have hold : s.openSock = some used ∧ ¬ Spoiled s used := by
          by_cases heq : used = id
          · subst heq
            rw [hself] at hdestroyed
            rw [Spoiled, hself] at hspoiled
            exact ⟨openSock_eq_some.mpr ⟨hsock, hdestroyed⟩, hspoiled⟩
          · rw [hother used heq] at hdestroyed
            rw [Spoiled, hother used heq] at hspoiled
            exact ⟨openSock_eq_some.mpr ⟨hsock, hdestroyed⟩, hspoiled⟩
        obtain ⟨hbuf, hwaiters, hwire, hreplies⟩ := hended.clean used hold.1 hold.2
        have hne : used ≠ id := by
          rintro rfl
          rw [hreplies] at hshort
          exact Nat.lt_irrefl _ hshort
        rw [← hother used hne] at hwire hreplies
        exact ⟨hbuf, hwaiters, hwire, hreplies⟩
    | some running =>
        rcases hp.running hrun with ⟨hstage, hsock, hbuf, hstale⟩ | ⟨_, used, hread⟩
        · exact .connecting running.1 (hrun.trans (congrArg some (Prod.ext rfl hstage))) hsock hbuf
            hstale
        · refine .reading running.1 running.2 used hrun ⟨hread.sock, hread.waiters, hread.short, ?_⟩
          obtain ⟨earlier, older, given, hsent, hreplies, hlength, hbytes⟩ := hread.parts
          by_cases heq : used = id
          · subst heq
            rw [hself]
            cases given with
            | some given =>
                rw [hsent, hreplies, List.length_append, List.length_append, hlength] at hshort
                exact absurd hshort (Nat.lt_irrefl _)
            | none =>
                rw [Option.toList_none, List.append_nil] at hreplies
                have hnil : running.2.read ++ s.buf ++ (s.sockets used).wire = [] := hbytes
                obtain ⟨hread', hwire⟩ := List.append_eq_nil_iff.mp hnil
                refine ⟨earlier, older, some reply, hsent, ?_, hlength, ?_⟩
                · exact congrArg (· ++ [reply]) hreplies
                · change running.2.read ++ s.buf ++ ((s.sockets used).wire ++ reply.encode) =
                    reply.encode
                  rw [hread', hwire]
                  rfl
          · rw [hother used heq]
            exact ⟨earlier, older, given, hsent, hreplies, hlength, hbytes⟩
  · exact ⟨hw, hp⟩

theorem good_destroy (h : Good s) (hmade : id < s.made) : Good (s.destroy id) := by
  obtain ⟨hw, hp⟩ := h
  have hsame : ∀ other, ((s.destroy id).sockets other).sent = (s.sockets other).sent ∧
      ((s.destroy id).sockets other).replies = (s.sockets other).replies ∧
      ((s.destroy id).sockets other).wire = (s.sockets other).wire ∧
      (((s.destroy id).sockets other).destroyed = false →
        (s.sockets other).destroyed = false) := by
    intro other
    by_cases heq : other = id
    · subst heq
      rw [DebugIoClient.destroy, sockets_update]
      exact ⟨rfl, rfl, rfl, nofun⟩
    · rw [DebugIoClient.destroy, sockets_update_ne _ heq]
      exact ⟨rfl, rfl, rfl, fun hopen => hopen⟩
  refine ⟨hw.update hmade (List.prefix_refl _) (List.prefix_refl _) nofun, ?_⟩
  cases hrun : s.running with
  | none =>
      obtain ⟨hended, hchain⟩ := hp.not_running hrun
      refine .idle ⟨hrun, hended.stale, fun used hopen hspoiled => ?_⟩ hchain
      obtain ⟨hsent, hreplies, hwire, hdestroyed⟩ := hsame used
      obtain ⟨hsock, hopen'⟩ := openSock_eq_some.mp hopen
      rw [Spoiled, hsent] at hspoiled
      have hclean := hended.clean used (openSock_eq_some.mpr ⟨hsock, hdestroyed hopen'⟩) hspoiled
      refine ⟨hclean.buf, hclean.waiters, hwire.trans hclean.wire, ?_⟩
      rw [hsent, hreplies]
      exact hclean.replies
  | some running =>
      rcases hp.running hrun with ⟨hstage, hsock, hbuf, hstale⟩ | ⟨_, used, hread⟩
      · exact .connecting running.1 (hrun.trans (congrArg some (Prod.ext rfl hstage))) hsock hbuf
          hstale
      · refine .reading running.1 running.2 used hrun ⟨hread.sock, hread.waiters, hread.short, ?_⟩
        obtain ⟨hsent, hreplies, hwire, _⟩ := hsame used
        rw [hsent, hreplies, hwire]
        exact hread.parts

theorem good_lost (h : Good s) : Good (s.step (.lost id)) := by
  rw [DebugIoClient.step]
  split
  · rename_i hmade
    exact good_destroy h hmade
  · exact h

theorem good_timeout (h : Good s) (hproper : Proper s .timeout) : Good (s.step .timeout) := by
  obtain ⟨hw, hp⟩ := h
  rw [DebugIoClient.step, DebugIoClient.onTimeout]
  split
  · exact ⟨hw, hp⟩
  · exact ⟨hw, hp⟩
  · rename_i call stage hnot hrun
    rcases hp.running hrun with ⟨hstage, _⟩ | ⟨_, id, hread⟩
    · exact absurd hstage hnot
    · obtain ⟨earlier, older, reply, hsent, _⟩ := hread.parts
      apply good_go
      · refine hw.client rfl rfl rfl fun call' data hmem => ?_
        rcases List.mem_append.mp hmem with hold | hnew
        · exact .inl hold
        · cases (Prod.mk.inj (List.mem_singleton.mp hnew)).2
      · refine ⟨rfl, ?_, fun used hopen hspoiled => absurd ?_ hspoiled⟩
        · intro w hw
          obtain ⟨w', _, rfl⟩ := List.mem_map.mp hw
          rfl
        · have hused := Option.some.inj ((openSock_eq_some.mp hopen).1.symm.trans hread.sock)
          subst hused
          refine ⟨call, ?_, .timeout stage.need, ?_, .timeout _⟩
          · change call ∈ (s.sockets used).sent
            rw [hsent]
            exact List.mem_append_right _ List.mem_cons_self
          · exact List.mem_append_right _ List.mem_cons_self
      · intro hchain used hopen
        rcases hproper with hnone | hclosed
        · exact absurd hnone hchain
        · have hopen' : s.openSock = some used := hopen
          rw [hclosed] at hopen'
          cases hopen'

/-- The next call of the chain connects. -/
theorem good_go_closed (hw : Wires s) (hrun : s.running = none)
    (hstale : ∀ w ∈ s.waiters, w.timedOut = true) (hopen : s.openSock = none) : Good s.go := by
  have hnone : ∀ id, s.openSock ≠ some id := by
    intro id hsome
    rw [hopen] at hsome
    cases hsome
  exact good_go hw ⟨hrun, hstale, fun id hsome => absurd hsome (hnone id)⟩
    fun _ id hsome => absurd hsome (hnone id)

/-- All waiters are rejected when the connection is not open any more. -/
theorem good_failWaiters (h : Good s) (hopen : s.openSock = none) :
    Good s.failWaiters.go ∧ Good (DebugIoClient.go { s.failWaiters with sock := none }) := by
  obtain ⟨hw, hp⟩ := h
  cases hrun : s.running with
  | none =>
      have hfail : s.failWaiters = { s with waiters := [] } := by
        rw [DebugIoClient.failWaiters, hrun]
      rw [hfail]
      exact ⟨good_go_closed (hw.client rfl rfl rfl fun _ _ hmem => .inl hmem) hrun nofun hopen,
        good_go_closed ((hw.giveUp hopen).client rfl rfl rfl fun _ _ hmem => .inl hmem) hrun nofun
          (openSock_none rfl)⟩
  | some running =>
      obtain ⟨call, stage⟩ := running
      rcases hp.running hrun with ⟨hstage, hsock, hbuf, hstale⟩ | ⟨_, id, hread⟩
      · have hnot : ¬ s.waiters.any (fun w => !w.timedOut) = true := by
          intro hany
          obtain ⟨w, hmem, hlive⟩ := List.any_eq_true.mp hany
          rw [hstale w hmem] at hlive
          cases hlive
        have hfail : s.failWaiters = { s with waiters := [] } := by
          rw [DebugIoClient.failWaiters, hrun]
          exact if_neg hnot
        subst hstage
        rw [hfail, go_running (by rw [hrun]; rfl), go_running (by rw [hrun]; rfl)]
        exact ⟨⟨hw.client rfl rfl rfl fun _ _ hmem => .inl hmem,
            .connecting call hrun hsock hbuf nofun⟩,
          ⟨(hw.giveUp hopen).client rfl rfl rfl fun _ _ hmem => .inl hmem,
            .connecting call hrun rfl hbuf nofun⟩⟩
      · have hfail : s.failWaiters =
            { s with
              waiters := [], running := none
              results := s.results ++ [(call, .error .closed)] } := by
          rw [DebugIoClient.failWaiters, hrun]
          refine if_pos ?_
          rw [hread.waiters]
          rfl
        have hresults : ∀ call' data, (call', .ok data) ∈ s.results ++ [(call, .error .closed)] →
            (call', .ok data) ∈ s.results ∨ Answered s call' data := by
          intro call' data hmem
          rcases List.mem_append.mp hmem with hold | hnew
          · exact .inl hold
          · cases (Prod.mk.inj (List.mem_singleton.mp hnew)).2
        rw [hfail]
        exact ⟨good_go_closed (hw.client rfl rfl rfl hresults) rfl nofun hopen,
          good_go_closed ((hw.giveUp hopen).client rfl rfl rfl hresults) rfl nofun
            (openSock_none rfl)⟩

theorem openSock_destroy (h : s.sock = some id ∨ s.sock = none) :
    (s.destroy id).openSock = none := by
  rcases h with hsome | hnone
  · have hdestroyed : ((s.destroy id).sockets id).destroyed = true := by
      rw [DebugIoClient.destroy, sockets_update]
    rw [DebugIoClient.openSock, show (s.destroy id).sock = some id from hsome]
    exact if_pos hdestroyed
  · exact openSock_none hnone

theorem good_error (h : Good s) (hproper : Proper s (.error id)) : Good (s.step (.error id)) := by
  rw [DebugIoClient.step]
  split
  · rename_i hmade
    exact (good_failWaiters (good_destroy h hmade) (openSock_destroy hproper)).1
  · exact h

theorem good_closed (h : Good s) (hproper : Proper s (.closed id)) :
    Good (s.step (.closed id)) := by
  rw [DebugIoClient.step]
  split
  · rename_i hmade
    exact (good_failWaiters (good_destroy h hmade) (openSock_destroy hproper)).2
  · exact h

theorem good_close (h : Good s) : Good (s.step .close) := by
  rw [DebugIoClient.step]
  split
  · rename_i hsock
    exact (good_failWaiters h (openSock_none hsock)).1
  · rename_i id hsock
    exact (good_failWaiters (good_destroy h (h.wires.made id hsock))
      (openSock_destroy (.inl hsock))).2

theorem flushWaiters_one (need : Nat) (buf : List Byte) :
    flushWaiters [⟨need, false⟩] buf =
      if need ≤ buf.length then (some (buf.take need), [], buf.drop need)
      else (none, [⟨need, false⟩], buf) := by
  simp only [flushWaiters, Bool.false_eq_true, if_false]

/-- A client that has received some bytes and given them to its waiters. -/
def received (s : DebugIoClient) (id n : Nat) (waiters : List Waiter) (buf : List Byte) :
    DebugIoClient :=
  { s.updateSocket id fun x => { x with wire := x.wire.drop n } with
    waiters := waiters, buf := buf }

theorem sockets_received {waiters : List Waiter} {buf : List Byte} :
    (received s id n waiters buf).sockets id =
      { s.sockets id with wire := (s.sockets id).wire.drop n } := Function.update_self _ _ _

theorem onChunk_waits {waiters : List Waiter} {buf : List Byte}
    (h : flushWaiters s.waiters (s.buf ++ (s.sockets id).wire.take n) = (none, waiters, buf)) :
    s.onChunk id n = received s id n waiters buf := by
  rw [DebugIoClient.onChunk, h]
  cases s.running <;> rfl

theorem onChunk_resumes {waiters : List Waiter} {bytes buf : List Byte} {stage : Stage}
    (h : flushWaiters s.waiters (s.buf ++ (s.sockets id).wire.take n) =
      (some bytes, waiters, buf))
    (hrun : s.running = some (call, stage)) :
    s.onChunk id n = ((received s id n waiters buf).resume call stage bytes).go := by
  rw [DebugIoClient.onChunk, h, hrun]
  rfl

theorem Wires.received {waiters : List Waiter} {buf : List Byte} (h : Wires s)
    (hmade : id < s.made) : Wires (received s id n waiters buf) :=
  (h.update (f := fun x => { x with wire := x.wire.drop n }) hmade (List.prefix_refl _)
    (List.prefix_refl _) fun hopen => hopen).client rfl rfl rfl fun _ _ hmem => .inl hmem

/-- Bytes arrive for the piece that the running call waits for. -/
theorem good_chunk {stage : Stage} (hw : Wires s) (hmade : id < s.made)
    (hrun : s.running = some (call, stage)) (hread : Reading s id call stage)
    (hproper : Proper s (.deliver id n)) : Good (s.onChunk id n) := by
  obtain ⟨earlier, older, given, hsent, hreplies, hlength, hbytes⟩ := hread.parts
  have hwire : s.buf ++ (s.sockets id).wire.take n ++ (s.sockets id).wire.drop n =
      s.buf ++ (s.sockets id).wire := by
    rw [List.append_assoc, List.take_append_drop]
  have hflush := flushWaiters_one stage.need (s.buf ++ (s.sockets id).wire.take n)
  rw [← hread.waiters] at hflush
  by_cases henough : stage.need ≤ (s.buf ++ (s.sockets id).wire.take n).length
  · rw [if_pos henough] at hflush
    rw [onChunk_resumes hflush hrun]
    cases given with
    | none =>
        have hnil : stage.read ++ s.buf ++ (s.sockets id).wire = [] := hbytes
        rw [List.append_assoc, ← hwire] at hnil
        obtain ⟨hthere, _⟩ := List.append_eq_nil_iff.mp (List.append_eq_nil_iff.mp hnil).2
        rw [hthere] at henough
        exact absurd (Nat.lt_of_le_of_lt (Nat.zero_le _) hread.short) (Nat.not_lt_of_le henough)
    | some reply =>
        have hparts : stage.read ++ s.buf ++ (s.sockets id).wire = reply.encode := hbytes
        let rest := (s.buf ++ (s.sockets id).wire.take n).drop stage.need
        let bytes := (s.buf ++ (s.sockets id).wire.take n).take stage.need
        have hsplit : bytes ++ rest = s.buf ++ (s.sockets id).wire.take n :=
          List.take_append_drop _ _
        have hgoes : GoesOn (received s id n [] rest) call reply
            ((received s id n [] rest).sockets id).wire
            (stage.read.length + s.buf.length + ((s.sockets id).wire.take n).length)
            ((received s id n [] rest).resume call stage bytes) := by
          apply goesOn_resume rfl (Nat.lt_of_le_of_lt (Nat.zero_le _) hread.short)
          · exact List.length_take.trans (Nat.min_eq_left henough)
          · change stage.read.length + bytes.length + rest.length ≤ _
            rw [Nat.add_assoc, ← List.length_append, hsplit, List.length_append, ← Nat.add_assoc]
          · rw [sockets_received, ← hparts]
            change stage.read ++ bytes ++ rest ++ (s.sockets id).wire.drop n = _
            rw [List.append_assoc stage.read, hsplit, List.append_assoc, hwire, List.append_assoc]
        apply good_goesOn (hw.received hmade) hread.sock rfl _ _ hgoes
        · rw [sockets_received]
          exact ⟨earlier, older, hsent, hreplies, hlength⟩
        · intro data hreply hlarge harrived
          refine hproper ⟨call, stage, data, hrun, ?_, hlarge, harrived⟩
          rw [hreplies, ← hreply]
          exact List.getLast?_concat
  · rw [if_neg henough] at hflush
    rw [onChunk_waits hflush]
    refine ⟨hw.received hmade, .reading call stage id hrun ⟨hread.sock, hread.waiters, ?_, ?_⟩⟩
    · exact Nat.lt_of_not_le henough
    · rw [sockets_received]
      refine ⟨earlier, older, given, hsent, hreplies, hlength, ?_⟩
      change stage.read ++ (s.buf ++ (s.sockets id).wire.take n) ++ (s.sockets id).wire.drop n = _
      rw [List.append_assoc, hwire, ← List.append_assoc]
      exact hbytes

/-- Bytes arrive on the connection in use. -/
theorem good_deliver (h : Good s) (hproper : Proper s (.deliver id n)) :
    Good (s.step (.deliver id n)) := by
  obtain ⟨hw, hp⟩ := h
  rw [DebugIoClient.step]
  split
  · rename_i hid
    obtain ⟨hmade, hdestroyed⟩ := hid
    have hsock := hw.one id hmade hdestroyed
    cases hrun : s.running with
    | some running =>
        rcases hp.running hrun with ⟨_, hnone, _⟩ | ⟨_, used, hread⟩
        · rw [hsock] at hnone
          cases hnone
        · have hused := Option.some.inj (hread.sock.symm.trans hsock)
          subst hused
          exact good_chunk hw hmade hrun hread hproper
    | none =>
        obtain ⟨hended, hchain⟩ := hp.not_running hrun
        obtain ⟨hnone, hstale⟩ :=
          flushWaiters_stale hended.stale (s.buf ++ (s.sockets id).wire.take n)
        rw [onChunk_waits (Prod.ext hnone rfl)]
        refine ⟨hw.received hmade, .idle ⟨hrun, hstale, fun used hopen hspoiled => ?_⟩ hchain⟩
        have hused := Option.some.inj ((openSock_eq_some.mp hopen).1.symm.trans hsock)
        subst hused
        rw [Spoiled, sockets_received] at hspoiled
        obtain ⟨hbuf, hwaiters, hwire, hreplies⟩ :=
          hended.clean used (openSock_eq_some.mpr ⟨hsock, hdestroyed⟩) hspoiled
        have hflush : flushWaiters s.waiters (s.buf ++ (s.sockets used).wire.take n) =
            (none, [], []) := by
          rw [hbuf, hwaiters, hwire, List.take_nil]
          rfl
        refine ⟨?_, ?_, ?_, ?_⟩
        · exact congrArg (·.2.2) hflush
        · exact congrArg (·.2.1) hflush
        · rw [sockets_received]
          exact (congrArg (List.drop n) hwire).trans List.drop_nil
        · rw [sockets_received]
          exact hreplies
  · exact ⟨hw, hp⟩

/-- One proper event. -/
theorem good_step {event : DebugIoClient.Event} (h : Good s) (hproper : Proper s event) :
    Good (s.step event) := by
  cases event with
  | memRead byteAddr byteCount => exact good_memRead h hproper
  | connected => exact good_connected h hproper
  | connectFailed => exact good_connectFailed h
  | answer id reply => exact good_answer h
  | deliver id n => exact good_deliver h hproper
  | timeout => exact good_timeout h hproper
  | lost id => exact good_lost h
  | error id => exact good_error h hproper
  | closed id => exact good_closed h hproper
  | close => exact good_close h

end Steps

section Runs

open DebugIoClient (Event step)

theorem good_init : Good {} where
  wires := ⟨nofun, fun _ h => absurd h (Nat.not_lt_zero _), fun _ _ => rfl, fun _ _ h => by cases h⟩
  phase := .idle ⟨rfl, nofun, nofun⟩ rfl

/-- In a run whose events are proper, whatever the host answers and however its bytes are cut,
a call that returns has the data of the reply to its own request. -/
theorem returns_own_reply {events : List Event} (h : Always step Proper {} events) :
    ∀ call data, (call, .ok data) ∈ (after step {} events).results →
      Answered (after step {} events) call data :=
  have hgood : Good (after step {} events) :=
    h.after good_init fun _ _ hgood hproper => good_step hgood hproper
  hgood.wires.own

/-- A call times out, the connection is closed, and the next call returns its reply. -/
theorem returns_after_timeout :
    let events : List Event :=
      [.memRead 0 2, .connected, .timeout, .close, .closed 0, .memRead 2 2, .connected,
        .answer 1 (.ok [1, 2]), .deliver 1 7]
    (⟨1, 2, 2⟩, .ok [1, 2]) ∈ (after step {} events).results ∧
      Answered (after step {} events) ⟨1, 2, 2⟩ [1, 2] := by
  intro events
  have hproper : Always step Proper {} events :=
    ⟨fun _ => nofun, rfl, .inl rfl, trivial, .inr rfl, fun _ => nofun, rfl, trivial,
      fun _ => rfl, trivial⟩
  have hmem : ((⟨1, 2, 2⟩, .ok [1, 2]) : Call × Except Failure (List Byte)) ∈
      (after step {} events).results := List.mem_cons_of_mem _ List.mem_cons_self
  exact ⟨hmem, returns_own_reply hproper _ _ hmem⟩

/-- Six bytes are read; their status arrives, the rest is late.  Then one byte is read. -/
def lateReply : List Event :=
  [.memRead 0 6, .connected, .answer 0 (.ok [0, 0, 0, 0, 1, 42]), .deliver 0 1, .timeout,
    .memRead 6 1, .deliver 0 10, .answer 0 (.ok [9])]

/-- The second call returns bytes of the first one's data. -/
theorem mixed_after_timeout :
    (⟨1, 6, 1⟩, .ok [42]) ∈ (after step {} lateReply).results ∧
      ¬ Answered (after step {} lateReply) ⟨1, 6, 1⟩ [42] := by
  refine ⟨List.mem_cons_of_mem _ List.mem_cons_self, ?_⟩
  rintro ⟨id, i, hcall, hreply⟩
  have hreplies : ∀ id, .ok [42] ∉ ((after step {} lateReply).sockets id).replies := by
    intro id
    cases id with
    | zero => decide
    | succ id => exact List.not_mem_nil
  exact hreplies id (List.mem_of_getElem? hreply)

end Runs

end DebugExpand
end RetroCpu
