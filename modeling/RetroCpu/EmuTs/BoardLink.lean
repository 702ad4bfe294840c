import RetroCpu.EmuTs.DebugHost

/-!
# The way of a debug address over the board link

`worker.ts` hands the requests of the debugger to `BoardLinkClient`, and `cpu_board_link.ts`
hands them on to the handshake agent.  Each side has its own idea of the address in the
message: the worker sends a word address for every CPU, the CPU side takes it for a byte
address on a TMS9995.
-/

namespace RetroCpu
namespace BoardLink

open Handshake

section Messages

/-- `CPU_TYPE` -/
inductive CpuType
  | mn1613
  | tms9995
deriving DecidableEq, Repr

/-- The `hshk` messages of `BoardLinkRequest` that come from the debugger. -/
inductive Request
  | memRead (wordAddr byteCount : BitVec 32)
  | memWrite (wordAddr : BitVec 32) (data : List Byte)
  | addrBreakSet (payload : List Byte)
  | addrBreakClr (slot : Byte)
deriving DecidableEq, Repr

/-- `BoardLinkClient.memReadBytes` -/
def memReadBytes (wordAddr byteCount : BitVec 32) : Request := .memRead wordAddr byteCount

/-- `BoardLinkClient.memWriteBytes` -/
def memWriteBytes (wordAddr : BitVec 32) (data : List Byte) : Request := .memWrite wordAddr data

/-- The handlers of `startDebugHost` -/
def startDebugHost : DebugHost.Call → Option Request
  | .reply _ => none
  | .addrBreakSet payload => some (.addrBreakSet payload)
  | .addrBreakClr slot => some (.addrBreakClr slot)
  | .memRead byteAddr byteCount => some (memReadBytes (byteAddr >>> 1) byteCount)
  | .memWrite byteAddr data => some (memWriteBytes (byteAddr >>> 1) data)

/-- A call of the handshake agent. -/
inductive AgentCall
  | memRead (byteAddr : Nat) (byteCount : BitVec 32)
  | memWrite (byteAddr : Nat) (data : List Byte)
  | addrBreakSet (payload : List Byte)
  | addrBreakClr (slot : Byte)
deriving DecidableEq, Repr

/-- `panelAddrToByteAddr` -/
def panelAddrToByteAddr (cpuType : CpuType) (panelAddr : BitVec 32) : Nat :=
  match cpuType with
  | .tms9995 => panelAddr.toNat
  | .mn1613 => panelAddr.toNat * 2

/-- `handleHshk`, with an agent attached -/
def handleHshk (cpuType : CpuType) : Request → AgentCall
  | .memRead wordAddr byteCount => .memRead (panelAddrToByteAddr cpuType wordAddr) byteCount
  | .memWrite wordAddr data => .memWrite (panelAddrToByteAddr cpuType wordAddr) data
  | .addrBreakSet payload => .addrBreakSet payload
  | .addrBreakClr slot => .addrBreakClr slot

end Messages

section Memory

/-- The memory of the CPU board, by byte address. -/
abbrev Memory := Nat → Byte

/-- The `n` bytes from an address on. -/
def bytesAt (mem : Memory) (a n : Nat) : List Byte := (List.range n).map fun i => mem (a + i)

/-- Bytes stored from an address on. -/
def storeAt (mem : Memory) (a : Nat) (data : List Byte) : Memory := fun x =>
  if a ≤ x then data.getD (x - a) (mem x) else mem x

/-- The bytes that a call reads. -/
def AgentCall.reads (mem : Memory) : AgentCall → List Byte
  | .memRead byteAddr byteCount => bytesAt mem byteAddr byteCount.toNat
  | _ => []

/-- The memory behind a call. -/
def AgentCall.writes (mem : Memory) : AgentCall → Memory
  | .memWrite byteAddr data => storeAt mem byteAddr data
  | _ => mem

/-- What a call of `DebugHost` becomes at the agent. -/
def linked (cpuType : CpuType) (call : DebugHost.Call) : Option AgentCall :=
  (startDebugHost call).map (handleHshk cpuType)

/-- The `n` bytes at `a` are those that the debugger reads and writes at `a`. -/
structure ReachesOwnBytes (cpuType : CpuType) (a n : BitVec 32) : Prop where
  read : ∀ mem, (linked cpuType (.memRead a n)).map (AgentCall.reads mem) =
    some (bytesAt mem a.toNat n.toNat)
  write : ∀ mem data, data.length = n.toNat →
    (linked cpuType (.memWrite a data)).map (AgentCall.writes mem) =
      some (storeAt mem a.toNat data)

end Memory

section Addresses

variable {cpuType : CpuType} {a n : BitVec 32} {mem : Memory}

/-- The address that the two sides make of a byte address. -/
def linkedAddr (cpuType : CpuType) (a : BitVec 32) : Nat := panelAddrToByteAddr cpuType (a >>> 1)

theorem toNat_half (a : BitVec 32) : (a >>> 1).toNat = a.toNat / 2 := by
  rw [BitVec.toNat_ushiftRight, Nat.shiftRight_eq_div_pow, Nat.pow_one]

theorem linkedAddr_le (cpuType : CpuType) (a : BitVec 32) : linkedAddr cpuType a ≤ a.toNat := by
  cases cpuType with
  | mn1613 =>
      rw [linkedAddr, panelAddrToByteAddr, toNat_half]
      omega
  | tms9995 =>
      rw [linkedAddr, panelAddrToByteAddr, toNat_half]
      omega

/-- The byte addresses that come through: the even ones on an MN1613, only 0 on a TMS9995. -/
def Kept : CpuType → BitVec 32 → Prop
  | .mn1613, a => a.toNat % 2 = 0
  | .tms9995, a => a = 0

theorem linkedAddr_eq_iff (cpuType : CpuType) (a : BitVec 32) :
    linkedAddr cpuType a = a.toNat ↔ Kept cpuType a := by
  cases cpuType with
  | mn1613 =>
      rw [linkedAddr, panelAddrToByteAddr, toNat_half, Kept]
      omega
  | tms9995 =>
      rw [linkedAddr, panelAddrToByteAddr, toNat_half, Kept, ← BitVec.toNat_inj]
      change a.toNat / 2 = a.toNat ↔ a.toNat = 0
      omega

theorem storeAt_nil (mem : Memory) (a : Nat) : storeAt mem a [] = mem := by
  funext x
  rw [storeAt, List.getD_nil, ite_self]

/-- A byte that only one of two addresses has at its front is read differently. -/
theorem eq_of_bytesAt {a b n : Nat} (hn : 0 < n)
    (h : ∀ mem, bytesAt mem a n = bytesAt mem b n) : a = b := by
  obtain ⟨k, rfl⟩ : ∃ k, n = k + 1 := ⟨n - 1, by omega⟩
  have hhead := congrArg List.head? (h fun x => if x = b then 1 else 0)
  rw [bytesAt, bytesAt, List.range_succ_eq_map, List.map_cons, List.map_cons, List.head?_cons,
    List.head?_cons, Nat.add_zero, Nat.add_zero, if_pos rfl, Option.some.injEq] at hhead
  by_cases hab : a = b
  · exact hab
  · rw [if_neg hab] at hhead
    cases hhead

/-- Debug addresses survive the board link where both sides agree on the unit. -/
theorem reachesOwnBytes_iff (cpuType : CpuType) (a n : BitVec 32) :
    ReachesOwnBytes cpuType a n ↔ n = 0 ∨ Kept cpuType a := by
  rw [← linkedAddr_eq_iff]
  constructor
  · intro h
    by_cases hn : n = 0
    · exact .inl hn
    · refine .inr (eq_of_bytesAt (n := n.toNat) ?_ fun mem => ?_)
      · have hne : n.toNat ≠ 0 := fun hzero => hn (BitVec.eq_of_toNat_eq hzero)
        omega
      · exact Option.some.inj (h.read mem)
  · rintro (rfl | haddr)
    · refine ⟨fun mem => rfl, fun mem data hlen => ?_⟩
      have hnil : data = [] := List.eq_nil_of_length_eq_zero hlen
      rw [hnil, storeAt_nil]
      exact congrArg some (storeAt_nil mem _)
    · refine ⟨fun mem => ?_, fun mem data _ => ?_⟩
      · exact congrArg (fun b => some (bytesAt mem b n.toNat)) haddr
      · exact congrArg (fun b => some (storeAt mem b data)) haddr

/-- On a TMS9995 a read of one byte at address 2 is a read at address 1. -/
theorem not_reachesOwnBytes :
    ¬ ∀ cpuType a n, ReachesOwnBytes cpuType a n := by
  intro hall
  rcases (reachesOwnBytes_iff .tms9995 2 1).mp (hall _ _ _) with hn | ha
  · exact absurd hn (by decide)
  · exact absurd ha (by rw [Kept]; decide)

end Addresses

end BoardLink
end RetroCpu
