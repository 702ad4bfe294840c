import RetroCpu.BootMonitor.Mn1613

/-!
# The handshake routines of the TMS9995 monitor (`handshake_common.asm`)

The lines are single bits of the CRU.  `LDCR` and `STCR` move a byte between a half of a
workspace register and the data lines; the two cores disagree about the half.
-/

namespace RetroCpu
namespace BootMonitor
namespace Tms9995

open Interleave Handshake

section State

/-- The half of a workspace register that a byte operation uses. -/
inductive ByteHalf
  /-- `readByteEa` of `addressing.ts` -/
  | left
  /-- `read_byte_ea` of `core.rs` -/
  | right
deriving DecidableEq, Repr

def ByteHalf.read (half : ByteHalf) (r : Word) : Byte :=
  match half with
  | .left => (r >>> 8).setWidth 8
  | .right => r.setWidth 8

def ByteHalf.write (half : ByteHalf) (r : Word) (b : Byte) : Word :=
  match half with
  | .left => b.setWidth 16 <<< 8 ||| r &&& 0x00ff
  | .right => r &&& 0xff00 ||| b.setWidth 16

structure Cpu where
  R0 : Word := 0
  R1 : Word := 0
  R2 : Word := 0
  R3 : Word := 0
  /-- `GL_HSHK_PAIR` -/
  pair : Word := 0

abbrev M := StateT Cpu (Prog Bus Unit)

/-- `SBO` and `SBZ` -/
def setBit (f : Bus → Bus) : M Unit := fun c => .access f fun _ => .done ((), c)

variable (half : ByteHalf)

/-- `LDCR R3, #8` to the data lines -/
def ldcrR3 : M Unit := fun c =>
  .access (fun bus => { bus with HSHK_OUT_DATA := half.read c.R3 }) fun _ => .done ((), c)

/-- `STCR R3, #8` from the data lines -/
def stcrR3 : M Unit := fun c =>
  .access id fun bus => .done ((), { c with R3 := half.write c.R3 bus.HSHK_IN_DATA })

def HSHK_OK : Word := 0
def HSHK_NG : Word := 1
def HSHK_PAIR_RECV : Word := 1
def HSHK_PAIR_SEND : Word := 2

/-- A loop that tests a bit of the CRU. -/
def pollBit (line : Bus → Bool) : M Unit := fun c =>
  .wait () line fun
    | some left => .done ((), { c with R0 := BitVec.ofNat 16 left, R2 := HSHK_OK })
    | none => .done ((), { c with R0 := 0, R2 := HSHK_NG })

end State

section Routines

variable (half : ByteHalf)

def g_hshk_initiate_send : M Unit := do
  modify fun c => { c with R0 := 0, pair := 0 }
  setBit fun bus => { bus with HSHK_OUT_DENA := false }
  setBit fun bus => { bus with HSHK_OUT_REQ := true }
  modify fun c => { c with R2 := HSHK_OK }

def l_hshk_send_fail : M Unit := do
  setBit fun bus => { bus with HSHK_OUT_REQ := false }
  setBit fun bus => { bus with HSHK_OUT_DENA := false }
  modify fun c => { c with R0 := 0, pair := 0, R2 := HSHK_NG }

def l_hshk_send_phase1 : M Unit := do
  ldcrR3 half
  setBit fun bus => { bus with HSHK_OUT_DENA := true }
  pollBit fun bus => bus.HSHK_OUT_DACK
  if (← get).R2 ≠ HSHK_OK then l_hshk_send_fail
  else do
    modify fun c => { c with R1 := c.pair ||| HSHK_PAIR_SEND }
    modify fun c => { c with pair := c.R1, R2 := HSHK_OK }

def l_hshk_send_phase2 : M Unit := do
  ldcrR3 half
  setBit fun bus => { bus with HSHK_OUT_DENA := false }
  pollBit fun bus => !bus.HSHK_OUT_DACK
  if (← get).R2 ≠ HSHK_OK then l_hshk_send_fail
  else do
    modify fun c => { c with R1 := c.pair &&& HSHK_PAIR_RECV }
    modify fun c => { c with pair := c.R1, R2 := HSHK_OK }

/-- The byte is in `R2`. -/
def g_hshk_send_byte : M Unit := do
  modify fun c => { c with R3 := c.R2 }
  modify fun c => { c with R1 := c.pair &&& HSHK_PAIR_SEND }
  if (← get).R1 ≠ 0 then l_hshk_send_phase2 half else l_hshk_send_phase1 half

def g_hshk_finalize_send : M Unit := do
  modify fun c => { c with R1 := c.pair &&& HSHK_PAIR_SEND }
  if (← get).R1 = 0 then do
    setBit fun bus => { bus with HSHK_OUT_REQ := false }
    modify fun c => { c with R2 := HSHK_OK }
  else do
    modify fun c => { c with R3 := 0 }
    ldcrR3 half
    setBit fun bus => { bus with HSHK_OUT_DENA := false }
    pollBit fun bus => !bus.HSHK_OUT_DACK
    if (← get).R2 ≠ HSHK_OK then do
      setBit fun bus => { bus with HSHK_OUT_REQ := false }
      modify fun c => { c with R2 := HSHK_NG }
    else do
      modify fun c => { c with R1 := c.pair &&& HSHK_PAIR_RECV }
      modify fun c => { c with pair := c.R1 }
      setBit fun bus => { bus with HSHK_OUT_REQ := false }
      modify fun c => { c with R2 := HSHK_OK }

def g_hshk_accept_request : M Unit := do
  modify fun c => { c with R0 := 0, pair := 0 }
  setBit fun bus => { bus with HSHK_IN_DACK := false }
  modify fun c => { c with R2 := HSHK_OK }

def l_hshk_recv_fail : M Unit := do
  setBit fun bus => { bus with HSHK_IN_DACK := false }
  modify fun c => { c with R0 := 0, pair := 0, R3 := 0, R2 := HSHK_NG }

def l_hshk_recv_phase1 : M Unit := do
  pollBit fun bus => bus.HSHK_IN_DENA
  if (← get).R2 ≠ HSHK_OK then l_hshk_recv_fail
  else do
    stcrR3 half
    modify fun c => { c with R3 := c.R3 &&& 0x00ff }
    setBit fun bus => { bus with HSHK_IN_DACK := true }
    modify fun c => { c with R1 := c.pair ||| HSHK_PAIR_RECV }
    modify fun c => { c with pair := c.R1, R2 := HSHK_OK }

def l_hshk_recv_phase2 : M Unit := do
  pollBit fun bus => !bus.HSHK_IN_DENA
  if (← get).R2 ≠ HSHK_OK then l_hshk_recv_fail
  else do
    stcrR3 half
    modify fun c => { c with R3 := c.R3 &&& 0x00ff }
    setBit fun bus => { bus with HSHK_IN_DACK := false }
    modify fun c => { c with R1 := c.pair &&& HSHK_PAIR_SEND }
    modify fun c => { c with pair := c.R1, R2 := HSHK_OK }

/-- The byte comes in `R3`. -/
def g_hshk_recv_byte : M Unit := do
  modify fun c => { c with R1 := c.pair &&& HSHK_PAIR_RECV }
  if (← get).R1 ≠ 0 then l_hshk_recv_phase2 half else l_hshk_recv_phase1 half

def g_hshk_finalize_recv : M Unit := do
  modify fun c => { c with R1 := c.pair &&& HSHK_PAIR_RECV }
  if (← get).R1 = 0 then modify fun c => { c with R2 := HSHK_OK }
  else do
    pollBit fun bus => !bus.HSHK_IN_DENA
    if (← get).R2 ≠ HSHK_OK then modify fun c => { c with R2 := HSHK_NG }
    else do
      setBit fun bus => { bus with HSHK_IN_DACK := false }
      modify fun c => { c with R1 := c.pair &&& HSHK_PAIR_SEND }
      modify fun c => { c with pair := c.R1, R2 := HSHK_OK }

end Routines

end Tms9995
end BootMonitor
end RetroCpu
