import RetroCpu.EmuTs.Handshake

/-!
# The handshake routines of the MN1613 monitor (`handshake_common.asm`)

The routines as programs on the registers, the word `GL_HSHK_PAIR` and the ports of the
handshake (`io_port_bridge.ts`).  What is pushed and popped is kept in a local name.  A loop
that polls a port is one wait: it ends when the port has the value, with what is left of the
counter in `R1`, or when the counter has run down.
-/

namespace RetroCpu
namespace BootMonitor

open Interleave Handshake

abbrev Word := BitVec 16

section Ports

def INTERRUPT_BUSY : Word := 0x20
def INT_CAUSE : Word := 0x21
def HSHK_OUT_CTRL : Word := 0x22
def HSHK_OUT_DATA : Word := 0x23
def HSHK_IN_CTRL : Word := 0x24
def HSHK_IN_DATA : Word := 0x25

def HSHK_OUT_REQ_BIT : Word := 1
def HSHK_OUT_DENA_BIT : Word := 2
def HSHK_IN_DACK_BIT : Word := 4
def HSHK_IN_REQ_BIT : Word := 1
def HSHK_IN_DENA_BIT : Word := 2
def HSHK_OUT_DACK_BIT : Word := 4

def bit (line : Bool) (mask : Word) : Word := if line then mask else 0

def outCtrl (bus : Bus) : Word :=
  bit bus.HSHK_OUT_DENA HSHK_OUT_DENA_BIT ||| bit bus.HSHK_IN_DACK HSHK_IN_DACK_BIT |||
    bit bus.HSHK_OUT_REQ HSHK_OUT_REQ_BIT

def inCtrl (bus : Bus) : Word :=
  bit bus.HSHK_IN_REQ HSHK_IN_REQ_BIT ||| bit bus.HSHK_IN_DENA HSHK_IN_DENA_BIT |||
    bit bus.HSHK_OUT_DACK HSHK_OUT_DACK_BIT

def setOutCtrl (v : Word) (bus : Bus) : Bus :=
  { bus with
    HSHK_OUT_DENA := v &&& HSHK_OUT_DENA_BIT ≠ 0
    HSHK_IN_DACK := v &&& HSHK_IN_DACK_BIT ≠ 0
    HSHK_OUT_REQ := v &&& HSHK_OUT_REQ_BIT ≠ 0 }

def setInCtrl (v : Word) (bus : Bus) : Bus :=
  { bus with
    HSHK_IN_REQ := v &&& HSHK_IN_REQ_BIT ≠ 0
    HSHK_IN_DENA := v &&& HSHK_IN_DENA_BIT ≠ 0
    HSHK_OUT_DACK := v &&& HSHK_OUT_DACK_BIT ≠ 0 }

/-- `read` of `createHandshakeIoPortBridge`; other ports belong to other devices. -/
def bridgeRead (port : Word) : Option (Bus → Word) :=
  match port.toNat with
  | 0x20 => some fun bus => bit bus.INTERRUPT_BUSY 1
  | 0x21 => some fun bus => bus.INT_CAUSE &&& 7
  | 0x22 => some outCtrl
  | 0x23 => some fun bus => bus.HSHK_OUT_DATA.setWidth 16
  | 0x24 => some inCtrl
  | 0x25 => some fun bus => bus.HSHK_IN_DATA.setWidth 16
  | _ => none

/-- `write` of `createHandshakeIoPortBridge` -/
def bridgeWrite (port : Word) : Option (Word → Bus → Bus) :=
  match port.toNat with
  | 0x20 => some fun v bus => { bus with INTERRUPT_BUSY := v &&& 1 ≠ 0 }
  | 0x21 => some fun v bus => { bus with INT_CAUSE := v &&& 7 }
  | 0x22 => some setOutCtrl
  | 0x23 => some fun v bus => { bus with HSHK_OUT_DATA := v.setWidth 8 }
  | 0x24 => some setInCtrl
  | 0x25 => some fun v bus => { bus with HSHK_IN_DATA := v.setWidth 8 }
  | _ => none

end Ports

namespace Mn1613

section State

/-- An access to a port by `RDR` or `WTR`. -/
inductive PortEvent
  | read (port value : Word)
  | write (port value : Word)
deriving DecidableEq

/-- What the processor has to itself. -/
structure Cpu where
  R0 : Word := 0
  R1 : Word := 0
  R2 : Word := 0
  R3 : Word := 0
  R4 : Word := 0
  TSR0 : Word := 0
  /-- `GL_HSHK_PAIR` -/
  pair : Word := 0
  /-- The memory, in words. -/
  mem : BitVec 18 → Word := fun _ => 0
  /-- The ports of other devices. -/
  ports : Word → Word := fun _ => 0
  events : List PortEvent := []

abbrev M := StateT Cpu (Prog Bus Unit)

/-- `RD` -/
def rd (port : Word) : M Word := fun c =>
  match bridgeRead port with
  | some g => .access id fun bus => .done (g bus, c)
  | none => .done (c.ports port, c)

/-- `WT` -/
def wt (port value : Word) : M Unit := fun c =>
  match bridgeWrite port with
  | some f => .access (f value) fun _ => .done ((), c)
  | none => .done ((), { c with ports := fun p => if p = port then value else c.ports p })

/-- `RDR` -/
def rdr (port : Word) : M Word := do
  let v ← rd port
  modify fun c => { c with events := c.events ++ [.read port v] }
  return v

/-- `WTR` -/
def wtr (port value : Word) : M Unit := do
  wt port value
  modify fun c => { c with events := c.events ++ [.write port value] }

def HSHK_OK : Word := 0
def HSHK_NG : Word := 1
def HSHK_PAIR_RECV : Word := 1
def HSHK_PAIR_SEND : Word := 2

/-- The registers behind a loop that polls a port. -/
def polled (c : Cpu) : Option Nat → Cpu
  | some left => { c with R0 := HSHK_OK, R1 := BitVec.ofNat 16 left }
  | none => { c with R0 := HSHK_NG, R1 := 0 }

/-- A loop that polls `HSHK_IN_CTRL` for a value under a mask. -/
def pollInCtrl (mask expected : Word) : M Unit := fun c =>
  .wait () (fun bus => inCtrl bus &&& mask == expected) fun r => .done ((), polled c r)

end State

section Routines

def l_hshk_wait_out_dack : M Unit := do
  let saved := (← get).R2
  modify fun c => { c with R2 := c.R0 }
  pollInCtrl HSHK_OUT_DACK_BIT (← get).R2
  modify fun c => { c with R2 := saved }

def l_hshk_wait_in_dena : M Unit := do
  let saved := (← get).R2
  modify fun c => { c with R2 := c.R0 }
  pollInCtrl HSHK_IN_DENA_BIT (← get).R2
  modify fun c => { c with R2 := saved }

def g_hshk_wait_req1_1 : M Unit := pollInCtrl HSHK_IN_REQ_BIT HSHK_IN_REQ_BIT

def l_hshk_ctrl_set : M Unit := do
  modify fun c => { c with R1 := c.R0 }
  let v ← rd HSHK_OUT_CTRL
  modify fun c => { c with R0 := v ||| c.R1 }
  wt HSHK_OUT_CTRL (← get).R0

def l_hshk_ctrl_clr : M Unit := do
  modify fun c => { c with R1 := c.R0 ^^^ 0xffff }
  let v ← rd HSHK_OUT_CTRL
  modify fun c => { c with R0 := v &&& c.R1 }
  wt HSHK_OUT_CTRL (← get).R0

def l_hshk_pair_reset : M Unit := modify fun c => { c with R0 := 0, pair := 0 }

/-- It counts a random number in `R0` down to 0. -/
def g_hshk_wait_ena_delay : M Unit := modify fun c => { c with R0 := 0 }

def g_hshk_initiate_send : M Unit := do
  l_hshk_pair_reset
  let v ← rd HSHK_OUT_CTRL
  modify fun c => { c with R0 := v &&& HSHK_OUT_DENA_BIT }
  if (← get).R0 ≠ 0 then modify fun c => { c with R0 := HSHK_NG }
  else do
    modify fun c => { c with R0 := HSHK_OUT_DENA_BIT }
    l_hshk_ctrl_clr
    modify fun c => { c with R0 := HSHK_OUT_REQ_BIT }
    l_hshk_ctrl_set
    g_hshk_wait_ena_delay
    modify fun c => { c with R0 := HSHK_OK }

/-- The second byte of a unit, from `R0`; the sending half of the pair ends. -/
def l_hshk_second : M Unit := do
  wt HSHK_OUT_DATA (← get).R0
  modify fun c => { c with R0 := HSHK_OUT_DENA_BIT }
  l_hshk_ctrl_clr
  modify fun c => { c with R0 := 0 }
  l_hshk_wait_out_dack
  modify fun c => { c with R1 := c.R0 }
  modify fun c => { c with R0 := c.pair &&& HSHK_PAIR_RECV }
  modify fun c => { c with pair := c.R0 }
  modify fun c => { c with R0 := HSHK_OK }

def l_hshk_flush_send : M Unit := do
  modify fun c => { c with R0 := c.pair &&& HSHK_PAIR_SEND }
  if (← get).R0 = 0 then do
    modify fun c => { c with R0 := c.pair &&& HSHK_PAIR_RECV }
    modify fun c => { c with pair := c.R0, R0 := HSHK_OK }
  else do
    modify fun c => { c with R0 := 0 }
    l_hshk_second
    if (← get).R1 ≠ HSHK_OK then modify fun c => { c with R0 := HSHK_NG } else pure ()

def l_hshk_flush_recv : M Unit := do
  modify fun c => { c with R0 := c.pair &&& HSHK_PAIR_RECV }
  if (← get).R0 = 0 then modify fun c => { c with R0 := HSHK_OK }
  else do
    modify fun c => { c with R0 := 0 }
    l_hshk_wait_in_dena
    if (← get).R0 ≠ HSHK_OK then
      modify fun c => { c with pair := c.pair &&& HSHK_PAIR_SEND, R0 := HSHK_NG }
    else do
      modify fun c => { c with R0 := HSHK_IN_DACK_BIT }
      l_hshk_ctrl_clr
      modify fun c => { c with pair := c.pair &&& HSHK_PAIR_SEND, R0 := HSHK_OK }

def l_hshk_send_fail : M Unit := do
  modify fun c => { c with R0 := HSHK_OUT_REQ_BIT }
  l_hshk_ctrl_clr
  modify fun c => { c with R0 := HSHK_OUT_DENA_BIT }
  l_hshk_ctrl_clr
  modify fun c => { c with pair := 0, R0 := HSHK_NG }

/-- The first byte of a unit, from `R3`. -/
def l_hshk_send_1 : M Unit := do
  modify fun c => { c with R0 := c.R3 }
  wt HSHK_OUT_DATA (← get).R0
  modify fun c => { c with R0 := HSHK_OUT_DENA_BIT }
  l_hshk_ctrl_set
  modify fun c => { c with R0 := HSHK_OUT_DACK_BIT }
  l_hshk_wait_out_dack
  modify fun c => { c with R1 := c.R0, R0 := HSHK_OK }
  if (← get).R1 ≠ (← get).R0 then l_hshk_send_fail
  else do
    modify fun c => { c with R0 := c.pair, R1 := HSHK_PAIR_SEND }
    modify fun c => { c with R0 := c.R0 ||| c.R1 }
    modify fun c => { c with pair := c.R0, R0 := HSHK_OK }

/-- The second byte of a unit, from `R3`. -/
def l_hshk_send_2 : M Unit := do
  modify fun c => { c with R0 := c.R3 }
  l_hshk_second
  if (← get).R1 ≠ HSHK_OK then l_hshk_send_fail else pure ()

def g_hshk_send_byte : M Unit := do
  let saved := (← get).R3
  modify fun c => { c with R3 := c.R0 }
  l_hshk_flush_recv
  if (← get).R0 ≠ HSHK_OK then l_hshk_send_fail
  else do
    modify fun c => { c with R0 := c.pair &&& HSHK_PAIR_SEND }
    if (← get).R0 = 0 then l_hshk_send_1 else l_hshk_send_2
  modify fun c => { c with R3 := saved }

def g_hshk_finalize_send : M Unit := do
  l_hshk_flush_send
  let status := (← get).R0
  modify fun c => { c with R0 := HSHK_OUT_REQ_BIT }
  l_hshk_ctrl_clr
  modify fun c => { c with pair := c.pair &&& HSHK_PAIR_RECV }
  modify fun c => { c with R1 := status, R0 := status }

def g_hshk_accept_request : M Unit := do
  l_hshk_pair_reset
  modify fun c => { c with R0 := HSHK_IN_DACK_BIT }
  l_hshk_ctrl_clr
  modify fun c => { c with R0 := HSHK_OK }

def l_hshk_recv_fail : M Unit := do
  modify fun c => { c with R0 := HSHK_IN_DACK_BIT }
  l_hshk_ctrl_clr
  modify fun c => { c with pair := 0, R0 := HSHK_NG }

def l_hshk_recv_1 : M Unit := do
  modify fun c => { c with R0 := HSHK_IN_DENA_BIT }
  l_hshk_wait_in_dena
  if (← get).R0 ≠ HSHK_OK then l_hshk_recv_fail
  else do
    let v ← rd HSHK_IN_DATA
    modify fun c => { c with R0 := v &&& 0x00ff }
    modify fun c => { c with R3 := c.R0, R0 := HSHK_IN_DACK_BIT }
    l_hshk_ctrl_set
    modify fun c => { c with R0 := c.pair, R1 := HSHK_PAIR_RECV }
    modify fun c => { c with R0 := c.R0 ||| c.R1 }
    modify fun c => { c with pair := c.R0, R1 := c.R3, R0 := HSHK_OK }

def l_hshk_recv_2 : M Unit := do
  modify fun c => { c with R0 := 0 }
  l_hshk_wait_in_dena
  if (← get).R0 ≠ HSHK_OK then l_hshk_recv_fail
  else do
    let v ← rd HSHK_IN_DATA
    modify fun c => { c with R0 := v &&& 0x00ff }
    modify fun c => { c with R3 := c.R0, R0 := HSHK_IN_DACK_BIT }
    l_hshk_ctrl_clr
    modify fun c => { c with R0 := c.pair &&& HSHK_PAIR_SEND }
    modify fun c => { c with pair := c.R0, R1 := c.R3, R0 := HSHK_OK }

/-- The byte comes in `R1`. -/
def g_hshk_recv_byte : M Unit := do
  let saved := (← get).R3
  l_hshk_flush_send
  if (← get).R0 ≠ HSHK_OK then l_hshk_recv_fail
  else do
    modify fun c => { c with R0 := c.pair &&& HSHK_PAIR_RECV }
    if (← get).R0 = 0 then l_hshk_recv_1 else l_hshk_recv_2
  modify fun c => { c with R3 := saved }

def g_hshk_finalize_recv : M Unit := do
  modify fun c => { c with R0 := HSHK_OUT_DENA_BIT }
  l_hshk_ctrl_clr
  l_hshk_flush_send
  l_hshk_flush_recv
  modify fun c => { c with R0 := HSHK_OK }

end Routines

end Mn1613
end BootMonitor
end RetroCpu
