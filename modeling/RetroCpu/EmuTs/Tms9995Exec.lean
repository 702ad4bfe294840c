import Mathlib
import RetroCpu.EmuTs.Tms9995

/-!
# The TypeScript TMS9995 core: instruction execution

`executeInstruction` is the decoder of `execute.ts`, tested in the order of the source.  An
instruction works on the copies of `PC`, `WP` and `ST` in its context, while the accesses to
the workspace and the fetches work on the variables of the core.
-/

namespace RetroCpu
namespace EmuTs
namespace Tms9995

open Prog

variable {σ : Type}

section Context

/-- Assign to a register of the context. -/
def setCtx (f : TmsExecuteCtx → TmsExecuteCtx) : M σ Unit :=
  modify fun s => { s with ctx := f s.ctx }

/-- Assign to `ctx.ST`. -/
def setST (f : U16 → U16) : M σ Unit := setCtx fun c => { c with ST := f c.ST }

/-- Assign to `ctx.PC`. -/
def setPC (v : U16) : M σ Unit := setCtx fun c => { c with PC := v }

/-- `ctx.illegal` -/
def illegal : M σ Unit := modify fun s => { s with execStatus := .break }

end Context

variable (io : Tms9995Io σ)

/-- `doBlwp` -/
def doBlwp (vectorByteAddr : U16) (r11 : Option U16) : M σ Unit := do
  let newWp := (← readWord io vectorByteAddr) &&& 0xfffe
  let newPc := (← readWord io (vectorByteAddr + 2)) &&& 0xfffe
  writeWord io (newWp + 13 * 2) (← get).WP
  writeWord io (newWp + 14 * 2) (← get).PC
  writeWord io (newWp + 15 * 2) (← get).ST
  match r11 with
  | some v => writeWord io (newWp + 11 * 2) v
  | none => pure ()
  modify fun s => { s with WP := newWp, PC := newPc, idle := false }

/-- `ctx.doBlwp` -/
def ctxDoBlwp (vec : U16) (r11 : Option U16) : M σ Unit := do
  doBlwp io vec r11
  let s ← get
  setCtx fun c => { c with PC := s.PC, WP := s.WP, ST := s.ST }

/-- `testCondition` -/
def testCondition (cond st : U16) : Bool :=
  let c := (cond >>> 4) &&& 0x0f
  let lgt : Bool := st &&& ST_LGT ≠ 0
  let agt : Bool := st &&& ST_AGT ≠ 0
  let eq : Bool := st &&& ST_EQ ≠ 0
  let carry : Bool := st &&& ST_C ≠ 0
  let ov : Bool := st &&& ST_OV ≠ 0
  let op : Bool := st &&& ST_OP ≠ 0
  match c.toNat with
  | 0x0 => true
  | 0x2 => !agt && !eq
  | 0x3 => !lgt || eq
  | 0x4 => eq
  | 0x5 => lgt || eq
  | 0x6 => agt
  | 0x7 => !eq
  | 0x8 => !carry
  | 0x9 => carry
  | 0xa => !ov
  | 0xb => !lgt && !eq
  | 0xc => lgt && !eq
  | 0xd => op
  | _ => false

/-- The operand in the low six bits of an instruction. -/
def sourceEa (ir : U16) (isByte : Bool) : M σ TmsEa :=
  resolveEa io ((ir >>> 4) &&& 3) (ir &&& 0x0f) isByte

/-- The operations of `format1`. -/
inductive Format1Op where
  | A
  | S
  | SOC
  | SZC
  | C
  | MOV
deriving DecidableEq

/-- The byte operations of `format1`. -/
def format1Byte (op : Format1Op) (dst src : TmsEa) : M σ Unit := do
  let d ← readByteEa io dst
  let s ← readByteEa io src
  match op with
  | .A => do
      let r := d + s
      setST fun st => setAddFlags st (d.setWidth 16) (s.setWidth 16) (r.setWidth 16)
      setST fun st => setLaeByte st r
      writeByteEa io dst r
  | .S => do
      let r := d - s
      setST fun st => setSubFlags st (d.setWidth 16) (s.setWidth 16) (r.setWidth 16)
      setST fun st => setLaeByte st r
      writeByteEa io dst r
  | .SOC => do
      let r := d ||| s
      setST fun st => setLaeByte st r
      writeByteEa io dst r
  | .SZC => do
      let r := d &&& ~~~s
      setST fun st => setLaeByte st r
      writeByteEa io dst r
  | .C => setST fun st => setCompareByte st d s
  | .MOV => do
      setST fun st => setLaeByte st s
      writeByteEa io dst s

/-- The word operations of `format1`. -/
def format1Word (op : Format1Op) (dst src : TmsEa) : M σ Unit := do
  let d ← readWordEa io dst
  let s ← readWordEa io src
  match op with
  | .A => do
      let r := d + s
      setST fun st => setAddFlags st d s r
      writeWordEa io dst r
  | .S => do
      let r := d - s
      setST fun st => setSubFlags st d s r
      writeWordEa io dst r
  | .SOC => do
      let r := d ||| s
      setST fun st => setLaeWord st r
      writeWordEa io dst r
  | .SZC => do
      let r := d &&& ~~~s
      setST fun st => setLaeWord st r
      writeWordEa io dst r
  | .C => setST fun st => setCompareWord st d s
  | .MOV => do
      setST fun st => setLaeWord st s
      writeWordEa io dst s

/-- `format1`.  The destination is resolved before the source. -/
def format1 (ir : U16) (byteOp : Bool) (op : Format1Op) : M σ Unit := do
  let dst ← resolveEa io ((ir >>> 10) &&& 3) ((ir >>> 6) &&& 0x0f) byteOp
  let src ← sourceEa io ir byteOp
  if byteOp then format1Byte io op dst src else format1Word io op dst src

section Division

/-- `divsOverflow` -/
def divsOverflow (w1 w2 divisor : U16) : Bool :=
  let divs : Int := divisor.toInt
  let dividend : Int := (w1 ++ w2).toInt
  if divs = 0 then true
  else if 0 ≤ dividend then
    if 0 < divs then divs * 2 ^ 15 - 1 < dividend
    else -divs * 2 ^ 15 + -divs - 1 < dividend
  else
    let nd := -dividend
    if 0 < divs then divs * 2 ^ 15 + divs - 1 < nd
    else -divs * 2 ^ 15 - 1 < nd

/-- `divOverflow` -/
def divOverflow (hi _lo divisor : U16) : Bool := if divisor = 0 then true else divisor ≤ hi

/-- DIV.  The dividend is a signed number of 32 bits. -/
def execDiv (ir : U16) : M σ Unit := do
  let src ← sourceEa io ir false
  let div ← readWordEa io src
  let hi32 ← readReg io 0
  let lo32 ← readReg io 1
  if divOverflow hi32 lo32 div then setST fun st => st ||| ST_OV
  else do
    let dividend : Int := (hi32 ++ lo32).toInt
    let q := BitVec.ofInt 16 (dividend.fdiv div.toNat)
    let rem := BitVec.ofInt 16 (dividend.tmod div.toNat)
    setST fun st => st &&& ~~~ST_OV
    writeReg io 0 q
    writeReg io 1 rem

/-- DIVS -/
def execDivs (ir : U16) : M σ Unit := do
  let ea ← sourceEa io ir false
  let div ← readWordEa io ea
  let hi32 ← readReg io 0
  let lo32 ← readReg io 1
  if divsOverflow hi32 lo32 div then setST fun st => st ||| ST_OV
  else do
    let dividend : Int := (hi32 ++ lo32).toInt
    let q := BitVec.ofInt 16 (dividend.tdiv div.toInt)
    let rem := BitVec.ofInt 16 (dividend.tmod div.toInt)
    setST fun st => st &&& ~~~ST_OV
    writeReg io 0 q
    writeReg io 1 rem

end Division

section Multiplication

/-- MPY -/
def execMpy (ir : U16) : M σ Unit := do
  let src ← sourceEa io ir false
  let s ← readWordEa io src
  let r0 ← readReg io 0
  let prod : BitVec 32 := r0.setWidth 32 * s.setWidth 32
  writeReg io 0 ((prod >>> 16).setWidth 16)
  writeReg io 1 (prod.setWidth 16)

/-- MPYS -/
def execMpys (ir : U16) : M σ Unit := do
  let ea ← sourceEa io ir false
  let v ← readWordEa io ea
  let r0 ← readReg io 0
  let prod : BitVec 32 := r0.signExtend 32 * v.signExtend 32
  writeReg io 0 ((prod >>> 16).setWidth 16)
  writeReg io 1 (prod.setWidth 16)

end Multiplication

section Shifts

/-- What a shift has computed so far. -/
structure Shifted where
  v : U16
  carry : Bool
  overflow : Bool

/-- `kinds` -/
inductive ShiftKind where
  | SRA
  | SRL
  | SLA
  | SRC
deriving DecidableEq

def kinds (n : U16) : ShiftKind :=
  match n.toNat with
  | 0 => .SRA
  | 1 => .SRL
  | 2 => .SLA
  | _ => .SRC

/-- One round of the loop of `shiftOp`. -/
def shiftRound (kind : ShiftKind) (sign : Bool) (x : Shifted) : Shifted :=
  match kind with
  | .SRA => { x with carry := x.v &&& 1 ≠ 0, v := (x.v >>> 1) ||| if sign then 0x8000 else 0 }
  | .SRL => { x with carry := x.v &&& 1 ≠ 0, v := x.v >>> 1 }
  | .SLA =>
      let carry : Bool := x.v &&& 0x8000 ≠ 0
      let v := x.v <<< 1
      { v := v, carry := carry,
        overflow := if carry ≠ decide (v &&& 0x8000 ≠ 0) then true else x.overflow }
  | .SRC =>
      let carry : Bool := x.v &&& 1 ≠ 0
      { x with carry := carry, v := (x.v >>> 1) ||| if carry then 0x8000 else 0 }

/-- The count of a shift. -/
def shiftCount (ir : U16) : M σ Nat :=
  let cnt := ((ir >>> 4) &&& 0x0f).toNat
  if cnt = 0 then do
    let r0 ← readReg io 0
    let cnt := ((r0 >>> 12) &&& 0x0f).toNat
    return if cnt = 0 then 16 else cnt
  else pure cnt

/-- `shiftOp` -/
def shiftOp (ir : U16) (kind : ShiftKind) : M σ Unit := do
  let reg := ir &&& 0x0f
  let cnt ← shiftCount io ir
  let v ← readReg io reg
  let sign : Bool := v &&& 0x8000 ≠ 0
  let x := (shiftRound kind sign)^[cnt] { v := v, carry := false, overflow := false }
  setST fun st => setLaeWord st x.v
  setST fun st => setFlag st ST_C x.carry
  if kind = .SLA then setST fun st => setFlag st ST_OV x.overflow else pure ()
  writeReg io reg x.v

end Shifts

section Cru

/-- `cruAddr` -/
def cruAddr (disp8 : U8) : M σ U16 := do
  let r12 ← readReg io 12
  return r12 + disp8.signExtend 16

def CRU_HSHK_MIN : U16 := 0x0010
def CRU_HSHK_MAX : U16 := 0x0027
def CRU_HSHK_OUT_DATA : U16 := 0x0023
def CRU_HSHK_IN_DATA : U16 := 0x0027

/-- `inHandshakeCruRange` -/
def inHandshakeCruRange (base : U16) (bits : Nat) : Bool :=
  CRU_HSHK_MIN ≤ base ∧ base.toNat + bits - 1 ≤ CRU_HSHK_MAX.toNat

/-- The loop that reads `bits` bits of the CRU into a byte or a word. -/
def readCruBits (w : Nat) (base : U16) (bits : Nat) : M σ (BitVec w) :=
  (List.range bits).foldlM (fun b i => do
    let bit ← device (io.cpuReadCruBit (base + BitVec.ofNat 16 i))
    return b ||| ((BitVec.ofBool bit).setWidth w <<< i)) 0

/-- The loop that writes the low `bits` bits of a value to the CRU. -/
def writeCruBits {w : Nat} (base : U16) (bits : Nat) (value : BitVec w) : M σ Unit :=
  (List.range bits).forM fun i =>
    device (io.cpuWriteCruBit (base + BitVec.ofNat 16 i) ((value >>> i) &&& 1 ≠ 0))

/-- STCR of `cruTransfer` -/
def cruToEa (src : TmsEa) (base : U16) (bits : Nat) : M σ Unit :=
  if base = CRU_HSHK_IN_DATA ∧ bits = 8 then do
    let b ← device io.cpuReadCruDataByte
    writeByteEa io src b
    setST fun st => setLaeByte st b
  else if bits ≤ 8 then do
    let b ← (if inHandshakeCruRange base bits then readCruBits io 8 base bits else pure 0)
    writeByteEa io src b
    setST fun st => setLaeByte st b
  else do
    let w ← (if inHandshakeCruRange base 16 then readCruBits io 16 base 16 else pure 0)
    writeWordEa io src w
    setST fun st => setLaeWord st w

/-- LDCR of `cruTransfer` -/
def eaToCru (src : TmsEa) (base : U16) (bits : Nat) : M σ Unit :=
  if base = CRU_HSHK_OUT_DATA ∧ bits = 8 then do
    let b ← readByteEa io src
    device (io.cpuWriteCruDataByte b)
  else if bits ≤ 8 then do
    let b ← readByteEa io src
    writeCruBits io base bits b
  else do
    let w ← readWordEa io src
    writeCruBits io base 16 w

/-- `cruTransfer` -/
def cruTransfer (ir : U16) (isStcr : Bool) : M σ Unit := do
  let count := ((ir >>> 6) &&& 0x0f).toNat
  let bits := if count = 0 then 16 else count
  let src ← sourceEa io ir (bits ≤ 8)
  let base ← readReg io 12
  if isStcr then cruToEa io src base bits else eaToCru io src base bits

/-- SBO / SBZ / TB -/
def execCruBit (sub ir : U16) : M σ Unit := do
  let addr ← cruAddr io ((ir &&& 0xff).setWidth 8)
  if sub = 0x0d then device (io.cpuWriteCruBit addr true)
  else if sub = 0x0e then device (io.cpuWriteCruBit addr false)
  else do
    let bit ← device (io.cpuReadCruBit addr)
    setST fun st => setFlag st ST_EQ bit

end Cru

end Tms9995
end EmuTs
end RetroCpu
