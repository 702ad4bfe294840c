import RetroCpu.EmuRs.Mn1613Exec
import RetroCpu.Lib.CheckedBuild

/-!
# The Rust MN1613 core in a checked build

The functions of `core.rs` that contain an unchecked operator or call one that does, with
every such operator checked.  The other functions of the core are those of `Mn1613Exec`,
which cannot stop (`ofState`); so are the floating-point instructions.  Operators whose
operands do not change in between are checked before the effects they stand among.
-/

namespace RetroCpu
namespace EmuRs
namespace Mn1613Checked

open CheckedBuild Prog RetroCpu.Mn1613
open Mn1613 (U8 U16 U32 Core CpuRegister Io reg setReg gr sw seg setR setOsr setE setOvf flagE
  carryIn skipIf push pop fetch rdC wrC rdB wrB rdPhys wrPhys phys doIoRead doIoWrite
  getHwReg setHwReg swSkip setR0Skip setDr0 dr0 dswp skipNext pushLink loadCsIc levelMask)

variable {σ : Type}

abbrev M (σ : Type) := PanicM (Core σ)

section Registers

/-- `((ii & 3) + 1) as usize`, as an index of `r`. -/
def riIndex (ii : U16) : M σ (Fin 5) := do
  let i ← addU (ii &&& 3) 1
  index 5 i.toNat

/-- `ri` -/
def ri (ii : U16) : M σ U16 := do
  let i ← riIndex ii
  ofState (reg fun r => r.r i)

/-- `ri_set` -/
def riSet (ii v : U16) : M σ Unit := do
  let i ← riIndex ii
  ofState (setR i (v &&& 0xffff))

/-- The signed displacement of `ea`. -/
def displacement (d : U16) : M σ U16 := if d < 0x80 then pure d else subS d 0x100

/-- `ea` -/
def ea (mmm d : U16) : M σ U16 := do
  let sd ← displacement d
  ofState do
    let insnIc := (← reg CpuRegister.ic) - 1
    match (mmm &&& 7).toNat with
    | 0 => return d &&& 0xff
    | 1 => return insnIc + sd
    | 2 => rdC (d &&& 0xff)
    | 3 => rdC (insnIc + sd)
    | 4 => return (← reg fun r => r.r 3) + (d &&& 0xff)
    | 5 => return (← reg fun r => r.r 4) + (d &&& 0xff)
    | 6 => do
        let ind ← rdC (d &&& 0xff)
        return (← reg fun r => r.r 3) + ind
    | _ => do
        let ind ← rdC (d &&& 0xff)
        return (← reg fun r => r.r 4) + ind

/-- `add16` -/
def add16 (a b : U16) : M σ U16 := do
  let res ← addU (a.setWidth 32 : U32) (b.setWidth 32)
  ofState do
    setE (res > 0xffff)
    setOvf ((~~~(a ^^^ b) &&& (a ^^^ res.setWidth 16) &&& 0x8000) ≠ 0)
    return (res &&& 0xffff).setWidth 16

/-- `sub16` -/
def sub16 (a b : U16) : M σ U16 := do
  let res ← subS (a.setWidth 32 : U32) (b.setWidth 32)
  ofState do
    setE (res.slt 0)
    setOvf (((a ^^^ b) &&& (a ^^^ res.setWidth 16) &&& 0x8000) ≠ 0)
    return res.setWidth 16 &&& 0xffff

end Registers

section Interrupt

/-- `accept_irq` -/
def acceptIrq (lv : Nat) : M σ Unit := do
  let bit ← shl (1 : U8) lv
  let i ← index 4 lv
  let lv2 ← mulSize lv 2
  let lv21 ← addSize lv2 1
  ofState do
    modify fun s => { s with pendingIrq := s.pendingIrq &&& ~~~bit }
    setOsr i ((← reg CpuRegister.csbr) &&& 0xf)
    setReg fun r => { r with csbr := 0 }
    wrPhys (phys (BitVec.ofNat 16 lv2) 0) (← reg CpuRegister.str)
    wrPhys (phys (BitVec.ofNat 16 lv21) 0) (← reg CpuRegister.ic)
    let npsw : U16 := (← reg CpuRegister.npp).setWidth 16 <<< 8
    let str ← rdPhys (phys (npsw + BitVec.ofNat 16 lv2) 0)
    setReg fun r => { r with str := str }
    let ic ← rdPhys (phys (npsw + BitVec.ofNat 16 lv21) 0)
    setReg fun r => { r with ic := ic }

/-- The loop of `handle_irq`. -/
def handleIrqFrom : List Nat → M σ Unit
  | [] => pure ()
  | lv :: rest => do
      let bit ← shl (1 : U8) lv
      let s ← get
      if s.pendingIrq &&& bit ≠ 0 then do
        let i ← index 3 lv
        if s.regs.str &&& levelMask i ≠ 0 then acceptIrq lv else handleIrqFrom rest
      else handleIrqFrom rest

/-- `handle_irq` -/
def handleIrq : M σ Unit := handleIrqFrom [0, 1, 2]

/-- `trap_undefined` -/
def trapUndefined : M σ Unit := do
  ofState (setReg fun r => { r with iisr := r.iisr ||| Mn1613.IISR_UNDEF })
  acceptIrq 0

end Interrupt

section Helpers

/-- One step of the loop of `lad_result`. -/
def ladNibble (a b res : U16) (shift : Nat) : M σ U16 := do
  let na := (← shrU a shift) &&& 0xf
  let nb := (← shrU b shift) &&& 0xf
  let sum ← addU na nb
  let correction ← shl (if sum > 9 then (6 : U16) else 0) shift
  return res ||| correction

/-- `lad_result` -/
def ladResult (a b : U16) : M σ U16 := [0, 4, 8, 12].foldlM (ladNibble a b) 0

/-- `1u16 << (15 - n)` -/
def bitMask (n : U16) : M σ U16 := do
  let count ← subU 15 n
  shl 1 count.toNat

/-- The loop of SRBT. -/
def srbtFrom (v : U16) : List Nat → M σ (U16 × U16)
  | [] => pure (0x10, v)
  | b :: rest => do
      if (← shrU v b) &&& 1 ≠ 0 then do
        let pos ← subU 15 (BitVec.ofNat 16 b)
        let bit ← shl 1 b
        return (pos, v &&& ~~~bit)
      else srbtFrom v rest

end Helpers

section Instructions

/-- `op >= 0x10`: L / B / IMS and ST / BAL / DMS. -/
def execMemory (op rrr lo : U16) : M σ Unit := do
  let mmm := op &&& 7
  let ea ← ea mmm lo
  ofState do
    let isHi : Bool := op &&& 8 ≠ 0
    if rrr = 7 then
      if isHi then setReg fun r => { r with ic := ea }
      else do
        push (← reg CpuRegister.ic)
        setReg fun r => { r with ic := ea }
    else if mmm = 7 then do
      let cur ← rdC ea
      let res := if isHi then cur + 1 else cur - 1
      wrC ea res
      if res = 0 then skipNext else pure ()
    else if isHi then do sw rrr (← rdC ea)
    else do wrC ea (← gr rrr)

variable (io : Io σ)

/-- `exec_02` -/
def exec02 (rrr lo : U16) : M σ Unit := do
  if rrr = 7 ∧ lo = 0x0f then
    [0, 1, 2, 3, 4].forM fun i => do
      let i ← index 5 i
      ofState do push (← reg fun r => r.r i)
  else if rrr = 7 ∧ lo = 0x07 then
    [4, 3, 2, 1, 0].forM fun i => do
      let i ← index 5 i
      ofState do setR i (← pop)
  else ofState (Mn1613.exec02 io rrr lo)

/-- `exec_03` -/
def exec03 (rrr lo : U16) : M σ Unit := do
  let kkkk := (lo >>> 4) &&& 0xf
  let bit3 := (lo >>> 3) &&& 1
  let bit2 := (lo >>> 2) &&& 1
  if rrr = 7 ∧ bit2 ≠ 1 then do
    let ddd := lo &&& 7
    let c ← ofState (carryIn bit3)
    let carry : U16 := if c then 1 else 0
    let x ← ofState (gr ddd)
    let r1 ← sub16 0 x
    let r2 ← sub16 r1 carry
    ofState (swSkip ddd kkkk r2)
  else ofState (Mn1613.exec03 io rrr lo)

/-- `exec_seg_branch` -/
def execSegBranch (ii : U16) (link : Bool) : M σ Unit := do
  let base ← ri ii
  ofState do
    pushLink link
    loadCsIc base

/-- LPSW -/
def execLpsw (ll : U16) : M σ Unit := do
  let ll2 ← mulSize ll.toNat 2
  let ll21 ← addSize ll2 1
  let i ← index 4 ll.toNat
  ofState do
    let str ← rdPhys (phys (BitVec.ofNat 16 ll2) 0)
    setReg fun r => { r with str := str }
    let ic ← rdPhys (phys (BitVec.ofNat 16 ll21) 0)
    setReg fun r => { r with ic := ic }
    setReg fun r => { r with csbr := r.osr i &&& 0xf }

/-- The address of LR and STR, with its automatic decrement or increment. -/
def rindirect (b76 b10 : U16) : M σ U16 := do
  if b76 = 1 then ri b10
  else if b76 = 2 then do
    let v ← ri b10
    riSet b10 (v - 1)
    ri b10
  else do
    let ea ← ri b10
    let v ← ri b10
    riSet b10 (v + 1)
    return ea

/-- `exec_04` -/
def exec04 (rrr lo : U16) : M σ Unit := do
  let b32 := (lo >>> 2) &&& 3
  let b76 := (lo >>> 6) &&& 3
  let b54 := (lo >>> 4) &&& 3
  let b10 := lo &&& 3
  let kkkk := (lo >>> 4) &&& 0xf
  let ee := b10
  if rrr = 0 ∧ lo = 0x00 then ofState (modify fun s => { s with execStatus := .halted })
  else if rrr = 0 ∧ lo = 0x03 then ofState do
    let ic ← pop
    setReg fun r => { r with ic := ic }
  else if rrr = 0 ∧ lo ≥ 0x04 ∧ lo ≤ 0x07 then execLpsw (lo &&& 3)
  else if rrr = 6 ∧ lo = 0x07 then ofState do
    let dest ← fetch
    setReg fun r => { r with ic := dest }
  else if rrr = 6 ∧ lo = 0x17 then ofState do
    let dest ← fetch
    push (← reg CpuRegister.ic)
    setReg fun r => { r with ic := dest }
  else if rrr = 7 ∧ lo &&& 0xfc = 0x04 then execSegBranch b10 false
  else if rrr = 7 ∧ lo &&& 0xfc = 0x14 then execSegBranch b10 true
  else if rrr = 7 ∧ lo &&& 0x08 ≠ 0 then ofState (Mn1613.execLong lo)
  else if lo = 0x01 then ofState do push (← gr rrr)
  else if lo = 0x02 then ofState do sw rrr (← pop)
  else if b32 = 0 ∧ b76 ≠ 0 then do
    let seg ← ofState (seg b54)
    let ea ← rindirect b76 b10
    ofState do sw rrr (← rdB ea seg)
  else if b32 = 1 ∧ b76 ≠ 0 then do
    let seg ← ofState (seg b54)
    let ea ← rindirect b76 b10
    ofState do wrB ea (← gr rrr) seg
  else if b32 = 2 then ofState (Mn1613.execSr rrr kkkk ee)
  else if b32 = 3 then ofState (Mn1613.execSl rrr kkkk ee)
  else if lo >>> 4 = 1 ∧ b32 = 1 ∧ rrr ≠ 7 then do
    let port ← ri b10
    ofState do sw rrr (← doIoRead io port)
  else if lo >>> 4 = 1 ∧ b32 = 0 then do
    let port ← ri b10
    ofState do doIoWrite io port (← gr rrr)
  else trapUndefined

/-- TBIT -/
def exec05 (rrr lo : U16) : M σ Unit := do
  let kkkk := (lo >>> 4) &&& 0xf
  let mask ← bitMask (lo &&& 0xf)
  ofState do skipIf kkkk ((← gr rrr) &&& mask)

/-- RBIT -/
def exec06 (rrr lo : U16) : M σ Unit := do
  let kkkk := (lo >>> 4) &&& 0xf
  let mask ← bitMask (lo &&& 0xf)
  ofState do
    let res := (← gr rrr) &&& ~~~mask
    sw rrr res
    skipIf kkkk res

/-- One round of BLK. -/
def blkRound : Mn1613.M σ Unit := do
  let v ← rdB (← reg fun r => r.r 1) (← reg CpuRegister.tsr0)
  wrB (← reg fun r => r.r 2) v (← reg CpuRegister.tsr1)
  setReg fun r => { r with r := Function.update r.r 1 (r.r 1 + 1) }
  setReg fun r => { r with r := Function.update r.r 2 (r.r 2 + 1) }
  setReg fun r => { r with r := Function.update r.r 0 (r.r 0 - 1) }

/-- The loop of BLK, granted that many tests of its condition. -/
def blkLoop : Nat → M σ Unit
  | 0 => fun _ => .error .endless
  | n + 1 => do
      let r0 ← ofState (reg fun r => r.r 0)
      if r0 ≠ 0 then do
        ofState blkRound
        blkLoop n
      else pure ()

/-- `exec_07`, the loop of BLK granted one test more than there are words. -/
def exec07 (rrr lo : U16) : M σ Unit := do
  if rrr ≠ 7 then do
    let kkkk := (lo >>> 4) &&& 0xf
    let mask ← bitMask (lo &&& 0xf)
    ofState do
      let res := (← gr rrr) ||| mask
      sw rrr res
      skipIf kkkk res
  else if lo = 0x07 then ofState do
    let cs ← pop
    setReg fun r => { r with csbr := (cs &&& 0xf).setWidth 8 }
    let ic ← pop
    setReg fun r => { r with ic := ic }
  else if lo = 0x17 then blkLoop (Mn1613.BLK_ROUNDS + 1)
  else if lo >>> 4 = 0x7 ∧ lo &&& 8 = 0 then do
    let sss := lo &&& 7
    let v ← ofState (gr sss)
    let r ← srbtFrom v Mn1613.srbtBits
    ofState do
      setR 0 r.1
      sw sss r.2
  else if lo >>> 4 = 0xf ∧ lo &&& 8 = 0 then do
    let ddd2 := lo &&& 7
    let r0 ← ofState (reg fun r => r.r 0)
    let mask ← bitMask (r0 &&& 0xf)
    ofState do sw ddd2 ((← gr ddd2) ||| mask)
  else ofState do
    let bit7 := (lo >>> 7) &&& 1
    let hhh := (lo >>> 4) &&& 7
    let rdSrc := lo &&& 7
    if bit7 ≠ 0 then do sw rdSrc (← getHwReg hhh)
    else do setHwReg hhh (← gr rdSrc)

/-- The borrow of a double-word difference. -/
def addModulus (d : BitVec 64) : M σ (BitVec 64) :=
  if d.slt 0 then addS d 0x100000000 else pure d

/-- `exec_08` -/
def exec08 (rrr lo : U16) : M σ Unit := do
  let kkkk := (lo >>> 4) &&& 0xf
  if rrr = 7 ∧ lo &&& 4 ≠ 0 then do
    let c := (lo >>> 3) &&& 1
    let ea ← ri (lo &&& 3)
    let w0 ← ofState (rdC ea)
    let mh : BitVec 64 := w0.setWidth 64
    let w1 ← ofState (rdC (ea + 1))
    let ml : BitVec 64 := w1.setWidth 64
    let carry ← ofState (carryIn c)
    let e0 : BitVec 64 := if carry then 1 else 0
    let r ← ofState (reg fun r => r.r)
    let lhs ← addS (← mulS ((r 0).setWidth 64) 65536) ((r 1).setWidth 64)
    let rhs ← addS (← mulS mh 65536) ml
    let d ← subS (← subS lhs rhs) e0
    ofState (setE (d.slt 0))
    ofState (setOvf false)
    let du ← addModulus d
    ofState do
      setDr0 du
      skipIf kkkk (← dr0)
  else ofState (Mn1613.exec08 rrr lo)

/-- `exec_09` -/
def exec09 (rrr lo : U16) : M σ Unit := do
  let kkkk := (lo >>> 4) &&& 0xf
  if rrr = 7 ∧ lo &&& 4 ≠ 0 then do
    let c := (lo >>> 3) &&& 1
    let ea ← ri (lo &&& 3)
    let w0 ← ofState (rdC ea)
    let mh : BitVec 64 := w0.setWidth 64
    let w1 ← ofState (rdC (ea + 1))
    let ml : BitVec 64 := w1.setWidth 64
    let carry ← ofState (carryIn c)
    let e0 : BitVec 64 := if carry then 1 else 0
    let r ← ofState (reg fun r => r.r)
    let lhs ← addU (← mulU ((r 0).setWidth 64) 65536) ((r 1).setWidth 64)
    let rhs ← addU (← mulU mh 65536) ml
    let d ← addU (← addU lhs rhs) e0
    ofState do
      setE (d > 0xffffffff)
      setOvf false
      setDr0 (d.setWidth 32)
      skipIf kkkk (← dr0)
  else ofState (Mn1613.exec09 rrr lo)

/-- The correction of a packed decimal difference. -/
def bcdCorrection (negative : Bool) (step res : U32) : M σ U32 :=
  if negative then subS res step else pure res

/-- The correction of a packed decimal sum. -/
def bcdCarry (exceeds : Bool) (step res : U32) : M σ U32 :=
  if exceeds then addU res step else pure res

/-- `exec_0a` -/
def exec0a (rrr lo : U16) : M σ Unit := do
  let kkkk := (lo >>> 4) &&& 0xf
  let b32 := (lo >>> 2) &&& 3
  let b10 := lo &&& 3
  let b3 := (lo >>> 3) &&& 1
  if rrr = 7 then
    if lo &&& 4 ≠ 0 then do
      let c := b3
      let m ← ofState (rdC (← ri b10))
      let carry ← ofState (carryIn c)
      let e0 : U32 := if carry then 1 else 0
      let r0 ← ofState (reg fun r => r.r 0)
      let res ← subS (← subS (r0.setWidth 32 : U32) (m.setWidth 32)) e0
      ofState (setE (res.slt 0))
      let lo1 ← subS (← subS ((r0 &&& 0xf).setWidth 32 : U32) ((m &&& 0xf).setWidth 32)) e0
      let res ← bcdCorrection (lo1.slt 0) 0x06 res
      let lo2 ← subS ((r0 >>> 4 &&& 0xf).setWidth 32 : U32) ((m >>> 4 &&& 0xf).setWidth 32)
      let res ← bcdCorrection (lo2.slt 0) 0x60 res
      ofState do
        setR 0 (res.setWidth 16)
        skipIf kkkk (← reg fun r => r.r 0)
    else if b32 = 2 then do
      let rhs ← ofState (rdC (← ri b10))
      let res ← sub16 (← ofState (reg fun r => r.r 0)) rhs
      ofState (skipIf kkkk res)
    else do
      let w ← ofState (rdC (← ri b10))
      let rhs := w &&& 0xff
      let res ← sub16 ((← ofState (reg fun r => r.r 0)) &&& 0xff) rhs
      ofState (skipIf kkkk res)
  else if b3 = 1 ∧ lo &&& 7 = 7 then do
    let imm ← ofState fetch
    let res ← sub16 (← ofState (gr rrr)) imm
    ofState (skipIf kkkk res)
  else if b3 = 0 ∧ lo &&& 7 = 7 then do
    let imm ← ofState fetch
    let res ← sub16 ((← ofState (gr rrr)) &&& 0xff) (imm &&& 0xff)
    ofState (skipIf kkkk res)
  else if b3 = 1 then do
    let x ← ofState (gr rrr)
    let y ← ofState (gr (lo &&& 7))
    let res ← sub16 x y
    ofState (skipIf kkkk res)
  else do
    let x ← ofState (gr rrr)
    let y ← ofState (gr (lo &&& 7))
    let res ← sub16 (x &&& 0xff) (y &&& 0xff)
    ofState (skipIf kkkk res)

/-- `exec_0b` -/
def exec0b (rrr lo : U16) : M σ Unit := do
  let kkkk := (lo >>> 4) &&& 0xf
  let b32 := (lo >>> 2) &&& 3
  let b10 := lo &&& 3
  let b3 := (lo >>> 3) &&& 1
  if rrr = 7 then
    if lo &&& 4 ≠ 0 then do
      let c := b3
      let m ← ofState (rdC (← ri b10))
      let carry ← ofState (carryIn c)
      let e0 : U32 := if carry then 1 else 0
      let r0 ← ofState (reg fun r => r.r 0)
      let res ← addU (← addU (r0.setWidth 32 : U32) (m.setWidth 32)) e0
      ofState (setE (res > 0xffff))
      let lo1 ← addU (← addU ((r0 &&& 0xf).setWidth 32 : U32) ((m &&& 0xf).setWidth 32)) e0
      let res ← bcdCarry (lo1 > 9) 0x06 res
      let res ← bcdCarry ((res >>> 8) &&& 0xff > 0x99) 0x0600 res
      ofState do
        setR 0 ((res &&& 0xffff).setWidth 16)
        skipIf kkkk (← reg fun r => r.r 0)
    else if b32 = 2 then do
      let rhs ← ofState (rdC (← ri b10))
      let res ← add16 (← ofState (reg fun r => r.r 0)) rhs
      ofState (setR0Skip kkkk res)
    else if b32 = 0 then do
      let rhs ← ofState (rdC (← ri b10))
      let res ← sub16 (← ofState (reg fun r => r.r 0)) rhs
      ofState (setR0Skip kkkk res)
    else if b3 = 1 ∧ lo &&& 7 = 7 then do
      let imm ← ofState fetch
      let res ← add16 (← ofState (reg CpuRegister.ic)) imm
      ofState do
        setReg fun r => { r with ic := res }
        skipIf kkkk res
    else do
      let imm ← ofState fetch
      let res ← sub16 (← ofState (reg CpuRegister.ic)) imm
      ofState do
        setReg fun r => { r with ic := res }
        skipIf kkkk res
  else if b3 = 1 ∧ lo &&& 7 = 7 then do
    let imm ← ofState fetch
    let res ← add16 (← ofState (gr rrr)) imm
    ofState (swSkip rrr kkkk res)
  else if b3 = 0 ∧ lo &&& 7 = 7 then do
    let imm ← ofState fetch
    let res ← sub16 (← ofState (gr rrr)) imm
    ofState (swSkip rrr kkkk res)
  else if b3 = 1 then do
    let x ← ofState (gr rrr)
    let y ← ofState (gr (lo &&& 7))
    let res ← add16 x y
    ofState (swSkip rrr kkkk res)
  else do
    let x ← ofState (gr rrr)
    let y ← ofState (gr (lo &&& 7))
    let res ← sub16 x y
    ofState (swSkip rrr kkkk res)

/-- `exec_0c`; the arms of FM and FD are those of `Mn1613Exec`. -/
def exec0c (rrr lo : U16) : M σ Unit := do
  let kkkk := (lo >>> 4) &&& 0xf
  let b32 := (lo >>> 2) &&& 3
  let b10 := lo &&& 3
  if rrr = 7 ∧ b32 = 2 then do
    let r0 ← ofState (reg fun r => r.r 0)
    let ea ← ri b10
    ofState do setR0Skip kkkk (r0 ||| (← rdC ea))
  else if rrr = 7 ∧ b32 = 0 then do
    let r0 ← ofState (reg fun r => r.r 0)
    let ea ← ri b10
    ofState do setR0Skip kkkk (r0 ^^^ (← rdC ea))
  else ofState (Mn1613.exec0c rrr lo)

/-- `exec_0d`; the arms of FA and FS are those of `Mn1613Exec`. -/
def exec0d (rrr lo : U16) : M σ Unit := do
  let kkkk := (lo >>> 4) &&& 0xf
  let b32 := (lo >>> 2) &&& 3
  let b10 := lo &&& 3
  let b3 := (lo >>> 3) &&& 1
  if rrr = 7 then
    if b32 = 2 then do
      let r0 ← ofState (reg fun r => r.r 0)
      let ea ← ri b10
      ofState do setR0Skip kkkk (r0 &&& (← rdC ea))
    else if b32 = 0 then do
      let m ← ofState (rdC (← ri b10))
      let r0 ← ofState (reg fun r => r.r 0)
      let res ← ladResult r0 m
      ofState (setR0Skip kkkk res)
    else ofState (Mn1613.exec0d rrr lo)
  else if b3 = 0 ∧ lo &&& 7 = 7 then do
    let imm ← ofState fetch
    let x ← ofState (gr rrr)
    let res ← ladResult x imm
    ofState (swSkip rrr kkkk res)
  else if b3 = 1 then ofState (Mn1613.exec0d rrr lo)
  else do
    let x ← ofState (gr rrr)
    let y ← ofState (gr (lo &&& 7))
    let res ← ladResult x y
    ofState (swSkip rrr kkkk res)

/-- `exec_0e` -/
def exec0e (rrr lo : U16) : M σ Unit := do
  let kkkk := (lo >>> 4) &&& 0xf
  let b32 := (lo >>> 2) &&& 3
  let b10 := lo &&& 3
  if rrr = 7 then
    if b32 = 3 then do
      let div ← ofState (rdC (← ri b10))
      ofState (setE false)
      if div = 0 then ofState (setOvf true)
      else do
        let r ← ofState (reg fun r => r.r)
        let n32 : U32 := ((r 0).setWidth 32 <<< 16) ||| (r 1).setWidth 32
        let q ← divU n32 (div.setWidth 32)
        let rem ← remU n32 (div.setWidth 32)
        ofState do
          if q > 0xffff then setOvf true
          else do
            setOvf false
            setR 0 ((q &&& 0xffff).setWidth 16)
            setR 1 ((rem &&& 0xffff).setWidth 16)
            skipIf kkkk (← reg fun r => r.r 0)
    else if b32 = 2 then do
      let v ← ofState (rdC (← ri b10))
      let res := ((v &&& 0xff) <<< 8) ||| (v >>> 8)
      ofState (setR0Skip kkkk res)
    else do
      let v ← ofState (rdC (← ri b10))
      ofState (setR0Skip kkkk (dswp v))
  else ofState (Mn1613.exec0e rrr lo)

/-- `exec_0f` -/
def exec0f (rrr lo : U16) : M σ Unit := do
  let kkkk := (lo >>> 4) &&& 0xf
  let b32 := (lo >>> 2) &&& 3
  let b10 := lo &&& 3
  let b3 := (lo >>> 3) &&& 1
  if rrr = 7 then
    if b32 = 3 then do
      let r0 ← ofState (reg fun r => r.r 0)
      let w ← ofState (rdC (← ri b10))
      let p ← mulU (r0.setWidth 32 : U32) (w.setWidth 32)
      ofState do
        setOvf false
        setE false
        setDr0 p
        skipIf kkkk (← dr0)
    else if b32 = 2 then do
      let v ← ofState (rdC (← ri b10))
      ofState (setR0Skip kkkk v)
    else if b3 = 0 ∧ lo &&& 7 = 7 then ofState do
      let ic ← fetch
      setReg fun r => { r with ic := ic }
    else do
      let r0 ← ofState (reg fun r => r.r 0)
      let ea ← ri b10
      ofState do setR0Skip kkkk ((r0 &&& 0xff00) ||| ((← rdC ea) &&& 0xff))
  else ofState (Mn1613.exec0f rrr lo)

/-- The decoder of `execute_one` with `exec_low`, for a word already fetched. -/
def execute (ir : U16) : M σ Unit :=
  let op := (ir >>> 11) &&& 0x1f
  let rrr := (ir >>> 8) &&& 0x7
  let lo := ir &&& 0xff
  if op ≥ 0x10 then execMemory op rrr lo
  else
    match op.toNat with
    | 0x00 => trapUndefined
    | 0x01 => ofState (Mn1613.exec01 rrr lo)
    | 0x02 => exec02 io rrr lo
    | 0x03 => exec03 io rrr lo
    | 0x04 => exec04 io rrr lo
    | 0x05 => exec05 rrr lo
    | 0x06 => exec06 rrr lo
    | 0x07 => exec07 rrr lo
    | 0x08 => exec08 rrr lo
    | 0x09 => exec09 rrr lo
    | 0x0a => exec0a rrr lo
    | 0x0b => exec0b rrr lo
    | 0x0c => exec0c rrr lo
    | 0x0d => exec0d rrr lo
    | 0x0e => exec0e rrr lo
    | 0x0f => exec0f rrr lo
    | _ => trapUndefined

/-- `if self.pending_irq != 0 { self.handle_irq(ram); }` -/
def checkIrq : M σ Unit := do
  if (← get).pendingIrq ≠ 0 then handleIrq else pure ()

/-- `execute_one` -/
def executeOne : M σ Unit := do
  checkIrq
  let ir ← ofState fetch
  execute io ir

end Instructions

end Mn1613Checked
end EmuRs
end RetroCpu
