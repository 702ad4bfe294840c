import RetroCpu.EmuRs.Mn1613

/-!
# The Rust MN1613 core: instruction execution

`execute` is the decoder of `execute_one` (`core.rs`) with `exec_low` and
`exec_01`..`exec_0f`; `executeOne` adds the interrupt check and the fetch.
-/

namespace RetroCpu
namespace EmuRs
namespace Mn1613

open Prog RetroCpu.Mn1613

variable {σ : Type}

section FloatingPoint

/-- `fp_from_words` -/
def fpFromWords (w0 w1 : U16) : Float :=
  if w0 ||| w1 = 0 then 0
  else
    let sign := (w0 >>> 15) &&& 1
    let exp := (w0 >>> 8) &&& 0x7f
    let mant : U32 := ((w0 &&& 0xff).setWidth 32 <<< 16) ||| w1.setWidth 32
    let val := Float.ofNat mant.toNat * Float.pow 16 (Float.ofInt ((exp.toNat : Int) - 70))
    if sign ≠ 0 then -val else val

/-- `while mant < 0x100000 && exp > 0` -/
def fpScaleUp : Nat → Float → Int → Float × Int
  | 0, mant, exp => (mant, exp)
  | n + 1, mant, exp =>
      if mant < 0x100000 ∧ exp > 0 then fpScaleUp n (mant * 16) (exp - 1) else (mant, exp)

/-- `while mant >= 0x1000000 && exp < 127` -/
def fpScaleDown : Nat → Float → Int → Float × Int
  | 0, mant, exp => (mant, exp)
  | n + 1, mant, exp =>
      if mant ≥ 0x1000000 ∧ exp < 127 then
        fpScaleDown n (Float.floor (mant / 16)) (exp + 1)
      else (mant, exp)

/-- `fp_to_words` -/
def fpToWords (v : Float) : U16 × U16 × Bool :=
  if v == 0 then (0, 0, false)
  else if ¬ v.isFinite then (0, 0, true)
  else
    let sign : U16 := if v < 0 then 1 else 0
    let abs := Float.abs v
    let exp : Int := (Float.floor (Float.log abs / Float.log 16)).toInt32.toInt + 65
    let mant := Float.round (abs * Float.pow 16 (Float.ofInt (70 - exp)))
    let (mant, exp) := fpScaleUp exp.toNat mant exp
    let (mant, exp) := fpScaleDown (127 - exp).toNat mant exp
    if exp < 0 ∨ mant < 0x100000 then (0, 0, false)
    else if exp > 127 ∨ mant ≥ 0x1000000 then (0, 0, true)
    else
      let mantU : U32 := mant.toUInt32.toBitVec &&& 0x00ffffff
      let w0 := (sign <<< 15) ||| ((BitVec.ofInt 16 exp &&& 0x7f) <<< 8) |||
        ((mantU >>> 16).setWidth 16 &&& 0xff)
      let w1 := (mantU &&& 0xffff).setWidth 16
      (w0, w1, false)

/-- `fp_decode` -/
def fpDecode : M σ Float := reg fun r => fpFromWords (r.r 0) (r.r 1)

/-- `fp_encode` -/
def fpEncode (v : Float) : M σ Unit := do
  let enc := fpToWords v
  setR 0 enc.1
  setR 1 enc.2.1
  setOvf enc.2.2

/-- `fp_decode_at` -/
def fpDecodeAt (ea : U16) : M σ Float := do
  let w0 ← rdC ea
  let w1 ← rdC (ea + 1)
  return fpFromWords w0 w1

/-- `self.regs.r[0] | self.regs.r[1]` -/
def dr0 : M σ U16 := reg fun r => r.r 0 ||| r.r 1

/-- `fp_finish` -/
def fpFinish (kkkk : U16) : M σ Unit := do
  setE false
  skipIf kkkk (← dr0)

/-- `f64::trunc` -/
def trunc (x : Float) : Float := if x < 0 then Float.ceil x else Float.floor x

end FloatingPoint

section Helpers

/-- One step of the loop of `lad_result`. -/
def ladNibble (a b res : U16) (shift : Nat) : U16 :=
  let na := (a >>> shift) &&& 0xf
  let nb := (b >>> shift) &&& 0xf
  res ||| ((if na + nb > 9 then (6 : U16) else 0) <<< shift)

/-- `lad_result` -/
def ladResult (a b : U16) : U16 := [0, 4, 8, 12].foldl (ladNibble a b) 0

/-- `dswp` -/
def dswp (v : U16) : U16 :=
  let lo4 := v &&& 0x000f
  let nib1 := (v >>> 4) &&& 0x000f
  let nib2 := (v >>> 8) &&& 0x000f
  let hi4 := (v >>> 12) &&& 0x000f
  (hi4 <<< 12) ||| (nib1 <<< 8) ||| (nib2 <<< 4) ||| lo4

/-- `1u16 << (15 - n)` -/
def bitMask (n : U16) : U16 := (1 : U16) <<< (15 - n).toNat

/-- The bit numbers `(0..=15).rev()`. -/
def srbtBits : List Nat := [15, 14, 13, 12, 11, 10, 9, 8, 7, 6, 5, 4, 3, 2, 1, 0]

/-- Position and remaining value of SRBT. -/
def srbt (v : U16) : U16 × U16 :=
  match srbtBits.find? (fun b => (v >>> b) &&& 1 ≠ 0) with
  | some b => (15 - BitVec.ofNat 16 b, v &&& ~~~((1 : U16) <<< b))
  | none => (0x10, v)

end Helpers

/-- `ea` -/
def ea (mmm d : U16) : M σ U16 := do
  let sd : U16 := if d < 0x80 then d else d - 0x100
  let insnIc := (← reg CpuRegister.ic) - 1
  match (mmm &&& 7).toNat with
  | 0 => return d &&& 0xff
  | 1 => return insnIc + sd
  | 2 => rdC (d &&& 0xff)
  | 3 => rdC (insnIc + sd)
  | 4 => return (← reg fun r => r.r 3) + (d &&& 0xff)
  | 5 => return (← reg fun r => r.r 4) + (d &&& 0xff)
  | 6 => do
      let ind ← rdC (d &&& 0xff)
      return (← reg fun r => r.r 3) + ind
  | _ => do
      let ind ← rdC (d &&& 0xff)
      return (← reg fun r => r.r 4) + ind

/-- `op >= 0x10`: L / B / IMS and ST / BAL / DMS. -/
def execMemory (op rrr lo : U16) : M σ Unit := do
  let mmm := op &&& 7
  let ea ← ea mmm lo
  let isHi : Bool := op &&& 8 ≠ 0
  if rrr = 7 then
    if isHi then setReg fun r => { r with ic := ea }
    else do
      push (← reg CpuRegister.ic)
      setReg fun r => { r with ic := ea }
  else if mmm = 7 then do
    let cur ← rdC ea
    let res := if isHi then cur + 1 else cur - 1
    wrC ea res
    if res = 0 then skipNext else pure ()
  else if isHi then do sw rrr (← rdC ea)
  else do wrC ea (← gr rrr)

/-- `exec_01` -/
def exec01 (rrr lo : U16) : M σ Unit := do
  if rrr ≠ 7 then do
    sw rrr (((← gr rrr) &&& 0xff00) ||| lo)
  else
    let bit7 := (lo >>> 7) &&& 1
    let bBits := (lo >>> 4) &&& 7
    let bit3 := (lo >>> 3) &&& 1
    let bLo := lo &&& 7
    if bLo = 7 then do
      let ad16 ← fetch
      if bit7 = 0 ∧ bit3 = 0 then
        if bBits ≠ 0 then do setSegReg bBits ((← rdC ad16) &&& 0xf) else pure ()
      else if bit7 = 0 ∧ bit3 = 1 then do setSpecReg bBits (← rdC ad16)
      else if bit7 = 1 ∧ bit3 = 0 then do wrC ad16 (← getSegReg bBits)
      else do wrC ad16 (← getSpecReg bBits)
    else
      if bit7 = 1 ∧ bit3 = 0 then do sw bLo (← getSegReg bBits)
      else if bit7 = 1 ∧ bit3 = 1 then do sw bLo (← getSpecReg bBits)
      else if bit7 = 0 ∧ bit3 = 0 then
        if bBits ≠ 0 then do setSegReg bBits ((← gr bLo) &&& 0xf) else pure ()
      else do setSpecReg bBits (← gr bLo)

variable (io : Io σ)

/-- `exec_02` -/
def exec02 (rrr lo : U16) : M σ Unit := do
  if rrr ≠ 7 then do doIoWrite io lo (← gr rrr)
  else if lo = 0x0f then do
    push (← reg fun r => r.r 0)
    push (← reg fun r => r.r 1)
    push (← reg fun r => r.r 2)
    push (← reg fun r => r.r 3)
    push (← reg fun r => r.r 4)
  else if lo = 0x07 then do
    setR 4 (← pop)
    setR 3 (← pop)
    setR 2 (← pop)
    setR 1 (← pop)
    setR 0 (← pop)
  else do
    let ad16 ← fetch
    let kkkk := (lo >>> 4) &&& 0xf
    let sss := lo &&& 7
    let mem ← rdC ad16
    let rs ← gr sss
    let test := mem &&& rs
    let res := if lo &&& 8 ≠ 0 then mem ||| rs else mem &&& ~~~rs
    wrC ad16 res
    skipIf kkkk test

/-- FIX -/
def execFix (kkkk : U16) : M σ Unit := do
  let v := trunc (← fpDecode)
  let ov : Bool := v > 32767 ∨ v < -32768
  setE false
  setOvf ov
  setR 0 (if ov then 0 else v.toInt16.toBitVec)
  skipIf kkkk (← reg fun r => r.r 0)

/-- FLT -/
def execFlt (kkkk : U16) : M σ Unit := do
  let s16 := (← reg fun r => r.r 0).toInt
  fpEncode (Float.ofInt s16)
  setE false
  skipIf kkkk (← dr0)

/-- `exec_03` -/
def exec03 (rrr lo : U16) : M σ Unit := do
  if rrr ≠ 7 then do sw rrr (← doIoRead io lo)
  else
    let kkkk := (lo >>> 4) &&& 0xf
    let bit3 := (lo >>> 3) &&& 1
    let bit2 := (lo >>> 2) &&& 1
    if bit2 = 1 then
      if bit3 = 0 then execFix kkkk else execFlt kkkk
    else do
      let ddd := lo &&& 7
      let carry : U16 := if ← carryIn bit3 then 1 else 0
      let r1 ← sub16 0 (← gr ddd)
      let r2 ← sub16 r1 carry
      sw ddd r2
      skipIf kkkk r2

/-- The link of BALR and BALL: push `IC`, then `CSBR`. -/
def pushLink (link : Bool) : M σ Unit := do
  if link then do
    push (← reg CpuRegister.ic)
    push ((← reg CpuRegister.csbr).setWidth 16)
  else pure ()

/-- Load a new `CSBR` and `IC` from the two words at `base`. -/
def loadCsIc (base : U16) : M σ Unit := do
  let nc := (← rdB base (← reg CpuRegister.csbr)) &&& 0xf
  let ni ← rdB (base + 1) (← reg CpuRegister.csbr)
  setReg fun r => { r with csbr := nc.setWidth 8 }
  setReg fun r => { r with ic := ni }

/-- `exec_seg_branch` -/
def execSegBranch (ii : U16) (link : Bool) : M σ Unit := do
  let base ← ri ii
  pushLink link
  loadCsIc base

/-- LPSW -/
def execLpsw (ll : U16) : M σ Unit := do
  let str ← rdPhys (phys (ll * 2) 0)
  setReg fun r => { r with str := str }
  let ic ← rdPhys (phys (ll * 2 + 1) 0)
  setReg fun r => { r with ic := ic }
  setReg fun r => { r with csbr := r.osr (Fin.ofNat 4 ll.toNat) &&& 0xf }

/-- LD / STD / BL / BALL -/
def execLong (lo : U16) : M σ Unit := do
  let bb := (lo >>> 4) &&& 3
  let dest := lo &&& 7
  let ad16 ← fetch
  if lo &&& 0x40 = 0 then
    if dest = 7 then do
      pushLink (bb = 1)
      loadCsIc ad16
    else do sw dest (← rdB ad16 (← seg bb))
  else do
    let v ← gr dest
    wrB ad16 v (← seg bb)

/-- The address of LR and STR, with its automatic decrement or increment. -/
def rindirect (b76 b10 : U16) : M σ U16 := do
  if b76 = 1 then ri b10
  else if b76 = 2 then do
    riSet b10 ((← ri b10) - 1)
    ri b10
  else do
    let ea ← ri b10
    riSet b10 ((← ri b10) + 1)
    return ea

/-- SR -/
def execSr (rrr kkkk ee : U16) : M σ Unit := do
  applyEE ee
  let a ← gr rrr
  let eIn : U16 := if ← flagE then 0x8000 else 0
  setE (a &&& 1 ≠ 0)
  let res := (a >>> 1) ||| eIn
  sw rrr res
  skipIf kkkk res

/-- SL -/
def execSl (rrr kkkk ee : U16) : M σ Unit := do
  applyEE ee
  let a ← gr rrr
  let eIn : U16 := if ← flagE then 1 else 0
  setE (a &&& 0x8000 ≠ 0)
  let res := ((a <<< 1) ||| eIn) &&& 0xffff
  sw rrr res
  skipIf kkkk res

/-- `exec_04` -/
def exec04 (rrr lo : U16) : M σ Unit := do
  let b32 := (lo >>> 2) &&& 3
  let b76 := (lo >>> 6) &&& 3
  let b54 := (lo >>> 4) &&& 3
  let b10 := lo &&& 3
  let kkkk := (lo >>> 4) &&& 0xf
  let ee := b10
  if rrr = 0 ∧ lo = 0x00 then modify fun s => { s with execStatus := .halted }
  else if rrr = 0 ∧ lo = 0x03 then do
    let ic ← pop
    setReg fun r => { r with ic := ic }
  else if rrr = 0 ∧ lo ≥ 0x04 ∧ lo ≤ 0x07 then execLpsw (lo &&& 3)
  else if rrr = 6 ∧ lo = 0x07 then do
    let dest ← fetch
    setReg fun r => { r with ic := dest }
  else if rrr = 6 ∧ lo = 0x17 then do
    let dest ← fetch
    push (← reg CpuRegister.ic)
    setReg fun r => { r with ic := dest }
  else if rrr = 7 ∧ lo &&& 0xfc = 0x04 then execSegBranch b10 false
  else if rrr = 7 ∧ lo &&& 0xfc = 0x14 then execSegBranch b10 true
  else if rrr = 7 ∧ lo &&& 0x08 ≠ 0 then execLong lo
  else if lo = 0x01 then do push (← gr rrr)
  else if lo = 0x02 then do sw rrr (← pop)
  else if b32 = 0 ∧ b76 ≠ 0 then do
    let seg ← seg b54
    let ea ← rindirect b76 b10
    sw rrr (← rdB ea seg)
  else if b32 = 1 ∧ b76 ≠ 0 then do
    let seg ← seg b54
    let ea ← rindirect b76 b10
    wrB ea (← gr rrr) seg
  else if b32 = 2 then execSr rrr kkkk ee
  else if b32 = 3 then execSl rrr kkkk ee
  else if lo >>> 4 = 1 ∧ b32 = 1 ∧ rrr ≠ 7 then do
    sw rrr (← doIoRead io (← ri b10))
  else if lo >>> 4 = 1 ∧ b32 = 0 then do
    let port ← ri b10
    doIoWrite io port (← gr rrr)
  else trapUndefined

/-- TBIT -/
def exec05 (rrr lo : U16) : M σ Unit := do
  let kkkk := (lo >>> 4) &&& 0xf
  let mask := bitMask (lo &&& 0xf)
  skipIf kkkk ((← gr rrr) &&& mask)

/-- RBIT -/
def exec06 (rrr lo : U16) : M σ Unit := do
  let kkkk := (lo >>> 4) &&& 0xf
  let mask := bitMask (lo &&& 0xf)
  let res := (← gr rrr) &&& ~~~mask
  sw rrr res
  skipIf kkkk res

/-- The loop of BLK. -/
def blkLoop : Nat → M σ Unit
  | 0 => pure ()
  | n + 1 => do
      if (← reg fun r => r.r 0) ≠ 0 then do
        let v ← rdB (← reg fun r => r.r 1) (← reg CpuRegister.tsr0)
        wrB (← reg fun r => r.r 2) v (← reg CpuRegister.tsr1)
        setReg fun r => { r with r := Function.update r.r 1 (r.r 1 + 1) }
        setReg fun r => { r with r := Function.update r.r 2 (r.r 2 + 1) }
        setReg fun r => { r with r := Function.update r.r 0 (r.r 0 - 1) }
        blkLoop n
      else pure ()

/-- The loop of BLK ends after at most this many rounds (see `Mn1613Checked.blkLoop_run`). -/
def BLK_ROUNDS : Nat := 0x10000

/-- `exec_07` -/
def exec07 (rrr lo : U16) : M σ Unit := do
  if rrr ≠ 7 then do
    let kkkk := (lo >>> 4) &&& 0xf
    let mask := bitMask (lo &&& 0xf)
    let res := (← gr rrr) ||| mask
    sw rrr res
    skipIf kkkk res
  else if lo = 0x07 then do
    let cs ← pop
    setReg fun r => { r with csbr := (cs &&& 0xf).setWidth 8 }
    let ic ← pop
    setReg fun r => { r with ic := ic }
  else if lo = 0x17 then blkLoop BLK_ROUNDS
  else if lo >>> 4 = 0x7 ∧ lo &&& 8 = 0 then do
    let sss := lo &&& 7
    let r := srbt (← gr sss)
    setR 0 r.1
    sw sss r.2
  else if lo >>> 4 = 0xf ∧ lo &&& 8 = 0 then do
    let ddd2 := lo &&& 7
    let r0 ← reg fun r => r.r 0
    sw ddd2 ((← gr ddd2) ||| bitMask (r0 &&& 0xf))
  else
    let bit7 := (lo >>> 7) &&& 1
    let hhh := (lo >>> 4) &&& 7
    let rdSrc := lo &&& 7
    if bit7 ≠ 0 then do sw rdSrc (← getHwReg hhh)
    else do setHwReg hhh (← gr rdSrc)

/-- Write the two halves of a double-word result to `R0` and `R1`. -/
def setDr0 {w : Nat} (du : BitVec w) : M σ Unit := do
  setR 0 ((du >>> 16 &&& 0xffff).setWidth 16)
  setR 1 ((du &&& 0xffff).setWidth 16)

/-- `exec_08` -/
def exec08 (rrr lo : U16) : M σ Unit := do
  let kkkk := (lo >>> 4) &&& 0xf
  if rrr = 7 ∧ lo &&& 4 ≠ 0 then do
    let c := (lo >>> 3) &&& 1
    let ii := lo &&& 3
    let ea ← ri ii
    let mh := (← rdC ea).setWidth 64
    let ml := (← rdC (ea + 1)).setWidth 64
    let e0 : BitVec 64 := if ← carryIn c then 1 else 0
    let r ← reg fun r => r.r
    let d : BitVec 64 :=
      (r 0).setWidth 64 * 65536 + (r 1).setWidth 64 - (mh * 65536 + ml) - e0
    setE (d.slt 0)
    setOvf false
    setDr0 (if d.slt 0 then d + 0x100000000 else d)
    skipIf kkkk (← dr0)
  else do
    let dddd := lo &&& 0xf
    let siRes := (← gr rrr) - dddd
    sw rrr siRes
    skipIf kkkk siRes

/-- `exec_09` -/
def exec09 (rrr lo : U16) : M σ Unit := do
  let kkkk := (lo >>> 4) &&& 0xf
  if rrr = 7 ∧ lo &&& 4 ≠ 0 then do
    let c := (lo >>> 3) &&& 1
    let ii := lo &&& 3
    let ea ← ri ii
    let mh := (← rdC ea).setWidth 64
    let ml := (← rdC (ea + 1)).setWidth 64
    let e0 : BitVec 64 := if ← carryIn c then 1 else 0
    let r ← reg fun r => r.r
    let d : BitVec 64 :=
      (r 0).setWidth 64 * 65536 + (r 1).setWidth 64 + (mh * 65536 + ml) + e0
    setE (d > 0xffffffff)
    setOvf false
    setDr0 (d.setWidth 32)
    skipIf kkkk (← dr0)
  else do
    let aiRes := (← gr rrr) + (lo &&& 0xf)
    sw rrr aiRes
    skipIf kkkk aiRes

/-- `exec_0a` -/
def exec0a (rrr lo : U16) : M σ Unit := do
  let kkkk := (lo >>> 4) &&& 0xf
  let b32 := (lo >>> 2) &&& 3
  let b10 := lo &&& 3
  let b3 := (lo >>> 3) &&& 1
  if rrr = 7 then
    if lo &&& 4 ≠ 0 then do
      let c := b3
      let ii := b10
      let m ← rdC (← ri ii)
      let e0 : U32 := if ← carryIn c then 1 else 0
      let r0 ← reg fun r => r.r 0
      let res : U32 := r0.setWidth 32 - m.setWidth 32 - e0
      setE (res.slt 0)
      let res :=
        if ((r0 &&& 0xf).setWidth 32 - (m &&& 0xf).setWidth 32 - e0).slt 0 then res - 0x06
        else res
      let res :=
        if ((r0 >>> 4 &&& 0xf).setWidth 32 - (m >>> 4 &&& 0xf).setWidth 32 : U32).slt 0 then
          res - 0x60
        else res
      setR 0 (res.setWidth 16)
      skipIf kkkk (← reg fun r => r.r 0)
    else if b32 = 2 then do
      let rhs ← rdC (← ri b10)
      let res ← sub16 (← reg fun r => r.r 0) rhs
      skipIf kkkk res
    else do
      let rhs := (← rdC (← ri b10)) &&& 0xff
      let res ← sub16 ((← reg fun r => r.r 0) &&& 0xff) rhs
      skipIf kkkk res
  else if b3 = 1 ∧ lo &&& 7 = 7 then do
    let imm ← fetch
    skipIf kkkk (← sub16 (← gr rrr) imm)
  else if b3 = 0 ∧ lo &&& 7 = 7 then do
    let imm ← fetch
    skipIf kkkk (← sub16 ((← gr rrr) &&& 0xff) (imm &&& 0xff))
  else if b3 = 1 then do
    let x ← gr rrr
    skipIf kkkk (← sub16 x (← gr (lo &&& 7)))
  else do
    let x ← gr rrr
    skipIf kkkk (← sub16 (x &&& 0xff) ((← gr (lo &&& 7)) &&& 0xff))

/-- Store a result in a register and test it for the skip. -/
def swSkip (rrr kkkk res : U16) : M σ Unit := do
  sw rrr res
  skipIf kkkk res

/-- Store a result in `R0` and test it for the skip. -/
def setR0Skip (kkkk res : U16) : M σ Unit := do
  setR 0 res
  skipIf kkkk res

/-- `exec_0b` -/
def exec0b (rrr lo : U16) : M σ Unit := do
  let kkkk := (lo >>> 4) &&& 0xf
  let b32 := (lo >>> 2) &&& 3
  let b10 := lo &&& 3
  let b3 := (lo >>> 3) &&& 1
  if rrr = 7 then
    if lo &&& 4 ≠ 0 then do
      let c := b3
      let ii := b10
      let m ← rdC (← ri ii)
      let e0 : U32 := if ← carryIn c then 1 else 0
      let r0 ← reg fun r => r.r 0
      let res : U32 := r0.setWidth 32 + m.setWidth 32 + e0
      setE (res > 0xffff)
      let res :=
        if (r0 &&& 0xf).setWidth 32 + (m &&& 0xf).setWidth 32 + e0 > 9 then res + 0x06
        else res
      let res := if (res >>> 8) &&& 0xff > 0x99 then res + 0x0600 else res
      setR 0 ((res &&& 0xffff).setWidth 16)
      skipIf kkkk (← reg fun r => r.r 0)
    else if b32 = 2 then do
      let rhs ← rdC (← ri b10)
      let res ← add16 (← reg fun r => r.r 0) rhs
      setR0Skip kkkk res
    else if b32 = 0 then do
      let rhs ← rdC (← ri b10)
      let res ← sub16 (← reg fun r => r.r 0) rhs
      setR0Skip kkkk res
    else if b3 = 1 ∧ lo &&& 7 = 7 then do
      let imm ← fetch
      let res ← add16 (← reg CpuRegister.ic) imm
      setReg fun r => { r with ic := res }
      skipIf kkkk res
    else do
      let imm ← fetch
      let res ← sub16 (← reg CpuRegister.ic) imm
      setReg fun r => { r with ic := res }
      skipIf kkkk res
  else if b3 = 1 ∧ lo &&& 7 = 7 then do
    let imm ← fetch
    let res ← add16 (← gr rrr) imm
    swSkip rrr kkkk res
  else if b3 = 0 ∧ lo &&& 7 = 7 then do
    let imm ← fetch
    let res ← sub16 (← gr rrr) imm
    swSkip rrr kkkk res
  else if b3 = 1 then do
    let x ← gr rrr
    let res ← add16 x (← gr (lo &&& 7))
    swSkip rrr kkkk res
  else do
    let x ← gr rrr
    let res ← sub16 x (← gr (lo &&& 7))
    swSkip rrr kkkk res

/-- FM, FA or FS. -/
def execFloat (f : Float → Float → Float) (kkkk b10 : U16) : M σ Unit := do
  let rhs ← fpDecodeAt (← ri b10)
  let lhs ← fpDecode
  fpEncode (f lhs rhs)
  fpFinish kkkk

/-- FD -/
def execFd (kkkk b10 : U16) : M σ Unit := do
  let me ← fpDecodeAt (← ri b10)
  if me == 0 then do
    setOvf true
    setE false
    skipIf kkkk (← dr0)
  else do
    fpEncode ((← fpDecode) / me)
    fpFinish kkkk

/-- `exec_0c` -/
def exec0c (rrr lo : U16) : M σ Unit := do
  let kkkk := (lo >>> 4) &&& 0xf
  let b32 := (lo >>> 2) &&& 3
  let b10 := lo &&& 3
  let b3 := (lo >>> 3) &&& 1
  if rrr = 7 then
    if b32 = 3 then execFloat (· * ·) kkkk b10
    else if b32 = 1 then execFd kkkk b10
    else if b32 = 2 then do
      let r0 ← reg fun r => r.r 0
      setR0Skip kkkk (r0 ||| (← rdC (← ri b10)))
    else do
      let r0 ← reg fun r => r.r 0
      setR0Skip kkkk (r0 ^^^ (← rdC (← ri b10)))
  else if b3 = 1 ∧ lo &&& 7 = 7 then do
    let imm ← fetch
    swSkip rrr kkkk ((← gr rrr) ||| imm)
  else if b3 = 0 ∧ lo &&& 7 = 7 then do
    let imm ← fetch
    swSkip rrr kkkk ((← gr rrr) ^^^ imm)
  else if b3 = 1 then do
    let x ← gr rrr
    swSkip rrr kkkk (x ||| (← gr (lo &&& 7)))
  else do
    let x ← gr rrr
    swSkip rrr kkkk (x ^^^ (← gr (lo &&& 7)))

/-- `exec_0d` -/
def exec0d (rrr lo : U16) : M σ Unit := do
  let kkkk := (lo >>> 4) &&& 0xf
  let b32 := (lo >>> 2) &&& 3
  let b10 := lo &&& 3
  let b3 := (lo >>> 3) &&& 1
  if rrr = 7 then
    if b32 = 3 then execFloat (· + ·) kkkk b10
    else if b32 = 1 then execFloat (· - ·) kkkk b10
    else if b32 = 2 then do
      let r0 ← reg fun r => r.r 0
      setR0Skip kkkk (r0 &&& (← rdC (← ri b10)))
    else do
      let m ← rdC (← ri b10)
      setR0Skip kkkk (ladResult (← reg fun r => r.r 0) m)
  else if b3 = 1 ∧ lo &&& 7 = 7 then do
    let imm ← fetch
    swSkip rrr kkkk ((← gr rrr) &&& imm)
  else if b3 = 0 ∧ lo &&& 7 = 7 then do
    let imm ← fetch
    swSkip rrr kkkk (ladResult (← gr rrr) imm)
  else if b3 = 1 then do
    let x ← gr rrr
    swSkip rrr kkkk (x &&& (← gr (lo &&& 7)))
  else do
    let x ← gr rrr
    swSkip rrr kkkk (ladResult x (← gr (lo &&& 7)))

/-- `exec_0e` -/
def exec0e (rrr lo : U16) : M σ Unit := do
  let kkkk := (lo >>> 4) &&& 0xf
  let b32 := (lo >>> 2) &&& 3
  let b10 := lo &&& 3
  let b3 := (lo >>> 3) &&& 1
  if rrr = 7 then
    if b32 = 3 then do
      let div ← rdC (← ri b10)
      setE false
      if div = 0 then setOvf true
      else do
        let r ← reg fun r => r.r
        let n32 : U32 := ((r 0).setWidth 32 <<< 16) ||| (r 1).setWidth 32
        let q := n32 / div.setWidth 32
        let rem := n32 % div.setWidth 32
        if q > 0xffff then setOvf true
        else do
          setOvf false
          setR 0 ((q &&& 0xffff).setWidth 16)
          setR 1 ((rem &&& 0xffff).setWidth 16)
          skipIf kkkk (← reg fun r => r.r 0)
    else if b32 = 2 then do
      let v ← rdC (← ri b10)
      let res := ((v &&& 0xff) <<< 8) ||| (v >>> 8)
      setR0Skip kkkk res
    else do
      setR0Skip kkkk (dswp (← rdC (← ri b10)))
  else if b3 = 1 then do
    let v ← gr (lo &&& 7)
    swSkip rrr kkkk (((v &&& 0xff) <<< 8) ||| (v >>> 8))
  else do
    swSkip rrr kkkk (dswp (← gr (lo &&& 7)))

/-- `exec_0f` -/
def exec0f (rrr lo : U16) : M σ Unit := do
  let kkkk := (lo >>> 4) &&& 0xf
  let b32 := (lo >>> 2) &&& 3
  let b10 := lo &&& 3
  let b3 := (lo >>> 3) &&& 1
  if rrr = 7 then
    if b32 = 3 then do
      let r0 ← reg fun r => r.r 0
      let p : U32 := r0.setWidth 32 * (← rdC (← ri b10)).setWidth 32
      setOvf false
      setE false
      setDr0 p
      skipIf kkkk (← dr0)
    else if b32 = 2 then do
      setR0Skip kkkk (← rdC (← ri b10))
    else if b3 = 0 ∧ lo &&& 7 = 7 then do
      let ic ← fetch
      setReg fun r => { r with ic := ic }
    else do
      let r0 ← reg fun r => r.r 0
      setR0Skip kkkk ((r0 &&& 0xff00) ||| ((← rdC (← ri b10)) &&& 0xff))
  else if lo &&& 7 = 7 ∧ b3 = 0 then do
    let imm ← fetch
    swSkip rrr kkkk imm
  else if b3 = 1 then do
    swSkip rrr kkkk (← gr (lo &&& 7))
  else do
    let x ← gr rrr
    swSkip rrr kkkk ((x &&& 0xff00) ||| ((← gr (lo &&& 7)) &&& 0xff))

/-- The decoder of `execute_one` with `exec_low`, for a word already fetched. -/
def execute (ir : U16) : M σ Unit :=
  let op := (ir >>> 11) &&& 0x1f
  let rrr := (ir >>> 8) &&& 0x7
  let lo := ir &&& 0xff
  if op ≥ 0x10 then execMemory op rrr lo
  else
    match op.toNat with
    | 0x00 => trapUndefined
    | 0x01 => exec01 rrr lo
    | 0x02 => exec02 io rrr lo
    | 0x03 => exec03 io rrr lo
    | 0x04 => exec04 io rrr lo
    | 0x05 => exec05 rrr lo
    | 0x06 => exec06 rrr lo
    | 0x07 => exec07 rrr lo
    | 0x08 => exec08 rrr lo
    | 0x09 => exec09 rrr lo
    | 0x0a => exec0a rrr lo
    | 0x0b => exec0b rrr lo
    | 0x0c => exec0c rrr lo
    | 0x0d => exec0d rrr lo
    | 0x0e => exec0e rrr lo
    | 0x0f => exec0f rrr lo
    | _ => trapUndefined

/-- `if self.pending_irq != 0 { self.handle_irq(ram); }` -/
def checkIrq : M σ Unit := do
  if (← get).pendingIrq ≠ 0 then handleIrq else pure ()

theorem checkIrq_pending {s : Core σ} (h : s.pendingIrq ≠ 0) : checkIrq.run s = handleIrq.run s := by
  simp only [checkIrq, run_bind, run_get, if_pos h]

theorem checkIrq_idle {s : Core σ} (h : s.pendingIrq = 0) : checkIrq.run s = ((), s) := by
  simp only [checkIrq, run_bind, run_get, h, ne_eq, not_true_eq_false, if_false, run_pure]

/-- `execute_one` -/
def executeOne : M σ Unit := do
  checkIrq
  let ir ← fetch
  execute io ir

/-- The state after one `execute_one`. -/
def step (s : Core σ) : Core σ := ((executeOne io).run s).2

end Mn1613
end EmuRs
end RetroCpu
