import RetroCpu.EmuTs.Mn1613Float

/-!
# The TypeScript MN1613 core: instruction execution

`execute` is the decoder of `_executeOne` (`mn1613.ts`): one definition for each
arm of its `switch`, with the conditions in the order of the source.  `executeOne`
adds the interrupt check and the fetch.
-/

namespace RetroCpu
namespace EmuTs
namespace Mn1613

open Js Prog RetroCpu.Mn1613

variable {σ : Type}

section Helpers

/-- One step of the loop of `_ladResult`. -/
def ladNibble (a b res : Int) (shift : Int) : Int :=
  let na := land (ushr a shift) 0xf
  let nb := land (ushr b shift) 0xf
  lor res (shl (if na + nb > 9 then 6 else 0) shift)

/-- `_ladResult` -/
def ladResult (a b : Int) : Int :=
  land ([0, 4, 8, 12].foldl (ladNibble a b) 0) 0xffff

/-- `_dswp` -/
def dswp (v : Int) : Int :=
  let lo4 := land v 0x000f
  let nib1 := land (ushr v 4) 0x000f
  let nib2 := land (ushr v 8) 0x000f
  let hi4 := land (ushr v 12) 0x000f
  lor (lor (lor (shl hi4 12) (shl nib1 8)) (shl nib2 4)) lo4

/-- `1 << (15 - n)`: the mask of bit `n` counted from the most significant one. -/
def bitMask (n : Int) : Int := shl 1 (15 - n)

/-- The bit numbers that the loop of SRBT tries, in its order. -/
def srbtBits : List Int := [15, 14, 13, 12, 11, 10, 9, 8, 7, 6, 5, 4, 3, 2, 1, 0]

/-- Position and remaining value of SRBT. -/
def srbt (v : Int) : Int × Int :=
  match srbtBits.find? (fun b => land (ushr v b) 1 ≠ 0) with
  | some b => (15 - b, land v (lnot (shl 1 b)))
  | none => (0x10, v)

end Helpers

variable (bd : Board σ)

/-- `_ea`: relative addresses count from the instruction itself. -/
def ea (mmm d : Int) : M σ Int := do
  let sd := if d < 0x80 then d else d - 0x100
  let insnIc := land ((← reg CPURegister.IC) - 1) 0xffff
  match (land mmm 7).toNat with
  | 0 => return land d 0xff
  | 1 => return land (insnIc + sd) 0xffff
  | 2 => rdC bd (land d 0xff)
  | 3 => rdC bd (land (insnIc + sd) 0xffff)
  | 4 => return land ((← reg fun r => r.R 3) + land d 0xff) 0xffff
  | 5 => return land ((← reg fun r => r.R 4) + land d 0xff) 0xffff
  | 6 => do
      let x ← reg fun r => r.R 3
      return land (x + (← rdC bd (land d 0xff))) 0xffff
  | _ => do
      let x ← reg fun r => r.R 4
      return land (x + (← rdC bd (land d 0xff))) 0xffff

/-- `op >= 0x10`: L / B / IMS and ST / BAL / DMS. -/
def execMemory (op rrr lo : Int) : M σ Unit := do
  let mmm := land op 7
  let ea ← ea bd mmm lo
  let isHi : Bool := land op 8 ≠ 0
  if rrr = 7 then
    if isHi then setReg fun r => { r with IC := ea }
    else do
      push bd (← reg CPURegister.IC)
      setReg fun r => { r with IC := ea }
  else if mmm = 7 then do
    let cur ← rdC bd ea
    let res := if isHi then land (cur + 1) 0xffff else land (cur - 1) 0xffff
    wrC bd ea res
    if res = 0 then skipNext bd else pure ()
  else if isHi then do sw rrr (← rdC bd ea)
  else do wrC bd ea (← gr rrr)

/-- MVI / LB / LS / STB / STS / CPYB / CPYS / SETB / SETS -/
def exec01 (rrr lo : Int) : M σ Unit := do
  if rrr ≠ 7 then do
    sw rrr (lor (land (← gr rrr) 0xff00) lo)
  else
    let bit7 := land (ushr lo 7) 1
    let bBits := land (ushr lo 4) 7
    let bit3 := land (ushr lo 3) 1
    let bLo := land lo 7
    if bLo = 7 then do
      let ad16 ← fetch bd
      if bit7 = 0 ∧ bit3 = 0 then
        if bBits ≠ 0 then do setSegReg bBits (land (← rdC bd ad16) 0xf) else pure ()
      else if bit7 = 0 ∧ bit3 = 1 then do setSpecReg bBits (← rdC bd ad16)
      else if bit7 = 1 ∧ bit3 = 0 then do wrC bd ad16 (← getSegReg bBits)
      else do wrC bd ad16 (← getSpecReg bBits)
    else
      if bit7 = 1 ∧ bit3 = 0 then do sw bLo (← getSegReg bBits)
      else if bit7 = 1 ∧ bit3 = 1 then do sw bLo (← getSpecReg bBits)
      else if bit7 = 0 ∧ bit3 = 0 then
        if bBits ≠ 0 then do setSegReg bBits (land (← gr bLo) 0xf) else pure ()
      else do setSpecReg bBits (← gr bLo)

/-- WT / PSHM / POPM / TSET / TRST -/
def exec02 (rrr lo : Int) : M σ Unit := do
  if rrr ≠ 7 then do doIoWrite bd lo (← gr rrr)
  else if lo = 0x0f then do
    push bd (← reg fun r => r.R 0)
    push bd (← reg fun r => r.R 1)
    push bd (← reg fun r => r.R 2)
    push bd (← reg fun r => r.R 3)
    push bd (← reg fun r => r.R 4)
  else if lo = 0x07 then do
    setR 4 (← pop bd)
    setR 3 (← pop bd)
    setR 2 (← pop bd)
    setR 1 (← pop bd)
    setR 0 (← pop bd)
  else do
    let ad16 ← fetch bd
    let kkkk := land (ushr lo 4) 0xf
    let sss := land lo 7
    let mem ← rdC bd ad16
    let rs ← gr sss
    let test := land mem rs
    let res := if land lo 8 ≠ 0 then lor mem rs else land mem (lnot rs)
    wrC bd ad16 (land res 0xffff)
    skipIf bd kkkk test

/-- FIX R0, DR0 -/
def execFix (kkkk : Int) : M σ Unit := do
  let v := trunc (← fpDecode)
  let ov : Bool := v > 32767 ∨ v < -32768
  setE false
  setOVF ov
  setR 0 (if ov then 0 else land (ofDouble v) 0xffff)
  skipIf bd kkkk (← reg fun r => r.R 0)

/-- FLT DR0, R0 -/
def execFlt (kkkk : Int) : M σ Unit := do
  let r0 ← reg fun r => r.R 0
  let s16 := if r0 < 0x8000 then r0 else r0 - 0x10000
  fpEncode (toDouble s16)
  setE false
  skipIf bd kkkk (← dr0)

/-- RD / NEG / FIX / FLT -/
def exec03 (rrr lo : Int) : M σ Unit := do
  if rrr ≠ 7 then do sw rrr (land (← doIoRead bd lo) 0xffff)
  else
    let kkkk := land (ushr lo 4) 0xf
    let bit3 := land (ushr lo 3) 1
    let bit2 := land (ushr lo 2) 1
    if bit2 = 1 then
      if bit3 = 0 then execFix bd kkkk else execFlt bd kkkk
    else do
      let ddd := land lo 7
      let carry : Int := if ← carryIn bit3 then 1 else 0
      let r1 ← sub 0 (← gr ddd)
      let r2 ← sub r1 carry
      sw ddd r2
      skipIf bd kkkk r2

/-- The link of BALR and BALL: push `IC`, then `CSBR`. -/
def pushLink (link : Bool) : M σ Unit := do
  if link then do
    push bd (← reg CPURegister.IC)
    push bd (← reg CPURegister.CSBR)
  else pure ()

/-- Load a new `CSBR` and `IC` from the two words at `base`. -/
def loadCsIc (base : Int) : M σ Unit := do
  let nc := land (← rdB bd base (← reg CPURegister.CSBR)) 0xf
  let ni ← rdB bd (land (base + 1) 0xffff) (← reg CPURegister.CSBR)
  setReg fun r => { r with CSBR := nc }
  setReg fun r => { r with IC := ni }

/-- `_execSegBranch`: BR and BALR. -/
def execSegBranch (ii : Int) (link : Bool) : M σ Unit := do
  let base ← ri ii
  pushLink bd link
  loadCsIc bd base

/-- LPSW -/
def execLpsw (ll : Int) : M σ Unit := do
  let str ← rdPhys bd (phys (ll * 2) 0)
  setReg fun r => { r with STR := str }
  let ic ← rdPhys bd (phys (ll * 2 + 1) 0)
  setReg fun r => { r with IC := ic }
  setReg fun r => { r with CSBR := land (r.OSR (Fin.ofNat 4 ll.toNat)) 0xf }

/-- LD / STD / BL / BALL -/
def execLong (lo : Int) : M σ Unit := do
  let bb := land (ushr lo 4) 3
  let dest := land lo 7
  let ad16 ← fetch bd
  if land lo 0x40 = 0 then
    if dest = 7 then do
      pushLink bd (bb = 1)
      loadCsIc bd ad16
    else do sw dest (← rdB bd ad16 (← seg bb))
  else do
    let v ← gr dest
    wrB bd ad16 v (← seg bb)

/-- The address of LR and STR, with its automatic decrement or increment. -/
def rindirect (b76 b10 : Int) : M σ Int := do
  if b76 = 1 then ri b10
  else if b76 = 2 then do
    riSet b10 (land ((← ri b10) - 1) 0xffff)
    ri b10
  else do
    let ea ← ri b10
    riSet b10 (land ((← ri b10) + 1) 0xffff)
    return ea

/-- SR -/
def execSr (rrr kkkk ee : Int) : M σ Unit := do
  applyEE ee
  let a ← gr rrr
  let eIn : Int := if ← flagE then 0x8000 else 0
  setE (land a 1 ≠ 0)
  let res := land (lor (ushr a 1) eIn) 0xffff
  sw rrr res
  skipIf bd kkkk res

/-- SL -/
def execSl (rrr kkkk ee : Int) : M σ Unit := do
  applyEE ee
  let a ← gr rrr
  let eIn : Int := if ← flagE then 1 else 0
  setE (land a 0x8000 ≠ 0)
  let res := land (lor (shl a 1) eIn) 0xffff
  sw rrr res
  skipIf bd kkkk res

/-- `_exec04` -/
def exec04 (rrr lo : Int) : M σ Unit := do
  let b32 := land (ushr lo 2) 3
  let b76 := land (ushr lo 6) 3
  let b54 := land (ushr lo 4) 3
  let b10 := land lo 3
  let kkkk := land (ushr lo 4) 0xf
  let ee := b10
  if rrr = 0 ∧ lo = 0x00 then modify fun s => { s with execStatus := .halted }
  else if rrr = 0 ∧ lo = 0x03 then do
    let ic ← pop bd
    setReg fun r => { r with IC := ic }
  else if rrr = 0 ∧ lo ≥ 0x04 ∧ lo ≤ 0x07 then execLpsw bd (land lo 3)
  else if rrr = 6 ∧ lo = 0x07 then do
    let dest ← fetch bd
    setReg fun r => { r with IC := dest }
  else if rrr = 6 ∧ lo = 0x17 then do
    let dest ← fetch bd
    push bd (← reg CPURegister.IC)
    setReg fun r => { r with IC := dest }
  else if rrr = 7 ∧ land lo 0xfc = 0x04 then execSegBranch bd b10 false
  else if rrr = 7 ∧ land lo 0xfc = 0x14 then execSegBranch bd b10 true
  else if rrr = 7 ∧ land lo 0x08 ≠ 0 then execLong bd lo
  else if lo = 0x01 then do push bd (← gr rrr)
  else if lo = 0x02 then do sw rrr (← pop bd)
  else if b32 = 0 ∧ b76 ≠ 0 then do
    let seg ← seg b54
    let ea ← rindirect b76 b10
    sw rrr (← rdB bd ea seg)
  else if b32 = 1 ∧ b76 ≠ 0 then do
    let seg ← seg b54
    let ea ← rindirect b76 b10
    wrB bd ea (← gr rrr) seg
  else if b32 = 2 then execSr bd rrr kkkk ee
  else if b32 = 3 then execSl bd rrr kkkk ee
  else if ushr lo 4 = 1 ∧ b32 = 1 ∧ rrr ≠ 7 then do
    sw rrr (land (← doIoRead bd (← ri b10)) 0xffff)
  else if ushr lo 4 = 1 ∧ b32 = 0 then do
    let port ← ri b10
    doIoWrite bd port (← gr rrr)
  else trapUndefinedInsn bd

/-- TBIT -/
def exec05 (rrr lo : Int) : M σ Unit := do
  let kkkk := land (ushr lo 4) 0xf
  let mask := bitMask (land lo 0xf)
  skipIf bd kkkk (land (← gr rrr) mask)

/-- RBIT -/
def exec06 (rrr lo : Int) : M σ Unit := do
  let kkkk := land (ushr lo 4) 0xf
  let mask := bitMask (land lo 0xf)
  let res := land (land (← gr rrr) (lnot mask)) 0xffff
  sw rrr res
  skipIf bd kkkk res

/-- The loop of BLK; `R0` words from `TSR0:R1` to `TSR1:R2`. -/
def blkLoop : Nat → M σ Unit
  | 0 => pure ()
  | n + 1 => do
      if (← reg fun r => r.R 0) ≠ 0 then do
        let src ← rdB bd (← reg fun r => r.R 1) (← reg CPURegister.TSR0)
        wrB bd (← reg fun r => r.R 2) src (← reg CPURegister.TSR1)
        setReg fun r => { r with R := Function.update r.R 1 (land (r.R 1 + 1) 0xffff) }
        setReg fun r => { r with R := Function.update r.R 2 (land (r.R 2 + 1) 0xffff) }
        setReg fun r => { r with R := Function.update r.R 0 (land (r.R 0 - 1) 0xffff) }
        blkLoop n
      else pure ()

/-- The loop of BLK counts `R0` down, so it ends after at most this many rounds. -/
def BLK_ROUNDS : Nat := 0x10000

/-- SBIT / SRBT / DEBP / BLK / RETL / SETH / CPYH -/
def exec07 (rrr lo : Int) : M σ Unit := do
  if rrr ≠ 7 then do
    let kkkk := land (ushr lo 4) 0xf
    let mask := bitMask (land lo 0xf)
    let res := land (lor (← gr rrr) mask) 0xffff
    sw rrr res
    skipIf bd kkkk res
  else if lo = 0x07 then do
    let cs ← pop bd
    setReg fun r => { r with CSBR := land cs 0xf }
    let ic ← pop bd
    setReg fun r => { r with IC := ic }
  else if lo = 0x17 then blkLoop bd BLK_ROUNDS
  else if ushr lo 4 = 0x7 ∧ land lo 8 = 0 then do
    let sss := land lo 7
    let r := srbt (← gr sss)
    setR 0 r.1
    sw sss (land r.2 0xffff)
  else if ushr lo 4 = 0xf ∧ land lo 8 = 0 then do
    let ddd2 := land lo 7
    let r0 ← reg fun r => r.R 0
    sw ddd2 (land (lor (← gr ddd2) (bitMask (land r0 0xf))) 0xffff)
  else
    let bit7 := land (ushr lo 7) 1
    let hhh := land (ushr lo 4) 7
    let rdSrc := land lo 7
    if bit7 ≠ 0 then do sw rdSrc (← getHWReg hhh)
    else do setHWReg hhh (← gr rdSrc)

/-- Write the two halves of a double-word result to `R0` and `R1`. -/
def setDR0 (du : Int) : M σ Unit := do
  setR 0 (land (ushr du 16) 0xffff)
  setR 1 (land du 0xffff)

/-- SI / SD -/
def exec08 (rrr lo : Int) : M σ Unit := do
  let kkkk := land (ushr lo 4) 0xf
  if rrr = 7 ∧ land lo 4 ≠ 0 then do
    let c := land (ushr lo 3) 1
    let ii := land lo 3
    let ea ← ri ii
    let mh ← rdC bd ea
    let ml ← rdC bd (land (ea + 1) 0xffff)
    let e0 : Int := if ← carryIn c then 1 else 0
    let r ← reg fun r => r.R
    let d := r 0 * 65536 + r 1 - (mh * 65536 + ml) - e0
    setE (d < 0)
    setOVF false
    setDR0 (if d < 0 then d + 0x100000000 else d)
    skipIf bd kkkk (← dr0)
  else do
    let dddd := land lo 0xf
    let siRes := land ((← gr rrr) - dddd) 0xffff
    sw rrr siRes
    skipIf bd kkkk siRes

/-- AI / AD -/
def exec09 (rrr lo : Int) : M σ Unit := do
  let kkkk := land (ushr lo 4) 0xf
  if rrr = 7 ∧ land lo 4 ≠ 0 then do
    let c := land (ushr lo 3) 1
    let ii := land lo 3
    let ea ← ri ii
    let mh ← rdC bd ea
    let ml ← rdC bd (land (ea + 1) 0xffff)
    let e0 : Int := if ← carryIn c then 1 else 0
    let r ← reg fun r => r.R
    let d := r 0 * 65536 + r 1 + (mh * 65536 + ml) + e0
    setE (d > 0xffffffff)
    setOVF false
    setDR0 (ushr d 0)
    skipIf bd kkkk (← dr0)
  else do
    let aiRes := land ((← gr rrr) + land lo 0xf) 0xffff
    sw rrr aiRes
    skipIf bd kkkk aiRes

/-- C / CB / CWR / CWI / CBR / CBI / DAS -/
def exec0a (rrr lo : Int) : M σ Unit := do
  let kkkk := land (ushr lo 4) 0xf
  let b32 := land (ushr lo 2) 3
  let b10 := land lo 3
  let b3 := land (ushr lo 3) 1
  if rrr = 7 then
    if land lo 4 ≠ 0 then do
      let c := b3
      let ii := b10
      let m ← rdC bd (← ri ii)
      let e0 : Int := if ← carryIn c then 1 else 0
      let r0 ← reg fun r => r.R 0
      let res := r0 - m - e0
      setE (res < 0)
      let res := if land r0 0xf - land m 0xf - e0 < 0 then res - 0x06 else res
      let res :=
        if land (ushr r0 4) 0xf - land (ushr m 4) 0xf < 0 then res - 0x60 else res
      setR 0 (land res 0xffff)
      skipIf bd kkkk (← reg fun r => r.R 0)
    else if b32 = 2 then do
      let r0 ← reg fun r => r.R 0
      let res ← sub r0 (← rdC bd (← ri b10))
      skipIf bd kkkk res
    else do
      let r0 ← reg fun r => r.R 0
      let res ← sub (land r0 0xff) (land (← rdC bd (← ri b10)) 0xff)
      skipIf bd kkkk res
  else if b3 = 1 ∧ land lo 7 = 7 then do
    let imm ← fetch bd
    skipIf bd kkkk (← sub (← gr rrr) imm)
  else if b3 = 0 ∧ land lo 7 = 7 then do
    let imm ← fetch bd
    skipIf bd kkkk (← sub (land (← gr rrr) 0xff) (land imm 0xff))
  else if b3 = 1 then do
    let x ← gr rrr
    skipIf bd kkkk (← sub x (← gr (land lo 7)))
  else do
    let x ← gr rrr
    skipIf bd kkkk (← sub (land x 0xff) (land (← gr (land lo 7)) 0xff))

/-- Store a result in a register and test it for the skip. -/
def swSkip (rrr kkkk res : Int) : M σ Unit := do
  sw rrr res
  skipIf bd kkkk res

/-- Store a result in `R0` and test it for the skip. -/
def setR0Skip (kkkk res : Int) : M σ Unit := do
  setR 0 res
  skipIf bd kkkk res

/-- A / S / AWR / SWR / AWI / SWI / DAA -/
def exec0b (rrr lo : Int) : M σ Unit := do
  let kkkk := land (ushr lo 4) 0xf
  let b32 := land (ushr lo 2) 3
  let b10 := land lo 3
  let b3 := land (ushr lo 3) 1
  if rrr = 7 then
    if land lo 4 ≠ 0 then do
      let c := b3
      let ii := b10
      let m ← rdC bd (← ri ii)
      let e0 : Int := if ← carryIn c then 1 else 0
      let r0 ← reg fun r => r.R 0
      let res := r0 + m + e0
      setE (res > 0xffff)
      let res := if land r0 0xf + land m 0xf + e0 > 9 then res + 0x06 else res
      let res := if land (ushr res 8) 0xff > 0x99 then res + 0x0600 else res
      setR 0 (land res 0xffff)
      skipIf bd kkkk (← reg fun r => r.R 0)
    else if b32 = 2 then do
      let r0 ← reg fun r => r.R 0
      let res ← add r0 (← rdC bd (← ri b10))
      setR0Skip bd kkkk res
    else if b32 = 0 then do
      let r0 ← reg fun r => r.R 0
      let res ← sub r0 (← rdC bd (← ri b10))
      setR0Skip bd kkkk res
    else if b3 = 1 ∧ land lo 7 = 7 then do
      let ic ← reg CPURegister.IC
      let res ← add ic (← fetch bd)
      setReg fun r => { r with IC := res }
      skipIf bd kkkk res
    else do
      let ic ← reg CPURegister.IC
      let res ← sub ic (← fetch bd)
      setReg fun r => { r with IC := res }
      skipIf bd kkkk res
  else if b3 = 1 ∧ land lo 7 = 7 then do
    let imm ← fetch bd
    let res ← add (← gr rrr) imm
    swSkip bd rrr kkkk res
  else if b3 = 0 ∧ land lo 7 = 7 then do
    let imm ← fetch bd
    let res ← sub (← gr rrr) imm
    swSkip bd rrr kkkk res
  else if b3 = 1 then do
    let x ← gr rrr
    let res ← add x (← gr (land lo 7))
    swSkip bd rrr kkkk res
  else do
    let x ← gr rrr
    let res ← sub x (← gr (land lo 7))
    swSkip bd rrr kkkk res

/-- FM, FD, FA or FS without a division by zero. -/
def execFloat (f : Float → Float → Float) (kkkk b10 : Int) : M σ Unit := do
  let x ← fpDecode
  let y ← fpDecodeAt bd (← ri b10)
  fpEncode (f x y)
  fpFinish bd kkkk

/-- FD -/
def execFd (kkkk b10 : Int) : M σ Unit := do
  let me ← fpDecodeAt bd (← ri b10)
  if me == 0 then do
    setOVF true
    setE false
    skipIf bd kkkk (← dr0)
  else do
    fpEncode ((← fpDecode) / me)
    fpFinish bd kkkk

/-- OR / EOR / ORR / ORI / EORR / EORI / FM / FD -/
def exec0c (rrr lo : Int) : M σ Unit := do
  let kkkk := land (ushr lo 4) 0xf
  let b32 := land (ushr lo 2) 3
  let b10 := land lo 3
  let b3 := land (ushr lo 3) 1
  if rrr = 7 then
    if b32 = 3 then execFloat bd (· * ·) kkkk b10
    else if b32 = 1 then execFd bd kkkk b10
    else if b32 = 2 then do
      let r0 ← reg fun r => r.R 0
      setR0Skip bd kkkk (land (lor r0 (← rdC bd (← ri b10))) 0xffff)
    else do
      let r0 ← reg fun r => r.R 0
      setR0Skip bd kkkk (land (lxor r0 (← rdC bd (← ri b10))) 0xffff)
  else if b3 = 1 ∧ land lo 7 = 7 then do
    let imm ← fetch bd
    swSkip bd rrr kkkk (land (lor (← gr rrr) imm) 0xffff)
  else if b3 = 0 ∧ land lo 7 = 7 then do
    let imm ← fetch bd
    swSkip bd rrr kkkk (land (lxor (← gr rrr) imm) 0xffff)
  else if b3 = 1 then do
    let x ← gr rrr
    swSkip bd rrr kkkk (land (lor x (← gr (land lo 7))) 0xffff)
  else do
    let x ← gr rrr
    swSkip bd rrr kkkk (land (lxor x (← gr (land lo 7))) 0xffff)

/-- AND / LAD / ANDR / ANDI / LADR / LADI / FA / FS -/
def exec0d (rrr lo : Int) : M σ Unit := do
  let kkkk := land (ushr lo 4) 0xf
  let b32 := land (ushr lo 2) 3
  let b10 := land lo 3
  let b3 := land (ushr lo 3) 1
  if rrr = 7 then
    if b32 = 3 then execFloat bd (· + ·) kkkk b10
    else if b32 = 1 then execFloat bd (· - ·) kkkk b10
    else if b32 = 2 then do
      let r0 ← reg fun r => r.R 0
      setR0Skip bd kkkk (land (land r0 (← rdC bd (← ri b10))) 0xffff)
    else do
      let r0 ← reg fun r => r.R 0
      setR0Skip bd kkkk (ladResult r0 (← rdC bd (← ri b10)))
  else if b3 = 1 ∧ land lo 7 = 7 then do
    let imm ← fetch bd
    swSkip bd rrr kkkk (land (land (← gr rrr) imm) 0xffff)
  else if b3 = 0 ∧ land lo 7 = 7 then do
    let imm ← fetch bd
    swSkip bd rrr kkkk (ladResult (← gr rrr) imm)
  else if b3 = 1 then do
    let x ← gr rrr
    swSkip bd rrr kkkk (land (land x (← gr (land lo 7))) 0xffff)
  else do
    let x ← gr rrr
    swSkip bd rrr kkkk (ladResult x (← gr (land lo 7)))

/-- BSWP / DSWP / BSWR / DSWR / D -/
def exec0e (rrr lo : Int) : M σ Unit := do
  let kkkk := land (ushr lo 4) 0xf
  let b32 := land (ushr lo 2) 3
  let b10 := land lo 3
  let b3 := land (ushr lo 3) 1
  if rrr = 7 then
    if b32 = 3 then do
      let div ← rdC bd (← ri b10)
      setE false
      if div = 0 then setOVF true
      else do
        let r ← reg fun r => r.R
        let n32 := ushr (lor (shl (r 0) 16) (r 1)) 0
        let q := n32 / div
        let rem := n32 % div
        if q > 0xffff then setOVF true
        else do
          setOVF false
          setR 0 (land q 0xffff)
          setR 1 (land rem 0xffff)
          skipIf bd kkkk (← reg fun r => r.R 0)
    else if b32 = 2 then do
      let v ← rdC bd (← ri b10)
      let res := lor (shl (land v 0xff) 8) (ushr v 8)
      setR 0 (land res 0xffff)
      skipIf bd kkkk res
    else do
      let res := dswp (← rdC bd (← ri b10))
      setR 0 res
      skipIf bd kkkk res
  else if b3 = 1 then do
    let v ← gr (land lo 7)
    swSkip bd rrr kkkk (land (lor (shl (land v 0xff) 8) (ushr v 8)) 0xffff)
  else do
    swSkip bd rrr kkkk (dswp (← gr (land lo 7)))

/-- MV / MVB / MVWR / MVWI / MVBR / M -/
def exec0f (rrr lo : Int) : M σ Unit := do
  let kkkk := land (ushr lo 4) 0xf
  let b32 := land (ushr lo 2) 3
  let b10 := land lo 3
  let b3 := land (ushr lo 3) 1
  if rrr = 7 then
    if b32 = 3 then do
      let r0 ← reg fun r => r.R 0
      let p := r0 * (← rdC bd (← ri b10))
      setOVF false
      setE false
      setDR0 p
      skipIf bd kkkk (← dr0)
    else if b32 = 2 then do
      setR0Skip bd kkkk (← rdC bd (← ri b10))
    else if b3 = 0 ∧ land lo 7 = 7 then do
      let ic ← fetch bd
      setReg fun r => { r with IC := ic }
    else do
      let r0 ← reg fun r => r.R 0
      setR0Skip bd kkkk (lor (land r0 0xff00) (land (← rdC bd (← ri b10)) 0xff))
  else if land lo 7 = 7 ∧ b3 = 0 then do
    let imm ← fetch bd
    swSkip bd rrr kkkk imm
  else if b3 = 1 then do
    swSkip bd rrr kkkk (← gr (land lo 7))
  else do
    let x ← gr rrr
    swSkip bd rrr kkkk (lor (land x 0xff00) (land (← gr (land lo 7)) 0xff))

/-- The decoder of `_executeOne`, for an instruction word already fetched. -/
def execute (ir : Int) : M σ Unit :=
  let op := land (ushr ir 11) 0x1f
  let rrr := land (ushr ir 8) 0x7
  let lo := land ir 0xff
  if op ≥ 0x10 then execMemory bd op rrr lo
  else
    match op.toNat with
    | 0x00 => trapUndefinedInsn bd
    | 0x01 => exec01 bd rrr lo
    | 0x02 => exec02 bd rrr lo
    | 0x03 => exec03 bd rrr lo
    | 0x04 => exec04 bd rrr lo
    | 0x05 => exec05 bd rrr lo
    | 0x06 => exec06 bd rrr lo
    | 0x07 => exec07 bd rrr lo
    | 0x08 => exec08 bd rrr lo
    | 0x09 => exec09 bd rrr lo
    | 0x0a => exec0a bd rrr lo
    | 0x0b => exec0b bd rrr lo
    | 0x0c => exec0c bd rrr lo
    | 0x0d => exec0d bd rrr lo
    | 0x0e => exec0e bd rrr lo
    | 0x0f => exec0f bd rrr lo
    | _ => trapUndefinedInsn bd

/-- `stepBreak.onInstructionFetch` -/
def onInstructionFetch (ir : Int) : M σ Unit := do
  let s ← get
  answer (bd.onInstructionFetch s.board ir)

/-- `if (_pendingIRQ) _handleIRQ();` -/
def checkIRQ : M σ Unit := do
  if (← get).pendingIRQ ≠ 0 then handleIRQ bd else pure ()

theorem checkIRQ_pending {s : Cpu σ} (h : s.pendingIRQ ≠ 0) :
    (checkIRQ bd).run s = (handleIRQ bd).run s := by
  simp only [checkIRQ, run_bind, run_get, if_pos h]

theorem checkIRQ_idle {s : Cpu σ} (h : s.pendingIRQ = 0) : (checkIRQ bd).run s = ((), s) := by
  simp only [checkIRQ, run_bind, run_get, h, ne_eq, not_true_eq_false, if_false, run_pure]

/-- `_executeOne` -/
def executeOne : M σ Unit := do
  checkIRQ bd
  let ir ← fetch bd
  onInstructionFetch bd ir
  execute bd ir

/-- The state after one `_executeOne`. -/
def stepOne (s : Cpu σ) : Cpu σ := ((executeOne bd).run s).2

end Mn1613
end EmuTs
end RetroCpu
