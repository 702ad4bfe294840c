import RetroCpu.EmuRs.Tms9995

/-!
# The Rust TMS9995 core: instruction execution

`executeIr` is the decoder of `core.rs`, tested in the order of the source.  The
recursion of the X instruction is `decode` with the call as a parameter; `executeIr`
grants it a number of rounds.
-/

namespace RetroCpu
namespace EmuRs
namespace Tms9995

open CheckedBuild

variable {β κ S : Type} (bus : Tms9995Bus β) (cru : Tms9995Cru κ)

/-- The result of `execute_ir`. -/
abbrev Outcome := Except Tms9995Error StepResult

/-- The general operand in the low six bits of an instruction. -/
def sourceEa (ir : U16) (byteOp : Bool) : M β κ Ea :=
  resolveEa bus ((ir >>> 4) &&& 0x0003) (ir &&& 0x000f).toNat byteOp

/-- Format 8: LI / AI / ANDI / ORI / CI / STWP / STST / LWPI. -/
def format8 (op8 ir : U16) : M β κ Unit := do
  let r := (ir &&& 0x000f).toNat
  let imm ← fetchWord bus
  if op8 = 0x0200 then do
    writeReg bus r imm
    setLaeWord imm
  else if op8 = 0x0220 then do
    let old ← readReg bus r
    let res := old + imm
    writeReg bus r res
    let st ← setAddFlags (← get).st old imm res
    setSt fun _ => st
  else if op8 = 0x0240 then do
    let old ← readReg bus r
    let res := old &&& imm
    writeReg bus r res
    setLaeWord res
  else if op8 = 0x0260 then do
    let old ← readReg bus r
    let res := old ||| imm
    writeReg bus r res
    setLaeWord res
  else if op8 = 0x0280 then do
    let a ← readReg bus r
    setCompareWord a imm
  else if op8 = 0x02a0 then do writeReg bus r (← get).wp
  else if op8 = 0x02c0 then do writeReg bus r (← get).st
  else modify fun s => { s with wp := imm &&& 0xfffe }

/-- The words of `matches!(op8, …)`. -/
def isFormat8 (op8 : U16) : Bool :=
  op8 = 0x0200 ∨ op8 = 0x0220 ∨ op8 = 0x0240 ∨ op8 = 0x0260 ∨ op8 = 0x0280 ∨ op8 = 0x02a0 ∨
    op8 = 0x02c0 ∨ op8 = 0x02e0

/-- RTWP -/
def execRtwp : M β κ Unit := do
  let st ← readReg bus 15
  let pc := (← readReg bus 14) &&& 0xfffe
  let wp := (← readReg bus 13) &&& 0xfffe
  modify fun s => { s with st := st, pc := pc, wp := wp }

/-- SBO / SBZ / TB -/
def execCruBit (sub ir : U16) : M β κ Unit := do
  let addr ← cruAddr bus ((ir &&& 0x00ff).setWidth 8)
  if sub = 0x0d then writeBit cru addr true
  else if sub = 0x0e then writeBit cru addr false
  else do
    let bit ← readBit cru addr
    setSt fun st => setFlag st ST_EQ bit

/-- `(i32::from(pc) + i32::from(disp) * 2) & 0xffff` -/
def jumpTarget (pc disp : U16) : PanicM S U16 := do
  let twice ← mulS (disp.signExtend 32 : U32) 2
  let sum ← addS (pc.setWidth 32 : U32) twice
  return (sum &&& 0xffff).setWidth 16

/-- The jumps. -/
def execJump (ir : U16) : M β κ Unit := do
  if ← testCondition (ir &&& 0x0f00) then do
    let disp := ((ir &&& 0x00ff).setWidth 8 : U8).signExtend 16
    let next ← jumpTarget (← get).pc disp
    modify fun s => { s with pc := next }
  else pure ()

/-- `cru_transfer` -/
def cruTransfer (ir : U16) (isStcr : Bool) : M β κ Unit := do
  let count := ((ir >>> 6) &&& 0x000f).toNat
  let bits := if count = 0 then 16 else count
  let ea ← sourceEa bus ir (bits ≤ 8)
  let base ← readReg bus 12
  if isStcr then
    if base = CRU_HSHK_IN_DATA ∧ bits = 8 then do
      let b ← readDataByte cru
      writeByteEa bus ea b
      setLaeByte b
    else if bits ≤ 8 then do
      let b ← (List.range bits).foldlM (fun (b : U8) i => do
        if ← readBit cru (base + BitVec.ofNat 16 i) then do
          return b ||| (← shl 1 i)
        else return b) 0
      writeByteEa bus ea b
      setLaeByte b
    else do
      let w ← (List.range 16).foldlM (fun (w : U16) i => do
        if ← readBit cru (base + BitVec.ofNat 16 i) then do
          return w ||| (← shl 1 i)
        else return w) 0
      writeWordEa bus ea w
      setLaeWord w
  else if base = CRU_HSHK_OUT_DATA ∧ bits = 8 then do
    let b ← readByteEa bus ea
    writeDataByte cru b
  else if bits ≤ 8 then do
    let b ← readByteEa bus ea
    (List.range bits).forM fun i => do
      let bit : Bool := (← shrU b i) &&& 1 ≠ 0
      writeBit cru (base + BitVec.ofNat 16 i) bit
  else do
    let w ← readWordEa bus ea
    (List.range 16).forM fun i => do
      let bit : Bool := (← shrU w i) &&& 1 ≠ 0
      writeBit cru (base + BitVec.ofNat 16 i) bit

/-- `do_blwp` -/
def doBlwp (vectorByteAddr : U16) (r11 : Option U16) : M β κ Unit := do
  let newWp := (← readWord bus vectorByteAddr) &&& 0xfffe
  let newPc := (← readWord bus (vectorByteAddr + 2)) &&& 0xfffe
  writeWord bus (newWp + 13 * 2) (← get).wp
  writeWord bus (newWp + 14 * 2) (← get).pc
  writeWord bus (newWp + 15 * 2) (← get).st
  r11.forM fun v => writeWord bus (newWp + 11 * 2) v
  modify fun s => { s with wp := newWp, pc := newPc, idle := false }

/-- The byte operations of `format1`. -/
def format1Byte (op : Format1Op) (dst src : Ea) : M β κ Unit := do
  let d ← readByteEa bus dst
  let s ← readByteEa bus src
  match op with
  | .add => do
      let r := d + s
      let st ← setAddFlagsByte (← get).st d s r
      setSt fun _ => st
      writeByteEa bus dst r
  | .sub => do
      let r := d - s
      setSt fun st => setSubFlagsByte st d s r
      writeByteEa bus dst r
  | .soc => do
      let r := d ||| s
      setLaeByte r
      writeByteEa bus dst r
  | .szc => do
      let r := d &&& ~~~s
      setLaeByte r
      writeByteEa bus dst r
  | .cmp => setSt fun st => setCompareByte st s d
  | .mov => do
      setLaeByte s
      writeByteEa bus dst s

/-- The word operations of `format1`. -/
def format1Word (op : Format1Op) (dst src : Ea) : M β κ Unit := do
  let d ← readWordEa bus dst
  let s ← readWordEa bus src
  match op with
  | .add => do
      let r := d + s
      let st ← setAddFlags (← get).st d s r
      setSt fun _ => st
      writeWordEa bus dst r
  | .sub => do
      let r := d - s
      setSt fun st => setSubFlags st d s r
      writeWordEa bus dst r
  | .soc => do
      let r := d ||| s
      setLaeWord r
      writeWordEa bus dst r
  | .szc => do
      let r := d &&& ~~~s
      setLaeWord r
      writeWordEa bus dst r
  | .cmp => setCompareWord s d
  | .mov => do
      setLaeWord s
      writeWordEa bus dst s

/-- `format1`.  The destination is resolved before the source. -/
def format1 (ir : U16) (byteOp : Bool) (op : Format1Op) : M β κ Unit := do
  let dst ← resolveEa bus ((ir >>> 10) &&& 0x0003) ((ir >>> 6) &&& 0x000f).toNat byteOp
  let src ← sourceEa bus ir byteOp
  if byteOp then format1Byte bus op dst src else format1Word bus op dst src

/-- `format3` -/
def format3 (ir : U16) : M β κ Unit := do
  let dst := Ea.reg ((ir >>> 6) &&& 0x000f).toNat
  let src ← sourceEa bus ir false
  let d ← readWordEa bus dst
  let s ← readWordEa bus src
  if ir &&& 0x0c00 = 0x0800 then do
    let r := d ^^^ s
    setLaeWord r
    writeWordEa bus dst r
  else do
    let op := (ir >>> 11) &&& 1
    let masked : Bool := if op = 0 then d &&& s = s else d ||| s = d
    setSt fun st => setFlag st ST_EQ masked

/-- What a shift has computed so far. -/
structure Shifted where
  v : U16
  carry : Bool
  overflow : Bool

/-- One round of the loop of `shift_op`. -/
def shiftRound (kind : U16) (sign : Bool) (x : Shifted) : Shifted :=
  match kind.toNat with
  | 0 => { x with carry := x.v &&& 1 ≠ 0, v := (x.v >>> 1) ||| if sign then 0x8000 else 0 }
  | 1 => { x with carry := x.v &&& 1 ≠ 0, v := x.v >>> 1 }
  | 2 =>
      let carry : Bool := x.v &&& 0x8000 ≠ 0
      let v := (x.v <<< 1) &&& 0xffff
      { v := v, carry := carry,
        overflow := if carry ≠ decide (v &&& 0x8000 ≠ 0) then true else x.overflow }
  | 3 =>
      let carry : Bool := x.v &&& 1 ≠ 0
      { x with carry := carry, v := (x.v >>> 1) ||| if carry then 0x8000 else 0 }
  | _ => x

/-- The count of a shift. -/
def shiftCount (ir : U16) : M β κ Nat :=
  let cnt := ((ir >>> 4) &&& 0x000f).toNat
  if cnt = 0 then do
    let cnt := (((← readReg bus 0) >>> 12) &&& 0x000f).toNat
    return if cnt = 0 then 16 else cnt
  else pure cnt

/-- `shift_op` -/
def shiftOp (ir : U16) : M β κ Unit := do
  let reg := (ir &&& 0x000f).toNat
  let cnt ← shiftCount bus ir
  let kind := (ir >>> 8) &&& 0x0003
  let v ← readReg bus reg
  let sign : Bool := v &&& 0x8000 ≠ 0
  let x := (shiftRound kind sign)^[cnt] { v := v, carry := false, overflow := false }
  setLaeWord x.v
  setSt fun st => setFlag st ST_C x.carry
  if kind = 2 then setSt fun st => setFlag st ST_OV x.overflow else pure ()
  writeReg bus reg x.v

/-- MPY -/
def execMpy (ir : U16) : M β κ Unit := do
  let src ← sourceEa bus ir false
  let s ← readWordEa bus src
  let r0 ← readReg bus 0
  let prod ← mulU (r0.setWidth 32 : U32) (s.setWidth 32)
  writeReg bus 0 ((prod >>> 16).setWidth 16)
  writeReg bus 1 (prod.setWidth 16)

/-- `div_overflow` -/
def divOverflow (hi _lo divisor : U16) : Bool := if divisor = 0 then true else hi ≥ divisor

/-- DIV -/
def execDiv (ir : U16) : M β κ Unit := do
  let src ← sourceEa bus ir false
  let div ← readWordEa bus src
  let hi32 ← readReg bus 0
  let lo32 ← readReg bus 1
  if divOverflow hi32 lo32 div then setSt fun st => st ||| ST_OV
  else do
    let dividend : U32 := (hi32.setWidth 32 <<< 16) ||| lo32.setWidth 32
    let q ← divU dividend (div.setWidth 32)
    let rem ← remU dividend (div.setWidth 32)
    setSt fun st => st &&& ~~~ST_OV
    writeReg bus 0 (q.setWidth 16)
    writeReg bus 1 (rem.setWidth 16)

/-- `divs_overflow` -/
def divsOverflow (w1 w2 divisor : U16) : PanicM S Bool := do
  let divs : U32 := divisor.signExtend 32
  let dividend : U32 := (w1.setWidth 32 <<< 16) ||| w2.setWidth 32
  if divs = 0 then return true
  else if (0 : U32).sle dividend then
    if (0 : U32).slt divs then do
      return (← subS (divs <<< 15) 1).slt dividend
    else do
      let bound ← addS ((← negS divs) <<< 15) (← negS divs)
      return (← subS bound 1).slt dividend
  else do
    let nd ← negS dividend
    if (0 : U32).slt divs then do
      let bound ← addS (divs <<< 15) divs
      return (← subS bound 1).slt nd
    else do
      return (← subS ((← negS divs) <<< 15) 1).slt nd

/-- DIVS -/
def execDivs (ir : U16) : M β κ Unit := do
  let ea ← sourceEa bus ir false
  let div ← readWordEa bus ea
  let hi32 ← readReg bus 0
  let lo32 ← readReg bus 1
  if ← divsOverflow hi32 lo32 div then setSt fun st => st ||| ST_OV
  else do
    let dividend : U32 := (hi32.setWidth 32 <<< 16) ||| lo32.setWidth 32
    let divs : U32 := div.signExtend 32
    let q ← divS dividend divs
    let rem ← remS dividend divs
    setSt fun st => st &&& ~~~ST_OV
    writeReg bus 0 (q.setWidth 16)
    writeReg bus 1 (rem.setWidth 16)

/-- MPYS -/
def execMpys (ir : U16) : M β κ Unit := do
  let ea ← sourceEa bus ir false
  let v ← readWordEa bus ea
  let r0 ← readReg bus 0
  let prod ← mulS (r0.signExtend 32 : U32) (v.signExtend 32)
  writeReg bus 0 ((prod.sshiftRight 16 &&& 0xffff).setWidth 16)
  writeReg bus 1 ((prod &&& 0xffff).setWidth 16)

/-- XOP -/
def execXop (ir : U16) : M β κ Unit := do
  let src ← sourceEa bus ir false
  let r11 ← eaAddr src
  let xop := (ir >>> 6) &&& 0x000f
  setSt fun st => st ||| ST_X
  let vec ← addU 0x0040 (← mulU xop 4)
  doBlwp bus vec (some r11)

/-- The arms of `format6` that replace the operand by a function of it. -/
def format6Word (f : U16 → U16) (ea : Ea) : M β κ Unit := do
  let v := f (← readWordEa bus ea)
  writeWordEa bus ea v
  setLaeWord v

/-- ABS -/
def execAbs (ea : Ea) : M β κ Unit := do
  let raw ← readWordEa bus ea
  setLaeWord raw
  setSt fun st => setFlag st ST_OV (raw = 0x8000)
  setSt fun st => st &&& ~~~ST_C
  let v := if raw &&& 0x8000 ≠ 0 then -raw else raw
  writeWordEa bus ea v
  setLaeWord v

/-- `format6`, with the call of `execute_ir` on the word of X as a parameter. -/
def format6 (execute : U16 → M β κ Outcome) (ir oldPc : U16) : M β κ Outcome := do
  let ea ← sourceEa bus ir false
  let op6 := ir &&& 0xffc0
  if op6 = 0x0400 then do
    let vec := (← branchTarget bus ea) &&& 0xfffe
    doBlwp bus vec none
    return .ok .running
  else if op6 = 0x0440 then do
    let target := (← branchTarget bus ea) &&& 0xfffe
    modify fun s => { s with pc := target }
    return .ok .running
  else if op6 = 0x0480 then do
    let inner ← readWordEa bus ea
    match ← execute inner with
    | .error e => return .error e
    | .ok _ => return .ok .running
  else if op6 = 0x04c0 then do
    writeWordEa bus ea 0
    setLaeWord 0
    return .ok .running
  else if op6 = 0x0500 then do
    format6Word bus (fun v => -v) ea
    return .ok .running
  else if op6 = 0x0540 then do
    format6Word bus (fun v => ~~~v) ea
    return .ok .running
  else if op6 = 0x0580 then do
    format6Word bus (fun v => v + 1) ea
    return .ok .running
  else if op6 = 0x05c0 then do
    format6Word bus (fun v => v + 2) ea
    return .ok .running
  else if op6 = 0x0600 then do
    format6Word bus (fun v => v - 1) ea
    return .ok .running
  else if op6 = 0x0640 then do
    format6Word bus (fun v => v - 2) ea
    return .ok .running
  else if op6 = 0x0680 then do
    let target := (← branchTarget bus ea) &&& 0xfffe
    writeReg bus 11 (← get).pc
    modify fun s => { s with pc := target }
    return .ok .running
  else if op6 = 0x06c0 then do
    format6Word bus (fun v => ((v &&& 0x00ff) <<< 8) ||| (v >>> 8)) ea
    return .ok .running
  else if op6 = 0x0700 then do
    writeWordEa bus ea 0xffff
    setLaeWord 0xffff
    return .ok .running
  else if op6 = 0x0740 then do
    execAbs bus ea
    return .ok .running
  else return .error (.illegalInstruction oldPc ir)

/-- The last part of `execute_ir`, from the test for Format I on. -/
def decodeHigh (execute : U16 → M β κ Outcome) (ir oldPc : U16) : M β κ Outcome := do
  let hi := ir &&& 0xff00
  let op4 := ir &&& 0xf000
  let running (m : M β κ Unit) : M β κ Outcome := do
    m
    return .ok .running
  if op4 = 0xa000 then running (format1 bus ir false .add)
  else if op4 = 0xb000 then running (format1 bus ir true .add)
  else if op4 = 0x6000 then running (format1 bus ir false .sub)
  else if op4 = 0x7000 then running (format1 bus ir true .sub)
  else if op4 = 0x8000 then running (format1 bus ir false .cmp)
  else if op4 = 0x9000 then running (format1 bus ir true .cmp)
  else if op4 = 0xc000 then running (format1 bus ir false .mov)
  else if op4 = 0xd000 then running (format1 bus ir true .mov)
  else if op4 = 0xe000 then running (format1 bus ir false .soc)
  else if op4 = 0xf000 then running (format1 bus ir true .soc)
  else if op4 = 0x4000 then running (format1 bus ir false .szc)
  else if op4 = 0x5000 then running (format1 bus ir true .szc)
  else if hi = 0x0180 then running (execDivs bus ir)
  else if hi = 0x01c0 then running (execMpys bus ir)
  else if ir &&& 0xc000 = 0x0000 ∧ ir &&& 0xfc00 ≥ 0x0400 ∧ ir &&& 0xfc00 < 0x0800 then
    format6 bus execute ir oldPc
  else return .error (.illegalInstruction oldPc ir)

/-- `execute_ir`, with its recursive call as a parameter. -/
def decode (execute : U16 → M β κ Outcome) (ir oldPc : U16) : M β κ Outcome := do
  let hi := ir &&& 0xff00
  let op8 := ir &&& 0xfff0
  let running (m : M β κ Unit) : M β κ Outcome := do
    m
    return .ok .running
  if isFormat8 op8 then running (format8 bus op8 ir)
  else if hi = 0x0080 then running do
    let st ← readReg bus (ir &&& 0x000f).toNat
    setSt fun _ => st
  else if hi = 0x0090 then running do
    let wp ← readReg bus (ir &&& 0x000f).toNat
    modify fun s => { s with wp := wp &&& 0xfffe }
  else if ir = 0x0300 then running do
    let imm ← fetchWord bus
    setSt fun st => (st &&& ~~~ST_IMASK) ||| (imm &&& ST_IMASK)
  else if ir = 0x0340 then do
    modify fun s => { s with idle := true }
    return .ok .idle
  else if ir = 0x0360 then running do
    setSt fun st => st &&& ~~~ST_IMASK
  else if ir = 0x0380 then running (execRtwp bus)
  else if ir &&& 0xf000 = 0x1000 then
    let sub := (ir >>> 8) &&& 0x000f
    if 0x0d ≤ sub ∧ sub ≤ 0x0f then running (execCruBit bus cru sub ir)
    else running (execJump ir)
  else if ir &&& 0xf000 = 0x2000 then running (format3 bus ir)
  else if ir &&& 0xfc00 = 0x3000 ∨ ir &&& 0xfc00 = 0x3400 then
    running (cruTransfer bus cru ir (ir &&& 0xfc00 = 0x3400))
  else if ir &&& 0xfc00 ≥ 0x0800 ∧ ir &&& 0xfc00 ≤ 0x0bff then running (shiftOp bus ir)
  else if ir &&& 0xfc00 = 0x3800 then running (execMpy bus ir)
  else if ir &&& 0xfc00 = 0x3c00 then running (execDiv bus ir)
  else if ir &&& 0xf800 = 0x2c00 then running (execXop bus ir)
  else decodeHigh bus execute ir oldPc

/-- `execute_ir`, granted that many nested calls. -/
def executeIr : Nat → U16 → U16 → M β κ Outcome
  | 0, _, _ => fun _ => .error .endless
  | rounds + 1, ir, oldPc =>
      decode bus cru (fun inner => executeIr rounds inner oldPc) ir oldPc

/-- `step` -/
def step (rounds : Nat) : M β κ Outcome := do
  let s ← get
  if s.idle then return .ok .idle
  else do
    let oldPc := s.pc
    let ir ← fetchWord bus
    executeIr bus cru rounds ir oldPc

end Tms9995
end EmuRs
end RetroCpu
