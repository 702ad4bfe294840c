import RetroCpu.Lib.CheckedBuild

/-!
# The Rust TMS9995 core: state, buses, operands and flags

This module follows `retrocpu_emu_rs/src/cpuboard/tms9995/cpu_core/{bus,cru,core}.rs` as a
checked build runs it: arithmetic wraps where the source says `wrapping_` and is checked
elsewhere.  The memory bus and the CRU are parameters, as they are in the source.
-/

namespace RetroCpu
namespace EmuRs
namespace Tms9995

open CheckedBuild

abbrev U8 := BitVec 8
abbrev U16 := BitVec 16
abbrev U32 := BitVec 32

def ST_LGT : U16 := 0x8000
def ST_AGT : U16 := 0x4000
def ST_EQ : U16 := 0x2000
def ST_C : U16 := 0x1000
def ST_OV : U16 := 0x0800
def ST_OP : U16 := 0x0400
def ST_X : U16 := 0x0200
def ST_IMASK : U16 := 0x000f

def CRU_HSHK_OUT_DATA : U16 := 0x0023
def CRU_HSHK_IN_DATA : U16 := 0x0027

/-- `Tms9995Bus` of a memory with state `β`. -/
structure Tms9995Bus (β : Type) where
  readByte : β → U16 → U8
  writeByte : β → U16 → U8 → β

/-- `Tms9995Cru` of a device with state `κ`.  Reading may change the device. -/
structure Tms9995Cru (κ : Type) where
  readBit : κ → U16 → Bool × κ
  writeBit : κ → U16 → Bool → κ
  readDataByte : κ → U8 × κ
  writeDataByte : κ → U8 → κ

/-- `Tms9995Core` with its memory and its CRU. -/
structure Core (β κ : Type) where
  pc : U16
  wp : U16
  st : U16
  idle : Bool
  mem : β
  cru : κ

/-- `StepResult` -/
inductive StepResult where
  | running
  | idle
deriving DecidableEq, Repr

/-- `Tms9995Error` of one instruction. -/
inductive Tms9995Error where
  | illegalInstruction (pc ir : U16)
deriving DecidableEq, Repr

/-- `Ea` -/
inductive Ea where
  | reg (n : Nat)
  | mem (addr : U16)
deriving DecidableEq, Repr

/-- `Format1Op` -/
inductive Format1Op where
  | add
  | sub
  | cmp
  | mov
  | soc
  | szc
deriving DecidableEq, Repr

variable {β κ S : Type}

abbrev M (β κ : Type) := PanicM (Core β κ)

section Bus

variable (bus : Tms9995Bus β)

/-- `Tms9995Bus::read_word` -/
def Tms9995Bus.readWord (m : β) (addr : U16) : U16 :=
  let a := addr &&& 0xfffe
  let hi := (bus.readByte m a).setWidth 16
  let lo := (bus.readByte m (a + 1)).setWidth 16
  (hi <<< 8) ||| lo

/-- `Tms9995Bus::write_word` -/
def Tms9995Bus.writeWord (m : β) (addr value : U16) : β :=
  let a := addr &&& 0xfffe
  let m := bus.writeByte m a ((value >>> 8).setWidth 8)
  bus.writeByte m (a + 1) ((value &&& 0x00ff).setWidth 8)

/-- `bus.read_word` -/
def readWord (addr : U16) : M β κ U16 := do
  return bus.readWord (← get).mem addr

/-- `bus.write_word` -/
def writeWord (addr value : U16) : M β κ Unit :=
  modify fun s => { s with mem := bus.writeWord s.mem addr value }

/-- `fetch_word` -/
def fetchWord : M β κ U16 := do
  let w ← readWord bus (← get).pc
  modify fun s => { s with pc := s.pc + 2 }
  return w

/-- The address of a workspace register. -/
def regAddr (n : Nat) : M β κ U16 := do
  let off ← mulU (BitVec.ofNat 16 n) 2
  return (← get).wp + off

/-- `read_reg` -/
def readReg (n : Nat) : M β κ U16 := do
  readWord bus (← regAddr n)

/-- `write_reg` -/
def writeReg (n : Nat) (value : U16) : M β κ Unit := do
  writeWord bus (← regAddr n) value

end Bus

section Flags

/-- Assign to `self.state.st`. -/
def setSt (f : U16 → U16) : M β κ Unit := modify fun s => { s with st := f s.st }

/-- `set_flag` -/
def setFlag (st mask : U16) (enabled : Bool) : U16 :=
  if enabled then st ||| mask else st &&& ~~~mask

/-- `set_lae_word` -/
def setLaeWord (v : U16) : M β κ Unit := do
  let lgt : Bool := v ≠ 0
  let agt : Bool := v &&& 0x8000 = 0 ∧ v ≠ 0
  let eq : Bool := v = 0
  setSt fun st => setFlag st ST_LGT lgt
  setSt fun st => setFlag st ST_AGT agt
  setSt fun st => setFlag st ST_EQ eq

/-- `set_lae_byte` -/
def setLaeByte (v : U8) : M β κ Unit := do
  let lgt : Bool := v ≠ 0
  let agt : Bool := v &&& 0x80 = 0 ∧ v ≠ 0
  let eq : Bool := v = 0
  setSt fun st => setFlag st ST_LGT lgt
  setSt fun st => setFlag st ST_AGT agt
  setSt fun st => setFlag st ST_EQ eq

/-- `set_compare_word` -/
def setCompareWord (a b : U16) : M β κ Unit := do
  setSt fun st => setFlag (st &&& ~~~(ST_LGT ||| ST_AGT ||| ST_EQ)) ST_EQ (a = b)
  setSt fun st => setFlag st ST_LGT (a > b)
  setSt fun st => setFlag st ST_AGT (b.slt a)

/-- `set_lae_word_flags` -/
def setLaeWordFlags (st result : U16) : U16 :=
  let out := st &&& ~~~(ST_LGT ||| ST_AGT ||| ST_EQ)
  if result = 0 then out ||| ST_EQ
  else
    let out := out ||| ST_LGT
    if result &&& 0x8000 = 0 then out ||| ST_AGT else out

/-- `set_add_flags` -/
def setAddFlags (st a b result : U16) : PanicM S U16 := do
  let sum ← addU (a.setWidth 32 : U32) (b.setWidth 32)
  let out := setLaeWordFlags st result
  let out := setFlag out ST_C (sum > 0xffff)
  let ov : Bool := ((0 : U16).slt a ∧ (0 : U16).slt b ∧ result.slt 0) ∨
    (a.slt 0 ∧ b.slt 0 ∧ (0 : U16).sle result)
  return setFlag out ST_OV ov

/-- `set_sub_flags` -/
def setSubFlags (st a b result : U16) : U16 :=
  let out := setLaeWordFlags st result
  let out := setFlag out ST_C (a ≥ b)
  let ov : Bool := ((0 : U16).sle a ∧ b.slt 0 ∧ result.slt 0) ∨
    (a.slt 0 ∧ (0 : U16).sle b ∧ (0 : U16).sle result)
  setFlag out ST_OV ov

/-- `count_ones() & 1 != 0` -/
def oddOnes (v : U8) : Bool := v.cpop &&& 1 ≠ 0

/-- `set_compare_byte` -/
def setCompareByte (st : U16) (dest src : U8) : U16 :=
  let out := st &&& ~~~(ST_LGT ||| ST_AGT ||| ST_EQ ||| ST_OP)
  let out := if dest = src then out ||| ST_EQ else out
  let out := if dest > src then out ||| ST_LGT else out
  let out := if src.slt dest then out ||| ST_AGT else out
  if oddOnes dest then out ||| ST_OP else out

/-- `set_lae_byte_flags` -/
def setLaeByteFlags (st : U16) (result : U8) : U16 :=
  let out := st &&& ~~~(ST_LGT ||| ST_AGT ||| ST_EQ ||| ST_OP)
  let out :=
    if result = 0 then out ||| ST_EQ
    else
      let out := out ||| ST_LGT
      if result &&& 0x80 = 0 then out ||| ST_AGT else out
  if oddOnes result then out ||| ST_OP else out

/-- `set_add_flags_byte` -/
def setAddFlagsByte (st : U16) (a b result : U8) : PanicM S U16 := do
  let st ← setAddFlags st (a.setWidth 16) (b.setWidth 16) (result.setWidth 16)
  return setLaeByteFlags st result

/-- `set_sub_flags_byte` -/
def setSubFlagsByte (st : U16) (a b result : U8) : U16 :=
  setLaeByteFlags (setSubFlags st (a.setWidth 16) (b.setWidth 16) (result.setWidth 16)) result

/-- `test_condition` -/
def testCondition (condField : U16) : M β κ Bool := do
  let c := (condField >>> 8) &&& 0x000f
  let st := (← get).st
  let lgt : Bool := st &&& ST_LGT ≠ 0
  let agt : Bool := st &&& ST_AGT ≠ 0
  let eq : Bool := st &&& ST_EQ ≠ 0
  let carry : Bool := st &&& ST_C ≠ 0
  let ov : Bool := st &&& ST_OV ≠ 0
  let op : Bool := st &&& ST_OP ≠ 0
  return match c.toNat with
    | 0x0 => true
    | 0x1 => !agt && !eq
    | 0x2 => !lgt || eq
    | 0x3 => eq
    | 0x4 => lgt || eq
    | 0x5 => agt
    | 0x6 => !eq
    | 0x7 => !carry
    | 0x8 => carry
    | 0x9 => !ov
    | 0xa => !lgt && !eq
    | 0xb => lgt && !eq
    | 0xc => op
    | _ => false

end Flags

section Operands

variable (bus : Tms9995Bus β)

/-- `cru_addr` -/
def cruAddr (disp8 : U8) : M β κ U16 := do
  let base ← readReg bus 12
  return base + disp8.signExtend 16

/-- `resolve_ea` -/
def resolveEa (mode : U16) (reg : Nat) (byteOp : Bool) : M β κ Ea := do
  match (mode &&& 0x0003).toNat with
  | 0 => return .reg (reg &&& 0x0f)
  | 1 => do
      let addr ← readReg bus (reg &&& 0x0f)
      return .mem addr
  | 2 => do
      let off ← fetchWord bus
      if reg &&& 0x0f = 0 then return .mem off
      else do
        let base ← readReg bus (reg &&& 0x0f)
        return .mem (base + off)
  | 3 => do
      let r := reg &&& 0x0f
      let addr ← readReg bus r
      let inc : U16 := if byteOp then 1 else 2
      writeReg bus r (addr + inc)
      return .mem addr
  | _ => return .reg 0

/-- `ea_addr` -/
def eaAddr : Ea → M β κ U16
  | .reg n => regAddr n
  | .mem addr => pure addr

/-- `branch_target` -/
def branchTarget : Ea → M β κ U16
  | .reg n => readReg bus n
  | .mem addr => pure addr

/-- `read_word_ea` -/
def readWordEa : Ea → M β κ U16
  | .reg n => readReg bus n
  | .mem addr => readWord bus addr

/-- `write_word_ea` -/
def writeWordEa : Ea → U16 → M β κ Unit
  | .reg n, value => writeReg bus n value
  | .mem addr, value => writeWord bus addr value

/-- `read_byte_ea` -/
def readByteEa : Ea → M β κ U8
  | .reg n => do return ((← readReg bus n) &&& 0x00ff).setWidth 8
  | .mem addr => do return bus.readByte (← get).mem addr

/-- `write_byte_ea` -/
def writeByteEa : Ea → U8 → M β κ Unit
  | .reg n, value => do
      let old ← readReg bus n
      let next := (old &&& 0xff00) ||| value.setWidth 16
      writeReg bus n next
  | .mem addr, value => modify fun s => { s with mem := bus.writeByte s.mem addr value }

end Operands

section Cru

variable (cru : Tms9995Cru κ)

/-- `cru.read_bit` -/
def readBit (addr : U16) : M β κ Bool := do
  let r := cru.readBit (← get).cru addr
  modify fun s => { s with cru := r.2 }
  return r.1

/-- `cru.write_bit` -/
def writeBit (addr : U16) (value : Bool) : M β κ Unit :=
  modify fun s => { s with cru := cru.writeBit s.cru addr value }

/-- `cru.read_data_byte` -/
def readDataByte : M β κ U8 := do
  let r := cru.readDataByte (← get).cru
  modify fun s => { s with cru := r.2 }
  return r.1

/-- `cru.write_data_byte` -/
def writeDataByte (value : U8) : M β κ Unit :=
  modify fun s => { s with cru := cru.writeDataByte s.cru value }

end Cru

end Tms9995
end EmuRs
end RetroCpu
