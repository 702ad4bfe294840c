import Mathlib.Tactic.IntervalCases
import RetroCpu.EmuRs.Tms9995Ends

/-!
# One instruction of the Rust TMS9995 core

The functions of the core from a given state: the operand that an address field names, what
is read from it and written to it, and the part of the decoder that takes a word.
-/

namespace RetroCpu
namespace EmuRs
namespace Tms9995

open CheckedBuild

variable {β κ : Type} (bus : Tms9995Bus β) (cru : Tms9995Cru κ)

section Operands

/-- The address of a workspace register. -/
def Core.regAt (s : Core β κ) (n : Nat) : U16 := s.wp + BitVec.ofNat 16 n * 2

/-- The value of a workspace register. -/
def Core.reg (s : Core β κ) (n : Nat) : U16 := bus.readWord s.mem (s.regAt n)

/-- The operand that an address field names, and the state behind it. -/
def named (mode n : Nat) (byteOp : Bool) (s : Core β κ) : Ea × Core β κ :=
  match mode with
  | 0 => (.reg n, s)
  | 1 => (.mem (s.reg bus n), s)
  | 2 =>
      let off := bus.readWord s.mem s.pc
      (.mem (if n = 0 then off else s.reg bus n + off), { s with pc := s.pc + 2 })
  | _ =>
      let inc : U16 := if byteOp then 1 else 2
      (.mem (s.reg bus n), { s with mem := bus.writeWord s.mem (s.regAt n) (s.reg bus n + inc) })

theorem get_run (c : Core β κ) : (get : M β κ (Core β κ)).run c = .ok (c, c) := rfl

theorem setSt_run (f : U16 → U16) (c : Core β κ) :
    (setSt f : M β κ Unit).run c = .ok ((), { c with st := f c.st }) := rfl

theorem reg_run {n : Nat} (h : n < 16) (s : Core β κ) :
    (readReg bus n).run s = .ok (s.reg bus n, s) :=
  readReg_run bus h s

theorem resolveEa_run (mode : U16) (n : Nat) (hn : n < 16) (byteOp : Bool) (s : Core β κ) :
    (resolveEa bus mode n byteOp).run s = .ok (named bus (mode &&& 0x0003).toNat n byteOp s) := by
  have hland : n &&& 0x0f = n := Nat.and_two_pow_sub_one_of_lt_two_pow (n := 4) hn
  have hlt : (mode &&& 0x0003).toNat < 4 := by
    rw [BitVec.toNat_and]
    exact Nat.lt_of_le_of_lt Nat.and_le_right (by decide)
  simp only [resolveEa, hland]
  generalize (mode &&& 0x0003).toNat = m at hlt
  obtain rfl | rfl | rfl | rfl : m = 0 ∨ m = 1 ∨ m = 2 ∨ m = 3 := by omega
  · rfl
  · exact run_bind_ok (reg_run bus hn s)
  · simp only []
    rw [run_bind_ok (fetchWord_run bus s)]
    by_cases h0 : n = 0
    · simp only [h0, named, if_pos]
      rfl
    · simp only [h0, named, if_false]
      exact run_bind_ok (reg_run bus hn _)
  · simp only []
    rw [run_bind_ok (reg_run bus hn s), run_bind_ok (writeReg_run bus hn _ s)]
    rfl

theorem named_inWorkspace (mode n : Nat) (hn : n < 16) (byteOp : Bool) (s : Core β κ) :
    (named bus mode n byteOp s).1.InWorkspace := by
  unfold named
  split
  · exact hn
  · trivial
  · trivial
  · trivial

/-- The source operand of an instruction. -/
def sourceOf (ir : U16) (byteOp : Bool) (s : Core β κ) : Ea × Core β κ :=
  named bus ((ir >>> 4) &&& 0x0003).toNat (ir &&& 0x000f).toNat byteOp s

/-- The destination operand of an instruction of Format 1. -/
def destinationOf (ir : U16) (byteOp : Bool) (s : Core β κ) : Ea × Core β κ :=
  named bus ((ir >>> 10) &&& 0x0003).toNat ((ir >>> 6) &&& 0x000f).toNat byteOp s

theorem sourceEa_run (ir : U16) (byteOp : Bool) (s : Core β κ) :
    (sourceEa bus ir byteOp).run s = .ok (sourceOf bus ir byteOp s) := by
  rw [sourceEa, resolveEa_run bus _ _ (nibble_lt ir), and_mask_and_mask, sourceOf]

theorem destinationEa_run (ir : U16) (byteOp : Bool) (s : Core β κ) :
    (resolveEa bus ((ir >>> 10) &&& 0x0003) ((ir >>> 6) &&& 0x000f).toNat byteOp).run s =
      .ok (destinationOf bus ir byteOp s) := by
  rw [resolveEa_run bus _ _ (nibble_lt (ir >>> 6)), and_mask_and_mask, destinationOf]

/-- The word of an operand. -/
def wordAt (s : Core β κ) : Ea → U16
  | .reg n => s.reg bus n
  | .mem addr => bus.readWord s.mem addr

/-- The byte of an operand; a register operand is its low byte. -/
def byteAt (s : Core β κ) : Ea → U8
  | .reg n => (s.reg bus n &&& 0x00ff).setWidth 8
  | .mem addr => bus.readByte s.mem addr

/-- The memory behind a word that is written to an operand. -/
def putWord (s : Core β κ) (v : U16) : Ea → β
  | .reg n => bus.writeWord s.mem (s.regAt n) v
  | .mem addr => bus.writeWord s.mem addr v

/-- The memory behind a byte that is written to an operand. -/
def putByte (s : Core β κ) (v : U8) : Ea → β
  | .reg n => bus.writeWord s.mem (s.regAt n) ((s.reg bus n &&& 0xff00) ||| v.setWidth 16)
  | .mem addr => bus.writeByte s.mem addr v

variable {ea : Ea}

theorem readWordEa_run (h : ea.InWorkspace) (s : Core β κ) :
    (readWordEa bus ea).run s = .ok (wordAt bus s ea, s) := by
  cases ea with
  | reg n => exact reg_run bus h s
  | mem addr => rfl

theorem readByteEa_run (h : ea.InWorkspace) (s : Core β κ) :
    (readByteEa bus ea).run s = .ok (byteAt bus s ea, s) := by
  cases ea with
  | reg n => exact run_bind_ok (reg_run bus h s)
  | mem addr => rfl

theorem writeWordEa_run (h : ea.InWorkspace) (v : U16) (s : Core β κ) :
    (writeWordEa bus ea v).run s = .ok ((), { s with mem := putWord bus s v ea }) := by
  cases ea with
  | reg n => exact writeReg_run bus h v s
  | mem addr => rfl

theorem writeByteEa_run (h : ea.InWorkspace) (v : U8) (s : Core β κ) :
    (writeByteEa bus ea v).run s = .ok ((), { s with mem := putByte bus s v ea }) := by
  cases ea with
  | reg n => exact (run_bind_ok (reg_run bus h s)).trans (writeReg_run bus h _ s)
  | mem addr => rfl

theorem putWord_st (s : Core β κ) (st v : U16) (ea : Ea) :
    putWord bus { s with st := st } v ea = putWord bus s v ea := by
  cases ea <;> rfl

theorem putByte_st (s : Core β κ) (st : U16) (v : U8) (ea : Ea) :
    putByte bus { s with st := st } v ea = putByte bus s v ea := by
  cases ea <;> rfl

/-- The operands of an instruction of Format 1, destination first, and the state behind them. -/
structure Operands (β κ : Type) where
  dst : Ea
  src : Ea
  state : Core β κ

/-- The operands in the order in which `format1` resolves them. -/
def operandsOf (ir : U16) (byteOp : Bool) (s : Core β κ) : Operands β κ :=
  let dst := destinationOf bus ir byteOp s
  let src := sourceOf bus ir byteOp dst.2
  ⟨dst.1, src.1, src.2⟩

theorem operandsOf_inWorkspace (ir : U16) (byteOp : Bool) (s : Core β κ) :
    (operandsOf bus ir byteOp s).dst.InWorkspace ∧ (operandsOf bus ir byteOp s).src.InWorkspace :=
  ⟨named_inWorkspace bus _ _ (nibble_lt _) _ _, named_inWorkspace bus _ _ (nibble_lt _) _ _⟩

theorem format1_run (ir : U16) (byteOp : Bool) (op : Format1Op) (s : Core β κ) :
    (format1 bus ir byteOp op).run s =
      ((if byteOp then format1Byte bus op (operandsOf bus ir byteOp s).dst
          (operandsOf bus ir byteOp s).src
        else format1Word bus op (operandsOf bus ir byteOp s).dst
          (operandsOf bus ir byteOp s).src) : M β κ Unit).run (operandsOf bus ir byteOp s).state := by
  rw [format1, run_bind_ok (destinationEa_run bus ir byteOp s),
    run_bind_ok (sourceEa_run bus ir byteOp _)]
  rfl

end Operands

section HighBits

/-- The high bits of a word that a mask keeps. -/
theorem toNat_high (x : U16) (k : Nat) (hk : k ≤ 16) :
    (x &&& BitVec.ofNat 16 (2 ^ 16 - 2 ^ k)).toNat = x.toNat / 2 ^ k * 2 ^ k := by
  have hmask : 2 ^ 16 - 2 ^ k = (2 ^ (16 - k) - 1) * 2 ^ k := by
    rw [Nat.sub_mul, ← Nat.pow_add, Nat.one_mul, Nat.sub_add_cancel hk]
  apply Nat.eq_of_testBit_eq
  intro i
  have hlt := x.isLt
  rw [BitVec.toNat_and, BitVec.toNat_ofNat, Nat.mod_eq_of_lt (by have := Nat.two_pow_pos k; omega),
    hmask, Nat.testBit_and, Nat.testBit_mul_two_pow, Nat.testBit_mul_two_pow,
    Nat.testBit_two_pow_sub_one, Nat.testBit_div_two_pow]
  by_cases hi : k ≤ i
  · by_cases h16 : i < 16
    · simp [hi, show i - k < 16 - k by omega]
    · have hfalse : x.toNat.testBit i = false :=
        Nat.testBit_lt_two_pow (Nat.lt_of_lt_of_le hlt (Nat.pow_le_pow_right (by decide) (by omega)))
      simp [hi, hfalse]
  · simp [hi]

theorem and_fff0 (x : U16) : (x &&& 0xfff0).toNat = x.toNat / 16 * 16 := toNat_high x 4 (by omega)

theorem and_ff00 (x : U16) : (x &&& 0xff00).toNat = x.toNat / 256 * 256 :=
  toNat_high x 8 (by omega)

theorem and_fc00 (x : U16) : (x &&& 0xfc00).toNat = x.toNat / 1024 * 1024 :=
  toNat_high x 10 (by omega)

theorem and_f800 (x : U16) : (x &&& 0xf800).toNat = x.toNat / 2048 * 2048 :=
  toNat_high x 11 (by omega)

theorem and_f000 (x : U16) : (x &&& 0xf000).toNat = x.toNat / 4096 * 4096 :=
  toNat_high x 12 (by omega)

theorem and_fffe (x : U16) : (x &&& 0xfffe).toNat = x.toNat / 2 * 2 := toNat_high x 1 (by omega)

end HighBits

section Memory

/-- A byte that is written is read back, and no other byte changes. -/
def Tms9995Bus.Memory (bus : Tms9995Bus β) : Prop :=
  ∀ m a v b, bus.readByte (bus.writeByte m a v) b = if b = a then v else bus.readByte m b

/-- `Tms9995Ram` of 64 KiB. -/
def ram : Tms9995Bus (U16 → U8) where
  readByte m a := m a
  writeByte m a v := Function.update m a v

theorem ram_memory : ram.Memory := fun m a v b => Function.update_apply m a v b

/-- `Tms9995CruBus` -/
structure Tms9995CruBus where
  bits : U16 → Bool
  inData : U8
  outData : U8

def cruBus : Tms9995Cru Tms9995CruBus where
  readBit c a := (c.bits a, c)
  writeBit c a v := { c with bits := Function.update c.bits a v }
  readDataByte c := (c.inData, c)
  writeDataByte c v := { c with outData := v }

variable {bus}

theorem even_succ_ne (a b : U16) : a &&& 0xfffe ≠ (b &&& 0xfffe) + 1 := by
  intro h
  have ha := and_fffe a
  rw [h, BitVec.toNat_add, and_fffe] at ha
  have h1 : (1 : U16).toNat = 1 := rfl
  have hlt := b.isLt
  omega

theorem even_succ_inj {a b : U16} (h : (a &&& 0xfffe) + 1 = (b &&& 0xfffe) + 1) :
    a &&& 0xfffe = b &&& 0xfffe :=
  (BitVec.add_left_inj _).mp h

theorem joinBytes (v : U16) :
    (((v >>> 8).setWidth 8 : U8).setWidth 16 : U16) <<< 8 |||
      ((v &&& 0x00ff).setWidth 8 : U8).setWidth 16 = v := by
  apply BitVec.eq_of_getLsbD_eq
  intro i hi
  simp only [BitVec.getLsbD_or, BitVec.getLsbD_shiftLeft, BitVec.getLsbD_setWidth,
    BitVec.getLsbD_ushiftRight, BitVec.getLsbD_and]
  interval_cases i <;> simp

theorem Tms9995Bus.Memory.readByte_writeWord (h : bus.Memory) (m : β) (a v b : U16) :
    bus.readByte (bus.writeWord m a v) b =
      if b = (a &&& 0xfffe) + 1 then (v &&& 0x00ff).setWidth 8
      else if b = a &&& 0xfffe then (v >>> 8).setWidth 8
      else bus.readByte m b := by
  rw [Tms9995Bus.writeWord, h, h]

theorem Tms9995Bus.Memory.readWord_writeWord (h : bus.Memory) (m : β) (a v b : U16) :
    bus.readWord (bus.writeWord m a v) b =
      if b &&& 0xfffe = a &&& 0xfffe then v else bus.readWord m b := by
  rw [Tms9995Bus.readWord, h.readByte_writeWord, h.readByte_writeWord, if_neg (even_succ_ne b a)]
  by_cases hab : b &&& 0xfffe = a &&& 0xfffe
  · rw [if_pos hab, if_pos hab, if_pos (congrArg (· + 1) hab)]
    exact joinBytes v
  · have hodd : (b &&& 0xfffe) + 1 ≠ a &&& 0xfffe := fun heq => even_succ_ne a b heq.symm
    rw [if_neg hab, if_neg hab, if_neg fun heq => hab (even_succ_inj heq), if_neg hodd]
    rfl

end Memory

section Flags

/-- A flag of the status register. -/
def flag (st mask : U16) : Bool := st &&& mask ≠ 0

variable (st : U16)

theorem flag_bit (k : Nat) (hk : k < 16) : flag st (BitVec.ofNat 16 (2 ^ k)) = st.getLsbD k := by
  rw [flag, BitVec.getLsbD, Nat.testBit_eq_decide_div_mod_eq, decide_eq_decide, Ne,
    BitField.and_bit_eq_zero st k hk]
  omega

theorem flag_lgt : flag st ST_LGT = st.getLsbD 15 := flag_bit st 15 (by decide)

theorem flag_agt : flag st ST_AGT = st.getLsbD 14 := flag_bit st 14 (by decide)

theorem flag_eq : flag st ST_EQ = st.getLsbD 13 := flag_bit st 13 (by decide)

theorem flag_c : flag st ST_C = st.getLsbD 12 := flag_bit st 12 (by decide)

theorem flag_ov : flag st ST_OV = st.getLsbD 11 := flag_bit st 11 (by decide)

theorem flag_op : flag st ST_OP = st.getLsbD 10 := flag_bit st 10 (by decide)

theorem getLsbD_setFlag (mask : U16) (enabled : Bool) {i : Nat} (hi : i < 16) :
    (setFlag st mask enabled).getLsbD i = if mask.getLsbD i then enabled else st.getLsbD i := by
  cases enabled with
  | false =>
      rw [setFlag, if_neg Bool.false_ne_true, BitVec.getLsbD_and, BitVec.getLsbD_not]
      cases mask.getLsbD i <;> simp [hi]
  | true =>
      rw [setFlag, if_pos rfl, BitVec.getLsbD_or]
      cases mask.getLsbD i <;> simp

theorem getLsbD_setLaeWordFlags (result : U16) {i : Nat} (hi : i < 13) :
    (setLaeWordFlags st result).getLsbD i = st.getLsbD i := by
  unfold setLaeWordFlags
  interval_cases i <;> split_ifs <;> simp [ST_LGT, ST_AGT, ST_EQ]

theorem getLsbD_setLaeByteFlags (result : U8) :
    (setLaeByteFlags st result).getLsbD 10 = oddOnes result ∧
      (setLaeByteFlags st result).getLsbD 11 = st.getLsbD 11 ∧
      (setLaeByteFlags st result).getLsbD 12 = st.getLsbD 12 := by
  unfold setLaeByteFlags
  dsimp only
  split_ifs with hzero hsign hodd <;> simp_all [ST_LGT, ST_AGT, ST_EQ, ST_OP]

end Flags

section Decoder

variable {ir : U16}

theorem isFormat8_eq_false (h : 0x300 ≤ ir.toNat) : isFormat8 (ir &&& 0xfff0) = false := by
  have hn := and_fff0 ir
  generalize ir &&& 0xfff0 = op8 at hn
  simp only [isFormat8, ← BitVec.toNat_inj, BitVec.ofNat_eq_ofNat, BitVec.toNat_ofNat,
    decide_eq_false_iff_not]
  omega

variable {execute : U16 → M β κ Outcome} {oldPc : U16}

/-- The part of the decoder behind the tests for single words and for Format 8. -/
theorem decode_above (h : 0x400 ≤ ir.toNat) :
    decode bus cru execute ir oldPc =
      if ir &&& 0xf000 = 0x1000 then
        if 0x0d ≤ (ir >>> 8) &&& 0x000f ∧ (ir >>> 8) &&& 0x000f ≤ 0x0f then do
          execCruBit bus cru ((ir >>> 8) &&& 0x000f) ir
          return .ok .running
        else do
          execJump ir
          return .ok .running
      else if ir &&& 0xf000 = 0x2000 then do
        format3 bus ir
        return .ok .running
      else if ir &&& 0xfc00 = 0x3000 ∨ ir &&& 0xfc00 = 0x3400 then do
        cruTransfer bus cru ir (ir &&& 0xfc00 = 0x3400)
        return .ok .running
      else if ir &&& 0xfc00 ≥ 0x0800 ∧ ir &&& 0xfc00 ≤ 0x0bff then do
        shiftOp bus ir
        return .ok .running
      else if ir &&& 0xfc00 = 0x3800 then do
        execMpy bus ir
        return .ok .running
      else if ir &&& 0xfc00 = 0x3c00 then do
        execDiv bus ir
        return .ok .running
      else if ir &&& 0xf800 = 0x2c00 then do
        execXop bus ir
        return .ok .running
      else decodeHigh bus execute ir oldPc := by
  have hne {c : U16} (hc : c.toNat < 0x400) : ir ≠ c := by
    rintro rfl
    omega
  have hff00 {c : U16} (hc : c.toNat < 0x400) : ir &&& 0xff00 ≠ c := by
    rw [Ne, ← BitVec.toNat_inj, and_ff00]
    omega
  unfold decode
  dsimp only
  rw [isFormat8_eq_false (by omega), if_neg Bool.false_ne_true, if_neg (hff00 (by decide)),
    if_neg (hff00 (by decide)), if_neg (hne (by decide)), if_neg (hne (by decide)),
    if_neg (hne (by decide)), if_neg (hne (by decide))]
  rfl

theorem decode_high (h : 0x4000 ≤ ir.toNat) :
    decode bus cru execute ir oldPc = decodeHigh bus execute ir oldPc := by
  have hf000 {c : U16} (hc : c.toNat < 0x4000) : ir &&& 0xf000 ≠ c := by
    rw [Ne, ← BitVec.toNat_inj, and_f000]
    omega
  have hfc00 {c : U16} (hc : c.toNat < 0x4000) : ir &&& 0xfc00 ≠ c := by
    rw [Ne, ← BitVec.toNat_inj, and_fc00]
    omega
  have hf800 : ir &&& 0xf800 ≠ 0x2c00 := by
    rw [Ne, ← BitVec.toNat_inj, and_f800]
    simp only [BitVec.ofNat_eq_ofNat, BitVec.toNat_ofNat]
    omega
  have hshift : ¬ (ir &&& 0xfc00 ≥ 0x0800 ∧ ir &&& 0xfc00 ≤ 0x0bff) := by
    rw [ge_iff_le, BitVec.le_def, BitVec.le_def, and_fc00]
    simp only [BitVec.ofNat_eq_ofNat, BitVec.toNat_ofNat]
    omega
  rw [decode_above bus cru (by omega), if_neg (hf000 (by decide)), if_neg (hf000 (by decide)),
    if_neg (not_or.mpr ⟨hfc00 (by decide), hfc00 (by decide)⟩), if_neg hshift,
    if_neg (hfc00 (by decide)), if_neg (hfc00 (by decide)), if_neg hf800]

theorem decode_shift (h : ir.toNat / 1024 = 2) :
    decode bus cru execute ir oldPc = do
      shiftOp bus ir
      return .ok .running := by
  have hf000 {c : U16} (hc : 0x1000 ≤ c.toNat) : ir &&& 0xf000 ≠ c := by
    rw [Ne, ← BitVec.toNat_inj, and_f000]
    omega
  have hfc00 {c : U16} (hc : 0x1000 ≤ c.toNat) : ir &&& 0xfc00 ≠ c := by
    rw [Ne, ← BitVec.toNat_inj, and_fc00]
    omega
  have hshift : ir &&& 0xfc00 ≥ 0x0800 ∧ ir &&& 0xfc00 ≤ 0x0bff := by
    rw [ge_iff_le, BitVec.le_def, BitVec.le_def, and_fc00, h]
    decide
  rw [decode_above bus cru (by omega), if_neg (hf000 (by decide)), if_neg (hf000 (by decide)),
    if_neg (not_or.mpr ⟨hfc00 (by decide), hfc00 (by decide)⟩), if_pos hshift]

theorem decode_jump (h : 0x1000 ≤ ir.toNat ∧ ir.toNat < 0x1d00) :
    decode bus cru execute ir oldPc = do
      execJump ir
      return .ok .running := by
  have hf000 : ir &&& 0xf000 = 0x1000 := by
    rw [← BitVec.toNat_inj, and_f000]
    simp only [BitVec.ofNat_eq_ofNat, BitVec.toNat_ofNat]
    omega
  have hsub : ((ir >>> 8) &&& 0x000f).toNat < 0x0d := by
    have hfield : ((ir >>> 8) &&& 0x000f).toNat = ir.toNat / 256 % 16 :=
      BitField.toNat_field ir 8 4 (by decide)
    omega
  have hcru : ¬ (0x0d ≤ (ir >>> 8) &&& 0x000f ∧ (ir >>> 8) &&& 0x000f ≤ 0x0f) := by
    rintro ⟨hlo, -⟩
    have h13 : 13 ≤ ((ir >>> 8) &&& 0x000f).toNat := hlo
    omega
  rw [decode_above bus cru (by omega), if_pos hf000, if_neg hcru]

theorem decode_transfer (h : ir.toNat / 1024 = 12 ∨ ir.toNat / 1024 = 13) :
    decode bus cru execute ir oldPc = do
      cruTransfer bus cru ir (ir.toNat / 1024 = 13)
      return .ok .running := by
  have hf000 {c : U16} (hc : c.toNat < 0x3000) : ir &&& 0xf000 ≠ c := by
    rw [Ne, ← BitVec.toNat_inj, and_f000]
    omega
  have hstcr : ir &&& 0xfc00 = 0x3400 ↔ ir.toNat / 1024 = 13 := by
    rw [← BitVec.toNat_inj, and_fc00]
    simp only [BitVec.ofNat_eq_ofNat, BitVec.toNat_ofNat]
    omega
  have hldcr : ir &&& 0xfc00 = 0x3000 ↔ ir.toNat / 1024 = 12 := by
    rw [← BitVec.toNat_inj, and_fc00]
    simp only [BitVec.ofNat_eq_ofNat, BitVec.toNat_ofNat]
    omega
  rw [decode_above bus cru (by omega), if_neg (hf000 (by decide)), if_neg (hf000 (by decide)),
    if_pos (h.imp hldcr.mpr hstcr.mpr)]
  simp only [hstcr]

theorem decode_format8 (h : isFormat8 (ir &&& 0xfff0) = true) :
    decode bus cru execute ir oldPc = do
      format8 bus (ir &&& 0xfff0) ir
      return .ok .running := by
  unfold decode
  dsimp only
  rw [if_pos h]

/-- The operations of Format 1 in the high four bits. -/
def format1Of : Nat → Option (Bool × Format1Op)
  | 0x4 => some (false, .szc)
  | 0x5 => some (true, .szc)
  | 0x6 => some (false, .sub)
  | 0x7 => some (true, .sub)
  | 0x8 => some (false, .cmp)
  | 0x9 => some (true, .cmp)
  | 0xa => some (false, .add)
  | 0xb => some (true, .add)
  | 0xc => some (false, .mov)
  | 0xd => some (true, .mov)
  | 0xe => some (false, .soc)
  | 0xf => some (true, .soc)
  | _ => none

theorem decode_format1 {byteOp : Bool} {op : Format1Op}
    (h : format1Of (ir.toNat / 4096) = some (byteOp, op)) :
    decode bus cru execute ir oldPc = do
      format1 bus ir byteOp op
      return .ok .running := by
  have hlt := ir.isLt
  have hop : ir &&& 0xf000 = BitVec.ofNat 16 (ir.toNat / 4096 * 4096) := by
    rw [← BitVec.toNat_inj, and_f000, BitVec.toNat_ofNat, Nat.mod_eq_of_lt (by omega)]
  have hrange : 4 ≤ ir.toNat / 4096 ∧ ir.toNat / 4096 < 16 := by
    refine ⟨?_, by omega⟩
    by_contra hsmall
    have hsmall : ir.toNat / 4096 < 4 := by omega
    interval_cases hd : ir.toNat / 4096 <;> cases h
  rw [decode_high bus cru (by omega)]
  unfold decodeHigh
  dsimp only
  rw [hop]
  generalize ir.toNat / 4096 = d at h hrange
  obtain ⟨hlo, hhi⟩ := hrange
  interval_cases d <;> cases h <;> rfl

end Decoder

section Step

/-- What a step does whose word is `ir`. -/
def stepOn (ir : U16) (s : Core β κ) : Except Panic (Outcome × Core β κ) :=
  (executeIr bus cru 1 ir s.pc).run { s with pc := s.pc + 2 }

/-- A step executes the word at the program counter. -/
theorem step_run {s : Core β κ} (h : s.idle = false) :
    (step bus cru 1).run s = stepOn bus cru (bus.readWord s.mem s.pc) s := by
  have hget : (get : M β κ (Core β κ)).run s = .ok (s, s) := rfl
  rw [step, run_bind_ok hget, h, if_neg Bool.false_ne_true]
  exact run_bind_ok (fetchWord_run bus s)

variable {ir : U16} {s : Core β κ}

theorem stepOn_of {m : M β κ Unit} {s' : Core β κ}
    (hdecode : ∀ execute, decode bus cru execute ir s.pc = do
      m
      return .ok .running)
    (hrun : m.run { s with pc := s.pc + 2 } = .ok ((), s')) :
    stepOn bus cru ir s = .ok (.ok .running, s') := by
  rw [stepOn, executeIr, hdecode, run_bind_ok hrun]
  rfl

theorem stepOn_format1 (byteOp : Bool) (op : Format1Op)
    (hop : format1Of (ir.toNat / 4096) = some (byteOp, op)) {s' : Core β κ}
    (hrun : ((if byteOp then
          format1Byte bus op (operandsOf bus ir byteOp { s with pc := s.pc + 2 }).dst
            (operandsOf bus ir byteOp { s with pc := s.pc + 2 }).src
        else format1Word bus op (operandsOf bus ir byteOp { s with pc := s.pc + 2 }).dst
          (operandsOf bus ir byteOp { s with pc := s.pc + 2 }).src) : M β κ Unit).run
      (operandsOf bus ir byteOp { s with pc := s.pc + 2 }).state = .ok ((), s')) :
    stepOn bus cru ir s = .ok (.ok .running, s') :=
  stepOn_of bus cru (fun _ => decode_format1 bus cru hop)
    ((format1_run bus ir byteOp op { s with pc := s.pc + 2 }).trans hrun)

/-- What `test_condition` finds. -/
def condition (st : U16) : Nat → Bool
  | 0x0 => true
  | 0x1 => !flag st ST_AGT && !flag st ST_EQ
  | 0x2 => !flag st ST_LGT || flag st ST_EQ
  | 0x3 => flag st ST_EQ
  | 0x4 => flag st ST_LGT || flag st ST_EQ
  | 0x5 => flag st ST_AGT
  | 0x6 => !flag st ST_EQ
  | 0x7 => !flag st ST_C
  | 0x8 => flag st ST_C
  | 0x9 => !flag st ST_OV
  | 0xa => !flag st ST_LGT && !flag st ST_EQ
  | 0xb => flag st ST_LGT && !flag st ST_EQ
  | 0xc => flag st ST_OP
  | _ => false

/-- The word of a jump. -/
def jumpWord (code : Fin 13) (disp : U8) : U16 := BitVec.ofNat 16 (0x1000 + code * 256 + disp.toNat)

/-- Where a jump that is taken lands. -/
def landing (pc : U16) (disp : U8) : U16 := pc + 2 + 2 * disp.signExtend 16

theorem jumpTarget_run (pc disp : U16) (s : Core β κ) :
    (jumpTarget pc disp).run s = .ok (pc + 2 * disp, s) := by
  obtain ⟨hmul, hprod⟩ := twice_no_overflow disp
  have htwice : (mulS (disp.signExtend 32 : U32) 2 : M β κ U32).run s =
      .ok (disp.signExtend 32 * 2, s) := if_pos hmul
  have hsum : (addS (pc.setWidth 32 : U32) (disp.signExtend 32 * 2) : M β κ U32).run s =
      .ok (pc.setWidth 32 + disp.signExtend 32 * 2, s) := if_pos (target_no_overflow pc disp hprod)
  have hvalue : ((pc.setWidth 32 + disp.signExtend 32 * 2 &&& 0xffff : U32)).setWidth 16 =
      pc + 2 * disp := by
    have hdisp : (disp.signExtend 32).setWidth 16 = disp := by
      apply BitVec.eq_of_getLsbD_eq
      intro i hi
      rw [BitVec.getLsbD_setWidth, BitVec.getLsbD_signExtend, if_pos hi, decide_eq_true hi,
        decide_eq_true (show i < 32 by omega)]
      rfl
    rw [BitVec.setWidth_and, BitVec.setWidth_add _ _ (by omega), BitVec.setWidth_mul _ _ (by omega),
      hdisp, BitVec.setWidth_setWidth_of_le _ (by omega), BitVec.setWidth_eq, BitVec.mul_comm]
    exact BitVec.and_allOnes
  rw [jumpTarget, run_bind_ok htwice, run_bind_ok hsum, hvalue]
  rfl

theorem testCondition_run (c : U16) (s : Core β κ) :
    (testCondition c).run s = .ok (condition s.st ((c >>> 8) &&& 0x000f).toNat, s) := by
  rfl

theorem execJump_run (ir : U16) (s : Core β κ) :
    (execJump ir).run s = .ok ((), { s with
      pc := if condition s.st (((ir &&& 0x0f00) >>> 8) &&& 0x000f).toNat then
          s.pc + 2 * ((ir &&& 0x00ff).setWidth 8 : U8).signExtend 16
        else s.pc }) := by
  have hget : (get : M β κ (Core β κ)).run s = .ok (s, s) := rfl
  rw [execJump, run_bind_ok (testCondition_run _ s)]
  by_cases h : condition s.st (((ir &&& 0x0f00) >>> 8) &&& 0x000f).toNat = true
  · rw [if_pos h, if_pos h, run_bind_ok hget, run_bind_ok (jumpTarget_run _ _ s)]
    rfl
  · rw [if_neg h, if_neg h]
    rfl

theorem jumpWord_fields (code : Fin 13) (disp : U8) :
    (jumpWord code disp).toNat = 0x1000 + code * 256 + disp.toNat ∧
      (((jumpWord code disp &&& 0x0f00) >>> 8) &&& 0x000f).toNat = code ∧
      (jumpWord code disp &&& 0x00ff).setWidth 8 = disp := by
  have hcode := code.isLt
  have hdisp := disp.isLt
  have hword : (jumpWord code disp).toNat = 0x1000 + code * 256 + disp.toNat := by
    rw [jumpWord, BitVec.toNat_ofNat, Nat.mod_eq_of_lt (by omega)]
  have hshift : ((jumpWord code disp &&& 0x0f00) >>> 8) &&& (0x000f : U16) =
      (jumpWord code disp >>> 8) &&& (0x000f : U16) := by
    apply BitVec.eq_of_getLsbD_eq
    intro i hi
    simp only [BitVec.getLsbD_and, BitVec.getLsbD_ushiftRight]
    interval_cases i <;> simp
  refine ⟨hword, ?_, ?_⟩
  · rw [hshift]
    have hfield : ((jumpWord code disp >>> 8) &&& (0x000f : U16)).toNat =
        (jumpWord code disp).toNat / 256 % 16 := BitField.toNat_field _ 8 4 (by decide)
    omega
  · have hlow : (jumpWord code disp &&& (0x00ff : U16)).toNat = (jumpWord code disp).toNat % 256 :=
      BitField.toNat_and_mask _ 8 (by decide)
    apply BitVec.eq_of_toNat_eq
    rw [BitVec.toNat_setWidth, hlow]
    omega

/-- A jump. -/
theorem stepOn_jump (code : Fin 13) (disp : U8) (s : Core β κ) :
    stepOn bus cru (jumpWord code disp) s = .ok (.ok .running,
      { s with pc := if condition s.st code then landing s.pc disp else s.pc + 2 }) := by
  obtain ⟨hword, hcode, hdisp⟩ := jumpWord_fields code disp
  have hlt := code.isLt
  have hbyte := disp.isLt
  refine stepOn_of bus cru (m := execJump (jumpWord code disp))
    (fun execute => decode_jump bus cru (by omega)) ?_
  rw [execJump_run, hcode, hdisp]
  rfl

end Step

end Tms9995
end EmuRs
end RetroCpu
