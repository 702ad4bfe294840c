import RetroCpu.EmuRs.Tms9995Exec
import RetroCpu.Lib.BitField
import Mathlib.Tactic.NormNum

/-!
# The Rust TMS9995 core returns

One lemma for each function of the core: it returns from every state.  The register
numbers of an instruction are fields of four bits, which is what the doubled register
number, the shifts of the CRU loops and the XOP vector need.
-/

namespace RetroCpu
namespace EmuRs
namespace Tms9995

open CheckedBuild

variable {β κ S : Type} (bus : Tms9995Bus β) (cru : Tms9995Cru κ)

/-- The register number of an operand is one of the workspace. -/
def Ea.InWorkspace : Ea → Prop
  | .reg n => n < 16
  | .mem _ => True

theorem nibble_lt (v : U16) : (v &&& 0x000f).toNat < 16 := by
  rw [BitVec.toNat_and]
  exact Nat.lt_of_le_of_lt Nat.and_le_right (by decide)

theorem land_nibble_lt (n : Nat) : n &&& 0x0f < 16 :=
  Nat.lt_of_le_of_lt Nat.and_le_right (by decide)

section Operands

theorem ends_setSt (f : U16 → U16) : Ends (setSt f : M β κ Unit) := Ends.modify _

theorem ends_readWord (addr : U16) : Ends (readWord bus addr : M β κ U16) :=
  Ends.get.bind fun _ => Ends.pure _

theorem ends_writeWord (addr value : U16) : Ends (writeWord bus addr value : M β κ Unit) :=
  Ends.modify _

theorem ends_fetchWord : Ends (fetchWord bus : M β κ U16) :=
  Ends.get.bind fun _ => (ends_readWord bus _).bind fun _ => (Ends.modify _).bind fun _ =>
    Ends.pure _

theorem mul_two_no_overflow {n : Nat} (h : n < 16) :
    BitVec.umulOverflow (BitVec.ofNat 16 n) 2 = false := by
  have hn : n % 65536 = n := Nat.mod_eq_of_lt (by omega)
  simp [BitVec.umulOverflow, hn]
  omega

variable {n : Nat}

theorem ends_regAddr (h : n < 16) : Ends (regAddr n : M β κ U16) :=
  Ends.bind (Returns.ensure (mul_two_no_overflow h) trivial) fun _ =>
    Ends.get.bind fun _ => Ends.pure _

theorem ends_readReg (h : n < 16) : Ends (readReg bus n : M β κ U16) :=
  (ends_regAddr h).bind fun _ => ends_readWord bus _

theorem ends_writeReg (h : n < 16) (v : U16) : Ends (writeReg bus n v : M β κ Unit) :=
  (ends_regAddr h).bind fun _ => ends_writeWord bus _ _

theorem ends_setLaeWord (v : U16) : Ends (setLaeWord v : M β κ Unit) :=
  (ends_setSt _).bind fun _ => (ends_setSt _).bind fun _ => ends_setSt _

theorem ends_setLaeByte (v : U8) : Ends (setLaeByte v : M β κ Unit) :=
  (ends_setSt _).bind fun _ => (ends_setSt _).bind fun _ => ends_setSt _

theorem ends_setCompareWord (a b : U16) : Ends (setCompareWord a b : M β κ Unit) :=
  (ends_setSt _).bind fun _ => (ends_setSt _).bind fun _ => ends_setSt _

theorem returns_resolveEa (mode : U16) (reg : Nat) (byteOp : Bool) :
    Returns (resolveEa bus mode reg byteOp : M β κ Ea) Ea.InWorkspace := by
  have hreg := land_nibble_lt reg
  unfold resolveEa
  split
  · exact Returns.pure hreg
  · exact (ends_readReg bus hreg).bind fun _ => Returns.pure trivial
  · apply (ends_fetchWord bus).bind
    intro off
    apply Returns.ite
    · exact fun _ => Returns.pure trivial
    · exact fun _ => (ends_readReg bus hreg).bind fun _ => Returns.pure trivial
  · exact (ends_readReg bus hreg).bind fun _ => (ends_writeReg bus hreg _).bind fun _ =>
      Returns.pure trivial
  · exact Returns.pure (show 0 < 16 by omega)

theorem returns_sourceEa (ir : U16) (byteOp : Bool) :
    Returns (sourceEa bus ir byteOp : M β κ Ea) Ea.InWorkspace :=
  returns_resolveEa bus _ _ _

variable {ea : Ea}

theorem ends_eaAddr (h : ea.InWorkspace) : Ends (eaAddr ea : M β κ U16) := by
  cases ea with
  | reg n => exact ends_regAddr h
  | mem addr => exact Ends.pure _

theorem ends_branchTarget (h : ea.InWorkspace) : Ends (branchTarget bus ea : M β κ U16) := by
  cases ea with
  | reg n => exact ends_readReg bus h
  | mem addr => exact Ends.pure _

theorem ends_readWordEa (h : ea.InWorkspace) : Ends (readWordEa bus ea : M β κ U16) := by
  cases ea with
  | reg n => exact ends_readReg bus h
  | mem addr => exact ends_readWord bus _

theorem ends_writeWordEa (h : ea.InWorkspace) (v : U16) :
    Ends (writeWordEa bus ea v : M β κ Unit) := by
  cases ea with
  | reg n => exact ends_writeReg bus h v
  | mem addr => exact ends_writeWord bus _ _

theorem ends_readByteEa (h : ea.InWorkspace) : Ends (readByteEa bus ea : M β κ U8) := by
  cases ea with
  | reg n => exact (ends_readReg bus h).bind fun _ => Ends.pure _
  | mem addr => exact Ends.get.bind fun _ => Ends.pure _

theorem ends_writeByteEa (h : ea.InWorkspace) (v : U8) :
    Ends (writeByteEa bus ea v : M β κ Unit) := by
  cases ea with
  | reg n => exact (ends_readReg bus h).bind fun _ => ends_writeReg bus h _
  | mem addr => exact Ends.modify _

end Operands

section Flags

theorem ends_setAddFlags (st a b result : U16) : Ends (setAddFlags st a b result : PanicM S U16) := by
  have ha := a.isLt
  have hb := b.isLt
  have hsum : BitVec.uaddOverflow (a.setWidth 32) (b.setWidth 32) = false := by
    simp [BitVec.uaddOverflow]
    omega
  exact Ends.bind (Returns.ensure hsum trivial) fun _ => Ends.pure _

theorem ends_setAddFlagsByte (st : U16) (a b result : U8) :
    Ends (setAddFlagsByte st a b result : PanicM S U16) :=
  (ends_setAddFlags _ _ _ _).bind fun _ => Ends.pure _

theorem ends_testCondition (condField : U16) : Ends (testCondition condField : M β κ Bool) :=
  Ends.get.bind fun _ => Ends.pure _

end Flags

section Formats

theorem ends_format8 (op8 ir : U16) : Ends (format8 bus op8 ir : M β κ Unit) := by
  have hr := nibble_lt ir
  apply (ends_fetchWord bus).bind
  intro imm
  apply Returns.ite
  · exact fun _ => (ends_writeReg bus hr _).bind fun _ => ends_setLaeWord _
  intro _
  apply Returns.ite
  · exact fun _ => (ends_readReg bus hr).bind fun _ => (ends_writeReg bus hr _).bind fun _ =>
      Ends.get.bind fun _ => (ends_setAddFlags _ _ _ _).bind fun _ => ends_setSt _
  intro _
  apply Returns.ite
  · exact fun _ => (ends_readReg bus hr).bind fun _ => (ends_writeReg bus hr _).bind fun _ =>
      ends_setLaeWord _
  intro _
  apply Returns.ite
  · exact fun _ => (ends_readReg bus hr).bind fun _ => (ends_writeReg bus hr _).bind fun _ =>
      ends_setLaeWord _
  intro _
  apply Returns.ite
  · exact fun _ => (ends_readReg bus hr).bind fun _ => ends_setCompareWord _ _
  intro _
  apply Returns.ite
  · exact fun _ => Ends.get.bind fun _ => ends_writeReg bus hr _
  intro _
  apply Returns.ite
  · exact fun _ => Ends.get.bind fun _ => ends_writeReg bus hr _
  · exact fun _ => Ends.modify _

theorem ends_execRtwp : Ends (execRtwp bus : M β κ Unit) :=
  (ends_readReg bus (by omega)).bind fun _ => (ends_readReg bus (by omega)).bind fun _ =>
    (ends_readReg bus (by omega)).bind fun _ => Ends.modify _

theorem ends_readBit (addr : U16) : Ends (readBit cru addr : M β κ Bool) :=
  Ends.get.bind fun _ => (Ends.modify _).bind fun _ => Ends.pure _

theorem ends_writeBit (addr : U16) (v : Bool) : Ends (writeBit cru addr v : M β κ Unit) :=
  Ends.modify _

theorem ends_execCruBit (sub ir : U16) : Ends (execCruBit bus cru sub ir : M β κ Unit) := by
  apply Ends.bind (m := cruAddr bus _)
  · exact (ends_readReg bus (by omega)).bind fun _ => Ends.pure _
  intro addr
  apply Returns.ite
  · exact fun _ => ends_writeBit cru _ _
  intro _
  apply Returns.ite
  · exact fun _ => ends_writeBit cru _ _
  · exact fun _ => (ends_readBit cru _).bind fun _ => ends_setSt _

theorem twice_no_overflow (disp : U16) :
    BitVec.smulOverflow (disp.signExtend 32) 2 = false ∧
      (disp.signExtend 32 * (2 : U32)).toInt = disp.toInt * 2 := by
  have hlo := BitVec.le_toInt disp
  have hhi := BitVec.toInt_lt (x := disp)
  have hdisp : (disp.signExtend 32).toInt = disp.toInt := BitVec.toInt_signExtend_of_le (by omega)
  have htwo : (2 : U32).toInt = 2 := by decide
  have hmul : BitVec.smulOverflow (disp.signExtend 32) 2 = false := by
    simp only [BitVec.smulOverflow, htwo, hdisp]
    norm_num at hlo hhi ⊢
    omega
  refine ⟨hmul, ?_⟩
  rw [BitVec.toInt_mul_of_not_smulOverflow (ne_true_of_eq_false hmul), htwo, hdisp]

theorem target_no_overflow (pc disp : U16) {twice : U32} (htwice : twice.toInt = disp.toInt * 2) :
    BitVec.saddOverflow (pc.setWidth 32) twice = false := by
  have hlo := BitVec.le_toInt disp
  have hhi := BitVec.toInt_lt (x := disp)
  have hpc : (pc.setWidth 32 : U32).toInt = pc.toNat := by
    have hnat : (pc.setWidth 32 : U32).toNat = pc.toNat := BitVec.toNat_setWidth_of_le (by omega)
    have := pc.isLt
    rw [BitVec.toInt_eq_toNat_of_lt (by omega), hnat]
  have := pc.isLt
  simp only [BitVec.saddOverflow, hpc, htwice]
  norm_num at hlo hhi ⊢
  omega

theorem ends_jumpTarget (pc disp : U16) : Ends (jumpTarget pc disp : PanicM S U16) := by
  obtain ⟨hmul, hprod⟩ := twice_no_overflow disp
  apply Returns.bind (Returns.ensure hmul (Q := fun t => BitVec.toInt t = disp.toInt * 2) hprod)
  intro twice htwice
  exact Ends.bind (Returns.ensure (target_no_overflow pc disp htwice) trivial) fun _ => Ends.pure _

theorem ends_execJump (ir : U16) : Ends (execJump ir : M β κ Unit) := by
  apply (ends_testCondition _).bind
  intro taken
  apply Returns.ite
  · exact fun _ => Ends.get.bind fun _ => (ends_jumpTarget _ _).bind fun _ => Ends.modify _
  · exact fun _ => Ends.pure _

theorem ends_doBlwp (vec : U16) (r11 : Option U16) : Ends (doBlwp bus vec r11 : M β κ Unit) := by
  apply (ends_readWord bus _).bind
  intro newWp
  apply (ends_readWord bus _).bind
  intro newPc
  apply Ends.get.bind
  intro s
  apply (ends_writeWord bus _ _).bind
  intro _
  apply Ends.get.bind
  intro s
  apply (ends_writeWord bus _ _).bind
  intro _
  apply Ends.get.bind
  intro s
  apply (ends_writeWord bus _ _).bind
  intro _
  cases r11 with
  | none => exact (Ends.pure _).bind fun _ => Ends.modify _
  | some v => exact (ends_writeWord bus _ _).bind fun _ => Ends.modify _

variable {dst src : Ea}

theorem ends_format1Byte (op : Format1Op) (hd : dst.InWorkspace) (hs : src.InWorkspace) :
    Ends (format1Byte bus op dst src : M β κ Unit) := by
  apply (ends_readByteEa bus hd).bind
  intro d
  apply (ends_readByteEa bus hs).bind
  intro s
  cases op with
  | add =>
      exact Ends.get.bind fun _ => (ends_setAddFlagsByte _ _ _ _).bind fun _ =>
        (ends_setSt _).bind fun _ => ends_writeByteEa bus hd _
  | sub => exact (ends_setSt _).bind fun _ => ends_writeByteEa bus hd _
  | soc => exact (ends_setLaeByte _).bind fun _ => ends_writeByteEa bus hd _
  | szc => exact (ends_setLaeByte _).bind fun _ => ends_writeByteEa bus hd _
  | cmp => exact ends_setSt _
  | mov => exact (ends_setLaeByte _).bind fun _ => ends_writeByteEa bus hd _

theorem ends_format1Word (op : Format1Op) (hd : dst.InWorkspace) (hs : src.InWorkspace) :
    Ends (format1Word bus op dst src : M β κ Unit) := by
  apply (ends_readWordEa bus hd).bind
  intro d
  apply (ends_readWordEa bus hs).bind
  intro s
  cases op with
  | add =>
      exact Ends.get.bind fun _ => (ends_setAddFlags _ _ _ _).bind fun _ =>
        (ends_setSt _).bind fun _ => ends_writeWordEa bus hd _
  | sub => exact (ends_setSt _).bind fun _ => ends_writeWordEa bus hd _
  | soc => exact (ends_setLaeWord _).bind fun _ => ends_writeWordEa bus hd _
  | szc => exact (ends_setLaeWord _).bind fun _ => ends_writeWordEa bus hd _
  | cmp => exact ends_setCompareWord _ _
  | mov => exact (ends_setLaeWord _).bind fun _ => ends_writeWordEa bus hd _

theorem ends_format1 (ir : U16) (byteOp : Bool) (op : Format1Op) :
    Ends (format1 bus ir byteOp op : M β κ Unit) := by
  apply Returns.bind (returns_resolveEa bus _ _ _)
  intro dst hd
  apply Returns.bind (returns_sourceEa bus _ _)
  intro src hs
  apply Returns.ite
  · exact fun _ => ends_format1Byte bus op hd hs
  · exact fun _ => ends_format1Word bus op hd hs

theorem ends_format3 (ir : U16) : Ends (format3 bus ir : M β κ Unit) := by
  have hd : (Ea.reg ((ir >>> 6) &&& 0x000f).toNat).InWorkspace := nibble_lt _
  apply Returns.bind (returns_sourceEa bus _ _)
  intro src hs
  apply (ends_readWordEa bus hd).bind
  intro d
  apply (ends_readWordEa bus hs).bind
  intro s
  apply Returns.ite
  · exact fun _ => (ends_setLaeWord _).bind fun _ => ends_writeWordEa bus hd _
  · exact fun _ => ends_setSt _

theorem ends_shiftCount (ir : U16) : Ends (shiftCount bus ir : M β κ Nat) := by
  apply Returns.ite
  · exact fun _ => (ends_readReg bus (by omega)).bind fun _ => Ends.pure _
  · exact fun _ => Ends.pure _

theorem ends_shiftOp (ir : U16) : Ends (shiftOp bus ir : M β κ Unit) := by
  have hreg := nibble_lt ir
  apply (ends_shiftCount bus ir).bind
  intro cnt
  apply (ends_readReg bus hreg).bind
  intro v
  apply (ends_setLaeWord _).bind
  intro _
  apply (ends_setSt _).bind
  intro _
  apply Returns.ite
  · exact fun _ => (ends_setSt _).bind fun _ => ends_writeReg bus hreg _
  · exact fun _ => (Ends.pure _).bind fun _ => ends_writeReg bus hreg _

/-- The product of two words is a double word. -/
theorem mul_words_no_overflow (a b : U16) :
    BitVec.umulOverflow (a.setWidth 32) (b.setWidth 32) = false := by
  have hab : a.toNat * b.toNat ≤ 65535 * 65535 :=
    Nat.mul_le_mul (by have := a.isLt; omega) (by have := b.isLt; omega)
  have ha : (a.setWidth 32).toNat = a.toNat := BitVec.toNat_setWidth_of_le (by omega)
  have hb : (b.setWidth 32).toNat = b.toNat := BitVec.toNat_setWidth_of_le (by omega)
  simp only [BitVec.umulOverflow, ha, hb]
  norm_num
  omega

theorem ends_execMpy (ir : U16) : Ends (execMpy bus ir : M β κ Unit) := by
  apply Returns.bind (returns_sourceEa bus _ _)
  intro src hs
  apply (ends_readWordEa bus hs).bind
  intro s
  apply (ends_readReg bus (by omega)).bind
  intro r0
  exact Ends.bind (Returns.ensure (mul_words_no_overflow _ _) trivial) fun _ =>
    (ends_writeReg bus (by omega) _).bind fun _ => ends_writeReg bus (by omega) _

/-- The divisor that passes the test of `div_overflow` is not zero. -/
theorem divisor_ne_zero {hi lo divisor : U16} (h : ¬ divOverflow hi lo divisor = true) :
    divisor.setWidth 32 ≠ (0 : U32) := by
  intro hz
  have hd : divisor = 0 := by
    apply BitVec.eq_of_toNat_eq
    have := congrArg BitVec.toNat hz
    rwa [BitVec.toNat_setWidth_of_le (by omega)] at this
  rw [divOverflow, if_pos hd] at h
  exact h rfl

theorem ends_execDiv (ir : U16) : Ends (execDiv bus ir : M β κ Unit) := by
  apply Returns.bind (returns_sourceEa bus _ _)
  intro src hs
  apply (ends_readWordEa bus hs).bind
  intro div
  apply (ends_readReg bus (by omega)).bind
  intro hi32
  apply (ends_readReg bus (by omega)).bind
  intro lo32
  apply Returns.ite
  · exact fun _ => ends_setSt _
  · intro hdiv
    have hne := divisor_ne_zero hdiv
    exact Ends.bind (Returns.ensure hne trivial) fun _ =>
      Ends.bind (Returns.ensure hne trivial) fun _ => (ends_setSt _).bind fun _ =>
        (ends_writeReg bus (by omega) _).bind fun _ => ends_writeReg bus (by omega) _

theorem ends_execXop (ir : U16) : Ends (execXop bus ir : M β κ Unit) := by
  have hxop := nibble_lt (ir >>> 6)
  generalize hx : (ir >>> 6) &&& 0x000f = xop at hxop
  apply Returns.bind (returns_sourceEa bus _ _)
  intro src hs
  apply (ends_eaAddr hs).bind
  intro r11
  apply (ends_setSt _).bind
  intro _
  have hmul : BitVec.umulOverflow xop 4 = false := by
    simp [BitVec.umulOverflow]
    omega
  have hprod : (xop * 4).toNat ≤ 60 := by
    have h4 : (4 : U16).toNat = 4 := by decide
    rw [BitVec.toNat_mul, h4]
    omega
  simp only [hx]
  apply Returns.bind (Returns.ensure hmul (Q := fun t => BitVec.toNat t ≤ 60) hprod)
  intro t ht
  have hadd : BitVec.uaddOverflow 0x0040 t = false := by
    simp [BitVec.uaddOverflow]
    omega
  exact Ends.bind (Returns.ensure hadd trivial) fun _ => ends_doBlwp bus _ _

section CruTransfer

theorem ends_readDataByte : Ends (readDataByte cru : M β κ U8) :=
  Ends.get.bind fun _ => (Ends.modify _).bind fun _ => Ends.pure _

theorem ends_writeDataByte (v : U8) : Ends (writeDataByte cru v : M β κ Unit) := Ends.modify _

variable {w : Nat} {bits : Nat}

/-- The loop that reads bits of the CRU into a byte or a word. -/
theorem ends_readBits (base : U16) (hbits : bits ≤ w) (b : BitVec w) :
    Ends ((List.range bits).foldlM (fun (b : BitVec w) i => do
      if ← readBit cru (base + BitVec.ofNat 16 i) then do
        return b ||| (← shl 1 i)
      else return b) b : M β κ (BitVec w)) := by
  refine Returns.foldlM (fun i hi b _ => ?_) b trivial
  have hlt : i < w := Nat.lt_of_lt_of_le (List.mem_range.mp hi) hbits
  apply (ends_readBit cru _).bind
  intro bit
  apply Returns.ite
  · exact fun _ => Ends.bind (Returns.ensure hlt trivial) fun _ => Ends.pure _
  · exact fun _ => Ends.pure _

/-- The loop that writes the bits of a byte or a word to the CRU. -/
theorem ends_writeBits (base : U16) (hbits : bits ≤ w) (b : BitVec w) :
    Ends ((List.range bits).forM (fun i => do
      let bit : Bool := (← shrU b i) &&& 1 ≠ 0
      writeBit cru (base + BitVec.ofNat 16 i) bit) : M β κ Unit) := by
  refine Returns.forM fun i hi => ?_
  have hlt : i < w := Nat.lt_of_lt_of_le (List.mem_range.mp hi) hbits
  exact Ends.bind (Returns.ensure hlt trivial) fun _ => ends_writeBit cru _ _

theorem ends_cruTransfer (ir : U16) (isStcr : Bool) :
    Ends (cruTransfer bus cru ir isStcr : M β κ Unit) := by
  apply Returns.bind (returns_sourceEa bus _ _)
  intro ea hea
  apply (ends_readReg bus (by omega)).bind
  intro base
  apply Returns.ite
  · intro _
    apply Returns.ite
    · exact fun _ => (ends_readDataByte cru).bind fun _ => (ends_writeByteEa bus hea _).bind
        fun _ => ends_setLaeByte _
    intro _
    apply Returns.ite
    · exact fun hbits => (ends_readBits cru _ hbits _).bind fun _ =>
        (ends_writeByteEa bus hea _).bind fun _ => ends_setLaeByte _
    · exact fun _ => (ends_readBits cru _ (Nat.le_refl 16) _).bind fun _ =>
        (ends_writeWordEa bus hea _).bind fun _ => ends_setLaeWord _
  intro _
  apply Returns.ite
  · exact fun _ => (ends_readByteEa bus hea).bind fun _ => ends_writeDataByte cru _
  intro _
  apply Returns.ite
  · exact fun hbits => (ends_readByteEa bus hea).bind fun _ => ends_writeBits cru _ hbits _
  · exact fun _ => (ends_readWordEa bus hea).bind fun _ => ends_writeBits cru _ (Nat.le_refl 16) _

end CruTransfer

theorem ends_format6Word (f : U16 → U16) {ea : Ea} (h : ea.InWorkspace) :
    Ends (format6Word bus f ea : M β κ Unit) :=
  (ends_readWordEa bus h).bind fun _ => (ends_writeWordEa bus h _).bind fun _ => ends_setLaeWord _

theorem ends_execAbs {ea : Ea} (h : ea.InWorkspace) : Ends (execAbs bus ea : M β κ Unit) :=
  (ends_readWordEa bus h).bind fun _ => (ends_setLaeWord _).bind fun _ => (ends_setSt _).bind
    fun _ => (ends_setSt _).bind fun _ => (ends_writeWordEa bus h _).bind fun _ => ends_setLaeWord _

/-- The words of the X instruction. -/
def IsX (ir : U16) : Prop := ir &&& 0xffc0 = 0x0480

instance (ir : U16) : Decidable (IsX ir) := inferInstanceAs (Decidable (_ = _))

variable {execute : U16 → M β κ Outcome} {ir : U16}

theorem ends_running {m : M β κ Unit} (h : Ends m) :
    Ends (do m; return .ok .running : M β κ Outcome) :=
  h.bind fun _ => Ends.pure _

theorem ends_format6 (oldPc : U16) (hx : ¬ IsX ir) :
    Ends (format6 bus execute ir oldPc : M β κ Outcome) := by
  apply Returns.bind (returns_sourceEa bus _ _)
  intro ea hea
  apply Returns.ite
  · exact fun _ => (ends_branchTarget bus hea).bind fun _ => ends_running (ends_doBlwp bus _ _)
  intro _
  apply Returns.ite
  · exact fun _ => (ends_branchTarget bus hea).bind fun _ => ends_running (Ends.modify _)
  intro _
  apply Returns.ite
  · exact fun h => absurd h hx
  intro _
  apply Returns.ite
  · exact fun _ => (ends_writeWordEa bus hea _).bind fun _ => ends_running (ends_setLaeWord _)
  intro _
  apply Returns.ite
  · exact fun _ => ends_running (ends_format6Word bus _ hea)
  intro _
  apply Returns.ite
  · exact fun _ => ends_running (ends_format6Word bus _ hea)
  intro _
  apply Returns.ite
  · exact fun _ => ends_running (ends_format6Word bus _ hea)
  intro _
  apply Returns.ite
  · exact fun _ => ends_running (ends_format6Word bus _ hea)
  intro _
  apply Returns.ite
  · exact fun _ => ends_running (ends_format6Word bus _ hea)
  intro _
  apply Returns.ite
  · exact fun _ => ends_running (ends_format6Word bus _ hea)
  intro _
  apply Returns.ite
  · exact fun _ => (ends_branchTarget bus hea).bind fun _ => Ends.get.bind fun _ =>
      (ends_writeReg bus (by omega) _).bind fun _ => ends_running (Ends.modify _)
  intro _
  apply Returns.ite
  · exact fun _ => ends_running (ends_format6Word bus _ hea)
  intro _
  apply Returns.ite
  · exact fun _ => (ends_writeWordEa bus hea _).bind fun _ => ends_running (ends_setLaeWord _)
  intro _
  apply Returns.ite
  · exact fun _ => ends_running (ends_execAbs bus hea)
  · exact fun _ => Ends.pure _

end Formats

section Decoder

variable {execute : U16 → M β κ Outcome} {ir : U16}

/-- The tests for DIVS and MPYS compare a word whose low byte is masked away with a
constant whose low byte is not zero. -/
theorem masked_ne {c : U16} (ir : U16) (hc : c &&& 0x00ff ≠ 0) : ir &&& 0xff00 ≠ c := by
  rintro rfl
  apply hc
  rw [BitVec.and_assoc]
  exact BitVec.and_zero

theorem ends_decodeHigh (oldPc : U16) (hx : ¬ IsX ir) :
    Ends (decodeHigh bus execute ir oldPc : M β κ Outcome) := by
  unfold decodeHigh
  iterate 12
    apply Returns.ite
    · exact fun _ => ends_running (ends_format1 bus _ _ _)
    intro _
  apply Returns.ite
  · exact fun h => absurd h (masked_ne ir (by decide))
  intro _
  apply Returns.ite
  · exact fun h => absurd h (masked_ne ir (by decide))
  intro _
  apply Returns.ite
  · exact fun _ => ends_format6 bus oldPc hx
  · exact fun _ => Ends.pure _

theorem ends_decode (oldPc : U16) (hx : ¬ IsX ir) :
    Ends (decode bus cru execute ir oldPc : M β κ Outcome) := by
  apply Returns.ite
  · exact fun _ => ends_running (ends_format8 bus _ _)
  intro _
  apply Returns.ite
  · exact fun _ => ends_running ((ends_readReg bus (nibble_lt ir)).bind fun _ => ends_setSt _)
  intro _
  apply Returns.ite
  · exact fun _ => ends_running ((ends_readReg bus (nibble_lt ir)).bind fun _ => Ends.modify _)
  intro _
  apply Returns.ite
  · exact fun _ => ends_running ((ends_fetchWord bus).bind fun _ => ends_setSt _)
  intro _
  apply Returns.ite
  · exact fun _ => (Ends.modify _).bind fun _ => Ends.pure _
  intro _
  apply Returns.ite
  · exact fun _ => ends_running (ends_setSt _)
  intro _
  apply Returns.ite
  · exact fun _ => ends_running (ends_execRtwp bus)
  intro _
  apply Returns.ite
  · intro _
    apply Returns.ite
    · exact fun _ => ends_running (ends_execCruBit bus cru _ _)
    · exact fun _ => ends_running (ends_execJump _)
  intro _
  apply Returns.ite
  · exact fun _ => ends_running (ends_format3 bus _)
  intro _
  apply Returns.ite
  · exact fun _ => ends_running (ends_cruTransfer bus cru _ _)
  intro _
  apply Returns.ite
  · exact fun _ => ends_running (ends_shiftOp bus _)
  intro _
  apply Returns.ite
  · exact fun _ => ends_running (ends_execMpy bus _)
  intro _
  apply Returns.ite
  · exact fun _ => ends_running (ends_execDiv bus _)
  intro _
  apply Returns.ite
  · exact fun _ => ends_running (ends_execXop bus _)
  · exact fun _ => ends_decodeHigh bus oldPc hx

end Decoder

section ExecuteInstruction

/-- The word that an X instruction executes, and the state in which it does. -/
def executedWord (ir : U16) (s : Core β κ) : U16 × Core β κ :=
  let n := (ir &&& 0x000f).toNat
  let addr := s.wp + BitVec.ofNat 16 n * 2
  let r := bus.readWord s.mem addr
  match ((ir >>> 4) &&& 0x0003).toNat with
  | 0 => (r, s)
  | 1 => (bus.readWord s.mem r, s)
  | 2 =>
      let off := bus.readWord s.mem s.pc
      (bus.readWord s.mem (if n = 0 then off else r + off), { s with pc := s.pc + 2 })
  | _ =>
      let mem := bus.writeWord s.mem addr (r + 2)
      (bus.readWord mem r, { s with mem := mem })

/-- Along the words that X instructions execute one another there is one that is not X. -/
def XEnds (ir : U16) (s : Core β κ) : Prop :=
  ∃ n, ¬ IsX ((fun p => executedWord bus p.1 p.2)^[n] (ir, s)).1

theorem regAddr_run {n : Nat} (h : n < 16) (s : Core β κ) :
    (regAddr n).run s = .ok (s.wp + BitVec.ofNat 16 n * 2, s) := by
  have hmul : (mulU (BitVec.ofNat 16 n) 2 : M β κ U16).run s = .ok (BitVec.ofNat 16 n * 2, s) :=
    if_pos (mul_two_no_overflow h)
  exact run_bind_ok hmul

theorem readReg_run {n : Nat} (h : n < 16) (s : Core β κ) :
    (readReg bus n).run s = .ok (bus.readWord s.mem (s.wp + BitVec.ofNat 16 n * 2), s) :=
  run_bind_ok (regAddr_run h s)

theorem writeReg_run {n : Nat} (h : n < 16) (v : U16) (s : Core β κ) :
    (writeReg bus n v).run s =
      .ok ((), { s with mem := bus.writeWord s.mem (s.wp + BitVec.ofNat 16 n * 2) v }) :=
  run_bind_ok (regAddr_run h s)

theorem fetchWord_run (s : Core β κ) :
    (fetchWord bus).run s = .ok (bus.readWord s.mem s.pc, { s with pc := s.pc + 2 }) := rfl

theorem and_mask_and_mask (v m : U16) : v &&& m &&& m = v &&& m := by
  rw [BitVec.and_assoc, BitVec.and_self]

theorem executedWord_run (ir : U16) (s : Core β κ) :
    (sourceEa bus ir false >>= readWordEa bus).run s =
      .ok ((executedWord bus ir s).1, (executedWord bus ir s).2) := by
  have hn := nibble_lt ir
  have hland : (ir &&& 0x000f).toNat &&& 0x0f = (ir &&& 0x000f).toNat :=
    Nat.and_two_pow_sub_one_of_lt_two_pow (n := 4) hn
  have hlt : ((ir >>> 4) &&& 0x0003).toNat < 4 := by
    rw [BitVec.toNat_and]
    exact Nat.lt_of_le_of_lt Nat.and_le_right (by decide)
  simp only [sourceEa, resolveEa, hland, and_mask_and_mask, executedWord, Bool.false_eq_true,
    if_false]
  generalize ((ir >>> 4) &&& 0x0003).toNat = mode at hlt
  generalize (ir &&& 0x000f).toNat = n at hn
  match mode, hlt with
  | 0, _ => exact readReg_run bus hn s
  | 1, _ =>
      simp only [bind_assoc]
      exact run_bind_ok (readReg_run bus hn s)
  | 2, _ =>
      simp only [bind_assoc]
      rw [run_bind_ok (fetchWord_run bus s)]
      by_cases h0 : n = 0
      · simp only [h0, if_pos]
        rfl
      · simp only [h0, if_false, bind_assoc]
        exact run_bind_ok (readReg_run bus hn _)
  | 3, _ =>
      simp only [bind_assoc]
      rw [run_bind_ok (readReg_run bus hn s)]
      rw [run_bind_ok (writeReg_run bus hn _ s), pure_bind]
      rfl

variable {execute : U16 → M β κ Outcome} {ir : U16}

theorem masked_of_isX (h : IsX ir) {m : U16} (hm : 0xffc0 &&& m = m) : ir &&& m = 0x0480 &&& m := by
  rw [← hm, ← BitVec.and_assoc, ← BitVec.and_assoc, h]
  rfl

/-- None of the tests before Format 6 takes an X word. -/
theorem decode_isX (h : IsX ir) (oldPc : U16) :
    decode bus cru execute ir oldPc = format6 bus execute ir oldPc := by
  have hc000 : ir &&& 0xc000 = 0 := masked_of_isX h (by decide)
  have hf000 : ir &&& 0xf000 = 0 := masked_of_isX h (by decide)
  have hf800 : ir &&& 0xf800 = 0 := masked_of_isX h (by decide)
  have hfc00 : ir &&& 0xfc00 = 0x0400 := masked_of_isX h (by decide)
  have hff00 : ir &&& 0xff00 = 0x0400 := masked_of_isX h (by decide)
  have hop8 : isFormat8 (ir &&& 0xfff0) = false := by
    have hm : (ir &&& 0xfff0) &&& 0xffc0 = 0x0480 := by
      rw [BitVec.and_assoc]
      exact h
    generalize ir &&& 0xfff0 = op8 at hm
    simp only [isFormat8, decide_eq_false_iff_not]
    rintro (rfl | rfl | rfl | rfl | rfl | rfl | rfl | rfl) <;> exact absurd hm (by decide)
  have hne {c : U16} (hc : ¬ IsX c) : ir ≠ c := fun heq => hc (heq ▸ h)
  simp only [decode, decodeHigh, hop8, hff00, hf000, hfc00, hf800, hc000,
    hne (c := 0x0300) (by decide), hne (c := 0x0340) (by decide), hne (c := 0x0360) (by decide),
    hne (c := 0x0380) (by decide)]
  rfl

/-- X executes the word that its operand names. -/
theorem format6_isX (h : IsX ir) (oldPc : U16) :
    format6 bus execute ir oldPc = do
      let inner ← sourceEa bus ir false >>= readWordEa bus
      match ← execute inner with
      | .error e => return .error e
      | .ok _ => return .ok .running := by
  have h' : ir &&& 0xffc0 = 0x0480 := h
  simp only [format6, h', bind_assoc]
  rfl

theorem executeIr_isX (h : IsX ir) (rounds : Nat) (oldPc : U16) (s : Core β κ) :
    (executeIr bus cru (rounds + 1) ir oldPc).run s =
      ((do
        match ← executeIr bus cru rounds (executedWord bus ir s).1 oldPc with
        | .error e => return .error e
        | .ok _ => return .ok .running) : M β κ Outcome).run (executedWord bus ir s).2 := by
  rw [executeIr, decode_isX bus cru h, format6_isX bus h, run_bind_ok (executedWord_run bus ir s)]

/-- An instruction returns when the words that X instructions execute end with one that is
not X. -/
theorem executeIr_returns {n : Nat} {s : Core β κ}
    (h : ¬ IsX ((fun p => executedWord bus p.1 p.2)^[n] (ir, s)).1) (oldPc : U16) :
    ∃ r s', (executeIr bus cru (n + 1) ir oldPc).run s = .ok (r, s') := by
  induction n generalizing ir s with
  | zero =>
      have hends : Ends (executeIr bus cru (0 + 1) ir oldPc) := ends_decode bus cru oldPc h
      obtain ⟨r, s', hrun, _⟩ := hends s
      exact ⟨r, s', hrun⟩
  | succ n ih =>
      by_cases hx : IsX ir
      · have hrest : ¬ IsX ((fun p => executedWord bus p.1 p.2)^[n]
            ((executedWord bus ir s).1, (executedWord bus ir s).2)).1 := h
        obtain ⟨r, s', hrun⟩ := ih hrest
        rw [executeIr_isX bus cru hx, run_bind_ok hrun]
        cases r with
        | error e => exact ⟨_, _, rfl⟩
        | ok a => exact ⟨_, _, rfl⟩
      · have hends : Ends (executeIr bus cru (n + 1 + 1) ir oldPc) := ends_decode bus cru oldPc hx
        obtain ⟨r, s', hrun, _⟩ := hends s
        exact ⟨r, s', hrun⟩

/-- An instruction whose X instructions execute X words only is never done. -/
theorem executeIr_endless {s : Core β κ}
    (h : ∀ n, IsX ((fun p => executedWord bus p.1 p.2)^[n] (ir, s)).1) (rounds : Nat)
    (oldPc : U16) : (executeIr bus cru rounds ir oldPc).run s = .error .endless := by
  induction rounds generalizing ir s with
  | zero => rfl
  | succ rounds ih =>
      have hrest (n : Nat) : IsX ((fun p => executedWord bus p.1 p.2)^[n]
          ((executedWord bus ir s).1, (executedWord bus ir s).2)).1 := h (n + 1)
      have hx : IsX ir := h 0
      rw [executeIr_isX bus cru hx, run_bind_error (ih hrest)]

theorem step_returns_iff (s : Core β κ) :
    (∃ rounds r s', (step bus cru rounds).run s = .ok (r, s')) ↔
      s.idle = true ∨ XEnds bus (bus.readWord s.mem s.pc) { s with pc := s.pc + 2 } := by
  have hget : (get : M β κ (Core β κ)).run s = .ok (s, s) := rfl
  by_cases hidle : s.idle = true
  · refine iff_of_true ⟨0, .ok .idle, s, ?_⟩ (Or.inl hidle)
    rw [step, run_bind_ok hget, if_pos hidle]
    rfl
  have hrun (rounds : Nat) : (step bus cru rounds).run s =
      (executeIr bus cru rounds (bus.readWord s.mem s.pc) s.pc).run { s with pc := s.pc + 2 } := by
    rw [step, run_bind_ok hget, if_neg hidle]
    exact run_bind_ok (fetchWord_run bus s)
  constructor
  · rintro ⟨rounds, r, s', hok⟩
    right
    by_contra hx
    have hendless := executeIr_endless bus cru (fun n => not_not.mp (not_exists.mp hx n)) rounds s.pc
    rw [hrun rounds, hendless] at hok
    cases hok
  · rintro (h | ⟨n, hn⟩)
    · exact absurd h hidle
    · obtain ⟨r, s', hok⟩ := executeIr_returns bus cru hn s.pc
      exact ⟨n + 1, r, s', (hrun _).trans hok⟩

end ExecuteInstruction

end Tms9995
end EmuRs
end RetroCpu
