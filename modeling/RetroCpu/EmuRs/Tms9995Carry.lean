import RetroCpu.EmuRs.Tms9995Runs

/-!
# Carry and overflow of the Rust TMS9995 core

`A`, `AI` and `S` set C and OV as the exact result requires.  `AB` and `SB` judge their
bytes on sixteen bits: the carry out of a byte and the overflow of a byte are lost.
-/

namespace RetroCpu
namespace EmuRs
namespace Tms9995

open CheckedBuild

section Exact

variable {w : Nat}

/-- The exact sum or difference. -/
def exactSum (subtract : Bool) (d s : Int) : Int := if subtract then d - s else d + s

/-- The unsigned sum carries out; the unsigned difference does not borrow. -/
def Carries (subtract : Bool) (d s : BitVec w) : Prop :=
  if subtract then s.toNat ≤ d.toNat else 2 ^ w ≤ d.toNat + s.toNat

/-- The signed result does not fit. -/
def Overflows (subtract : Bool) (d s : BitVec w) : Prop :=
  ¬ (-2 ^ (w - 1) ≤ exactSum subtract d.toInt s.toInt ∧
    exactSum subtract d.toInt s.toInt < 2 ^ (w - 1))

instance (subtract : Bool) (d s : BitVec w) : Decidable (Carries subtract d s) := by
  unfold Carries
  infer_instance

instance (subtract : Bool) (d s : BitVec w) : Decidable (Overflows subtract d s) := by
  unfold Overflows
  infer_instance

end Exact

section Flags

/-- The status that `set_add_flags` computes. -/
def addStatus (st a b result : U16) : U16 :=
  setFlag (setFlag (setLaeWordFlags st result) ST_C (0xffff < a.toNat + b.toNat)) ST_OV
    (((0 : U16).slt a ∧ (0 : U16).slt b ∧ result.slt 0) ∨
      (a.slt 0 ∧ b.slt 0 ∧ (0 : U16).sle result))

theorem setAddFlags_run {S : Type} (st a b result : U16) (s : S) :
    (setAddFlags st a b result).run s = .ok (addStatus st a b result, s) := by
  have ha := a.isLt
  have hb := b.isLt
  have hover : BitVec.uaddOverflow (a.setWidth 32) (b.setWidth 32) = false := by
    simp [BitVec.uaddOverflow]
    omega
  have hsum : (addU (a.setWidth 32 : U32) (b.setWidth 32) : PanicM S U32).run s =
      .ok (a.setWidth 32 + b.setWidth 32, s) := if_pos hover
  have hcarry : (a.setWidth 32 + b.setWidth 32 > (0xffff : U32)) = (0xffff < a.toNat + b.toNat) := by
    rw [gt_iff_lt, BitVec.lt_def, BitVec.toNat_add, BitVec.toNat_setWidth_of_le (by omega),
      BitVec.toNat_setWidth_of_le (by omega), Nat.mod_eq_of_lt (by omega)]
    rfl
  rw [setAddFlags, run_bind_ok hsum]
  simp only [hcarry]
  rfl

variable (st : U16)

theorem flag_c_addStatus (a b result : U16) :
    flag (addStatus st a b result) ST_C = decide (0xffff < a.toNat + b.toNat) := by
  rw [flag_c, addStatus, getLsbD_setFlag _ _ _ (by omega), getLsbD_setFlag _ _ _ (by omega)]
  rfl

theorem flag_ov_addStatus (a b result : U16) :
    flag (addStatus st a b result) ST_OV = decide
      (((0 : U16).slt a ∧ (0 : U16).slt b ∧ result.slt 0) ∨
        (a.slt 0 ∧ b.slt 0 ∧ (0 : U16).sle result)) := by
  rw [flag_ov, addStatus, getLsbD_setFlag _ _ _ (by omega)]
  rfl

theorem flag_c_subFlags (a b result : U16) :
    flag (setSubFlags st a b result) ST_C = decide (b.toNat ≤ a.toNat) := by
  rw [flag_c, setSubFlags, getLsbD_setFlag _ _ _ (by omega), getLsbD_setFlag _ _ _ (by omega)]
  rfl

theorem flag_ov_subFlags (a b result : U16) :
    flag (setSubFlags st a b result) ST_OV = decide
      (((0 : U16).sle a ∧ b.slt 0 ∧ result.slt 0) ∨
        (a.slt 0 ∧ (0 : U16).sle b ∧ (0 : U16).sle result)) := by
  rw [flag_ov, setSubFlags, getLsbD_setFlag _ _ _ (by omega)]
  rfl

theorem toInt_cases (x : U16) : (x.toNat < 32768 ∧ x.toInt = x.toNat) ∨
    (32768 ≤ x.toNat ∧ x.toInt = x.toNat - 65536) := by
  have hlt := x.isLt
  rw [BitVec.toInt_eq_toNat_cond]
  split_ifs <;> omega

/-- OV of a word addition. -/
theorem addStatus_overflows (a b : U16) :
    flag (addStatus st a b (a + b)) ST_OV = true ↔ Overflows false a b := by
  have hsum : (a + b).toNat = (a.toNat + b.toNat) % 65536 := BitVec.toNat_add a b
  rw [flag_ov_addStatus, decide_eq_true_iff, BitVec.slt_iff_toInt_lt, BitVec.slt_iff_toInt_lt,
    BitVec.slt_iff_toInt_lt, BitVec.slt_iff_toInt_lt, BitVec.slt_iff_toInt_lt,
    BitVec.sle_iff_toInt_le, Overflows, exactSum]
  have h0 : (0 : U16).toInt = 0 := by decide
  rw [h0]
  rcases toInt_cases a with ⟨ha, ha'⟩ | ⟨ha, ha'⟩ <;>
    rcases toInt_cases b with ⟨hb, hb'⟩ | ⟨hb, hb'⟩ <;>
    rcases toInt_cases (a + b) with ⟨hr, hr'⟩ | ⟨hr, hr'⟩ <;>
    rw [ha', hb', hr'] <;> simp <;> omega

theorem subFlags_overflows (a b : U16) :
    flag (setSubFlags st a b (a - b)) ST_OV = true ↔ Overflows true a b := by
  have hdiff : (a - b).toNat = (65536 - b.toNat + a.toNat) % 65536 := BitVec.toNat_sub a b
  rw [flag_ov_subFlags, decide_eq_true_iff, BitVec.slt_iff_toInt_lt, BitVec.slt_iff_toInt_lt,
    BitVec.slt_iff_toInt_lt, BitVec.sle_iff_toInt_le, BitVec.sle_iff_toInt_le,
    BitVec.sle_iff_toInt_le, Overflows, exactSum]
  have h0 : (0 : U16).toInt = 0 := by decide
  rw [h0]
  rcases toInt_cases a with ⟨ha, ha'⟩ | ⟨ha, ha'⟩ <;>
    rcases toInt_cases b with ⟨hb, hb'⟩ | ⟨hb, hb'⟩ <;>
    rcases toInt_cases (a - b) with ⟨hr, hr'⟩ | ⟨hr, hr'⟩ <;>
    rw [ha', hb', hr'] <;> simp <;> omega

end Flags

section ByteFlags

variable (st : U16)

/-- The status that `set_add_flags_byte` computes. -/
def addByteStatus (a b result : U8) : U16 :=
  setLaeByteFlags (addStatus st (a.setWidth 16) (b.setWidth 16) (result.setWidth 16)) result

theorem setAddFlagsByte_run {S : Type} (a b result : U8) (s : S) :
    (setAddFlagsByte st a b result).run s = .ok (addByteStatus st a b result, s) := by
  rw [setAddFlagsByte, run_bind_ok (setAddFlags_run _ _ _ _ _)]
  rfl

/-- A byte is no negative word. -/
theorem byte_nonneg (x : U8) : (x.setWidth 16 : U16).slt 0 = false := by
  have hlt := x.isLt
  have hx : (x.setWidth 16 : U16).toNat = x.toNat := BitVec.toNat_setWidth_of_le (by omega)
  rw [← Bool.not_eq_true, BitVec.slt_iff_toInt_lt, BitVec.toInt_eq_toNat_of_lt (by omega), hx]
  have h0 : (0 : U16).toInt = 0 := by decide
  omega

/-- The flags of a byte addition: no sum of two bytes leaves sixteen bits. -/
theorem addByteStatus_flags (a b result : U8) :
    flag (addByteStatus st a b result) ST_C = false ∧
      flag (addByteStatus st a b result) ST_OV = false ∧
      flag (addByteStatus st a b result) ST_OP = oddOnes result := by
  obtain ⟨hop, hov, hc⟩ := getLsbD_setLaeByteFlags
    (addStatus st (a.setWidth 16) (b.setWidth 16) (result.setWidth 16)) result
  have ha := a.isLt
  have hb := b.isLt
  rw [flag_c, flag_ov, flag_op, addByteStatus, hop, hov, hc, ← flag_c, ← flag_ov, flag_c_addStatus,
    flag_ov_addStatus, byte_nonneg a, byte_nonneg result, BitVec.toNat_setWidth_of_le (by omega),
    BitVec.toNat_setWidth_of_le (by omega), decide_eq_false (by omega)]
  simp

theorem subByteFlags_flags (a b result : U8) :
    flag (setSubFlagsByte st a b result) ST_C = decide (b.toNat ≤ a.toNat) ∧
      flag (setSubFlagsByte st a b result) ST_OV = false ∧
      flag (setSubFlagsByte st a b result) ST_OP = oddOnes result := by
  obtain ⟨hop, hov, hc⟩ := getLsbD_setLaeByteFlags
    (setSubFlags st (a.setWidth 16) (b.setWidth 16) (result.setWidth 16)) result
  rw [flag_c, flag_ov, flag_op, setSubFlagsByte, hop, hov, hc, ← flag_c, ← flag_ov,
    flag_c_subFlags, flag_ov_subFlags, byte_nonneg a, byte_nonneg b,
    BitVec.toNat_setWidth_of_le (by omega), BitVec.toNat_setWidth_of_le (by omega)]
  simp

end ByteFlags

section Steps

variable {β κ : Type} (bus : Tms9995Bus β) (cru : Tms9995Cru κ)

/-- The additions and subtractions. -/
inductive ArithOp
  | a | ai | s | ab | sb
deriving DecidableEq, Repr

/-- The words of an operation. -/
def ArithOp.Word (op : ArithOp) (ir : U16) : Prop :=
  match op with
  | .a => ir.toNat / 4096 = 0xa
  | .ai => ir.toNat / 16 = 0x22
  | .s => ir.toNat / 4096 = 0x6
  | .ab => ir.toNat / 4096 = 0xb
  | .sb => ir.toNat / 4096 = 0x7

instance ArithOp.decidableWord (op : ArithOp) (ir : U16) : Decidable (op.Word ir) := by
  cases op <;> exact inferInstanceAs (Decidable (_ = _))

/-- The result, C and OV of an addition or subtraction, and the jumps that test them. -/
structure Exactly {w : Nat} (subtract : Bool) (d s r : BitVec w) (c : Core β κ) : Prop where
  result : (r.toNat : Int) = exactSum subtract d.toNat s.toNat % 2 ^ w
  carry : flag c.st ST_C = true ↔ Carries subtract d s
  overflow : flag c.st ST_OV = true ↔ Overflows subtract d s
  jnc : ∀ disp, stepOn bus cru (jumpWord 0x7 disp) c = .ok (.ok .running,
    { c with pc := if Carries subtract d s then c.pc + 2 else landing c.pc disp })
  joc : ∀ disp, stepOn bus cru (jumpWord 0x8 disp) c = .ok (.ok .running,
    { c with pc := if Carries subtract d s then landing c.pc disp else c.pc + 2 })
  jno : ∀ disp, stepOn bus cru (jumpWord 0x9 disp) c = .ok (.ok .running,
    { c with pc := if Overflows subtract d s then c.pc + 2 else landing c.pc disp })

/-- The operands of an operation, and the state behind them. -/
def ArithOp.operands (op : ArithOp) (ir : U16) (s : Core β κ) : Operands β κ :=
  match op with
  | .a | .s => operandsOf bus ir false { s with pc := s.pc + 2 }
  | .ab | .sb => operandsOf bus ir true { s with pc := s.pc + 2 }
  | .ai => ⟨.reg (ir &&& 0x000f).toNat, .mem (s.pc + 2), { s with pc := s.pc + 2 + 2 }⟩

/-- The parity of a byte. -/
def OddParity (v : U8) : Prop := ((List.range 8).countP fun i => v.getLsbD i) % 2 = 1

instance (v : U8) : Decidable (OddParity v) := inferInstanceAs (Decidable (_ = _))

/-- A step of a word operation stores the exact result and sets the flags it requires. -/
def WordExact (subtract : Bool) (ir : U16) (s : Core β κ) (o : Operands β κ) : Prop :=
  ∃ r c, stepOn bus cru ir s = .ok (.ok .running, c) ∧ c.mem = putWord bus o.state r o.dst ∧
    Exactly bus cru subtract (wordAt bus o.state o.dst) (wordAt bus o.state o.src) r c

/-- A step of a byte operation, with OP. -/
def ByteExact (subtract : Bool) (ir : U16) (s : Core β κ) (o : Operands β κ) : Prop :=
  ∃ r c, stepOn bus cru ir s = .ok (.ok .running, c) ∧ c.mem = putByte bus o.state r o.dst ∧
    Exactly bus cru subtract (byteAt bus o.state o.dst) (byteAt bus o.state o.src) r c ∧
    (flag c.st ST_OP = true ↔ OddParity r)

/-- What an operation should do. -/
def ArithOp.Exact (op : ArithOp) (ir : U16) (s : Core β κ) : Prop :=
  match op with
  | .a | .ai => WordExact bus cru false ir s (op.operands bus ir s)
  | .s => WordExact bus cru true ir s (op.operands bus ir s)
  | .ab => ByteExact bus cru false ir s (op.operands bus ir s)
  | .sb => ByteExact bus cru true ir s (op.operands bus ir s)

/-- No carry and no overflow that the byte operation loses. -/
def ArithOp.Kept (op : ArithOp) (ir : U16) (s : Core β κ) : Prop :=
  let o := op.operands bus ir s
  let d := byteAt bus o.state o.dst
  let x := byteAt bus o.state o.src
  match op with
  | .a | .ai | .s => True
  | .ab => ¬ Carries false d x ∧ ¬ Overflows false d x
  | .sb => ¬ Overflows true d x

variable {w : Nat} {subtract : Bool} {d x r : BitVec w} {c : Core β κ}

/-- The jumps test the flags. -/
theorem exactly_of_flags (hresult : (r.toNat : Int) = exactSum subtract d.toNat x.toNat % 2 ^ w)
    (hcarry : flag c.st ST_C = true ↔ Carries subtract d x)
    (hoverflow : flag c.st ST_OV = true ↔ Overflows subtract d x) :
    Exactly bus cru subtract d x r c := by
  refine ⟨hresult, hcarry, hoverflow, fun disp => ?_, fun disp => ?_, fun disp => ?_⟩
  · rw [stepOn_jump]
    by_cases h : Carries subtract d x
    · simp [condition, h, hcarry.mpr h]
    · simp [condition, h, Bool.not_eq_true _ ▸ mt hcarry.mp h]
  · rw [stepOn_jump]
    by_cases h : Carries subtract d x
    · simp [condition, h, hcarry.mpr h]
    · simp [condition, h, Bool.not_eq_true _ ▸ mt hcarry.mp h]
  · rw [stepOn_jump]
    by_cases h : Overflows subtract d x
    · simp [condition, h, hoverflow.mpr h]
    · simp [condition, h, Bool.not_eq_true _ ▸ mt hoverflow.mp h]

theorem toNat_add_exact (d x : BitVec w) :
    ((d + x).toNat : Int) = exactSum false d.toNat x.toNat % 2 ^ w := by
  rw [BitVec.toNat_add]
  push_cast
  rfl

theorem toNat_sub_exact (d x : BitVec w) :
    ((d - x).toNat : Int) = exactSum true d.toNat x.toNat % 2 ^ w := by
  have hx := x.isLt
  rw [BitVec.toNat_sub, exactSum, if_pos rfl]
  push_cast [Int.ofNat_sub (Nat.le_of_lt hx)]
  rw [← Int.add_mul_emod_self_left (d.toNat - x.toNat : Int) (2 ^ w) 1]
  congr 1
  omega

theorem carries_add (d x : U16) (st : U16) (r : U16) :
    flag (addStatus st d x r) ST_C = true ↔ Carries false d x := by
  rw [flag_c_addStatus, decide_eq_true_iff, Carries]
  exact Nat.lt_iff_add_one_le

theorem carries_sub (d x : U16) (st : U16) (r : U16) :
    flag (setSubFlags st d x r) ST_C = true ↔ Carries true d x := by
  rw [flag_c_subFlags, decide_eq_true_iff, Carries, if_pos rfl]

variable {dst src : Ea}

theorem format1Word_add (hdst : dst.InWorkspace) (hsrc : src.InWorkspace) (s : Core β κ) :
    (format1Word bus .add dst src).run s =
      .ok ((), { s with
        st := addStatus s.st (wordAt bus s dst) (wordAt bus s src) (wordAt bus s dst + wordAt bus s src)
        mem := putWord bus s (wordAt bus s dst + wordAt bus s src) dst }) := by
  rw [format1Word, run_bind_ok (readWordEa_run bus hdst s), run_bind_ok (readWordEa_run bus hsrc s)]
  dsimp only
  rw [run_bind_ok (get_run s), run_bind_ok (setAddFlags_run _ _ _ _ s), run_bind_ok (setSt_run _ s),
    writeWordEa_run bus hdst, putWord_st]

theorem format1Word_sub (hdst : dst.InWorkspace) (hsrc : src.InWorkspace) (s : Core β κ) :
    (format1Word bus .sub dst src).run s =
      .ok ((), { s with
        st := setSubFlags s.st (wordAt bus s dst) (wordAt bus s src)
          (wordAt bus s dst - wordAt bus s src)
        mem := putWord bus s (wordAt bus s dst - wordAt bus s src) dst }) := by
  rw [format1Word, run_bind_ok (readWordEa_run bus hdst s), run_bind_ok (readWordEa_run bus hsrc s)]
  dsimp only
  rw [run_bind_ok (setSt_run _ s), writeWordEa_run bus hdst, putWord_st]

theorem format1Byte_add (hdst : dst.InWorkspace) (hsrc : src.InWorkspace) (s : Core β κ) :
    (format1Byte bus .add dst src).run s =
      .ok ((), { s with
        st := addByteStatus s.st (byteAt bus s dst) (byteAt bus s src)
          (byteAt bus s dst + byteAt bus s src)
        mem := putByte bus s (byteAt bus s dst + byteAt bus s src) dst }) := by
  rw [format1Byte, run_bind_ok (readByteEa_run bus hdst s), run_bind_ok (readByteEa_run bus hsrc s)]
  dsimp only
  rw [run_bind_ok (get_run s), run_bind_ok (setAddFlagsByte_run _ _ _ _ s),
    run_bind_ok (setSt_run _ s), writeByteEa_run bus hdst, putByte_st]

theorem format1Byte_sub (hdst : dst.InWorkspace) (hsrc : src.InWorkspace) (s : Core β κ) :
    (format1Byte bus .sub dst src).run s =
      .ok ((), { s with
        st := setSubFlagsByte s.st (byteAt bus s dst) (byteAt bus s src)
          (byteAt bus s dst - byteAt bus s src)
        mem := putByte bus s (byteAt bus s dst - byteAt bus s src) dst }) := by
  rw [format1Byte, run_bind_ok (readByteEa_run bus hdst s), run_bind_ok (readByteEa_run bus hsrc s)]
  dsimp only
  rw [run_bind_ok (setSt_run _ s), writeByteEa_run bus hdst, putByte_st]

theorem format8_ai (ir : U16) (s : Core β κ) :
    (format8 bus 0x0220 ir).run s =
      .ok ((), { s with
        pc := s.pc + 2
        st := addStatus s.st (s.reg bus (ir &&& 0x000f).toNat) (bus.readWord s.mem s.pc)
          (s.reg bus (ir &&& 0x000f).toNat + bus.readWord s.mem s.pc)
        mem := bus.writeWord s.mem (s.regAt (ir &&& 0x000f).toNat)
          (s.reg bus (ir &&& 0x000f).toNat + bus.readWord s.mem s.pc) }) := by
  have hreg := nibble_lt ir
  rw [format8, run_bind_ok (fetchWord_run bus s), if_neg (by decide), if_pos rfl,
    run_bind_ok (reg_run bus hreg _), run_bind_ok (writeReg_run bus hreg _ _),
    run_bind_ok (get_run _), run_bind_ok (setAddFlags_run _ _ _ _ _)]
  rfl

variable {ir : U16} {s : Core β κ}

theorem wordExact_add (hir : ir.toNat / 4096 = 0xa) :
    WordExact bus cru false ir s (operandsOf bus ir false { s with pc := s.pc + 2 }) := by
  obtain ⟨hdst, hsrc⟩ := operandsOf_inWorkspace bus ir false { s with pc := s.pc + 2 }
  have hstep := stepOn_format1 bus cru (s := s) false .add (by rw [hir]; rfl)
    (format1Word_add bus hdst hsrc _)
  exact ⟨_, _, hstep, rfl, exactly_of_flags bus cru (toNat_add_exact _ _) (carries_add _ _ _ _)
    (addStatus_overflows _ _ _)⟩

theorem wordExact_sub (hir : ir.toNat / 4096 = 0x6) :
    WordExact bus cru true ir s (operandsOf bus ir false { s with pc := s.pc + 2 }) := by
  obtain ⟨hdst, hsrc⟩ := operandsOf_inWorkspace bus ir false { s with pc := s.pc + 2 }
  have hstep := stepOn_format1 bus cru (s := s) false .sub (by rw [hir]; rfl)
    (format1Word_sub bus hdst hsrc _)
  exact ⟨_, _, hstep, rfl, exactly_of_flags bus cru (toNat_sub_exact _ _) (carries_sub _ _ _ _)
    (subFlags_overflows _ _ _)⟩

/-- `AI` adds the word behind it to a register. -/
theorem wordExact_ai (hir : ir.toNat / 16 = 0x22) :
    WordExact bus cru false ir s (ArithOp.ai.operands bus ir s) := by
  have hreg := nibble_lt ir
  have hop8 : ir &&& 0xfff0 = 0x0220 := by
    rw [← BitVec.toNat_inj, and_fff0, hir]
    rfl
  have hrun := format8_ai bus ir { s with pc := s.pc + 2 }
  have hstep := stepOn_of bus cru (s := s) (fun _ => decode_format8 bus cru (by rw [hop8]; rfl))
    (hop8 ▸ hrun)
  exact ⟨_, _, hstep, rfl, exactly_of_flags bus cru (toNat_add_exact _ _) (carries_add _ _ _ _)
    (addStatus_overflows _ _ _)⟩

theorem oddOnes_eq (v : U8) : oddOnes v = true ↔ OddParity v := by
  revert v
  decide

/-- A byte addition is exact when nothing is carried and the result fits. -/
theorem byteExact_add (hir : ir.toNat / 4096 = 0xb) :
    ByteExact bus cru false ir s (operandsOf bus ir true { s with pc := s.pc + 2 }) ↔
      ArithOp.ab.Kept bus ir s := by
  obtain ⟨hdst, hsrc⟩ := operandsOf_inWorkspace bus ir true { s with pc := s.pc + 2 }
  have hstep := stepOn_format1 bus cru (s := s) true .add (by rw [hir]; rfl)
    (format1Byte_add bus hdst hsrc _)
  unfold ArithOp.Kept ArithOp.operands
  dsimp only
  generalize operandsOf bus ir true { s with pc := s.pc + 2 } = o at hdst hsrc hstep
  obtain ⟨hc, hov, hop⟩ := addByteStatus_flags o.state.st (byteAt bus o.state o.dst)
    (byteAt bus o.state o.src) (byteAt bus o.state o.dst + byteAt bus o.state o.src)
  constructor
  · rintro ⟨r, c, hstep', -, hexact, -⟩
    rw [hstep] at hstep'
    cases hstep'
    refine ⟨fun hcarry => ?_, fun hoverflow => ?_⟩
    · exact absurd (hexact.carry.mpr hcarry) (by rw [hc]; exact Bool.false_ne_true)
    · exact absurd (hexact.overflow.mpr hoverflow) (by rw [hov]; exact Bool.false_ne_true)
  · rintro ⟨hcarry, hoverflow⟩
    refine ⟨_, _, hstep, rfl, exactly_of_flags bus cru (toNat_add_exact _ _) ?_ ?_, ?_⟩
    · exact iff_of_false (by rw [hc]; exact Bool.false_ne_true) hcarry
    · exact iff_of_false (by rw [hov]; exact Bool.false_ne_true) hoverflow
    · rw [hop, oddOnes_eq]

theorem byteExact_sub (hir : ir.toNat / 4096 = 0x7) :
    ByteExact bus cru true ir s (operandsOf bus ir true { s with pc := s.pc + 2 }) ↔
      ArithOp.sb.Kept bus ir s := by
  obtain ⟨hdst, hsrc⟩ := operandsOf_inWorkspace bus ir true { s with pc := s.pc + 2 }
  have hstep := stepOn_format1 bus cru (s := s) true .sub (by rw [hir]; rfl)
    (format1Byte_sub bus hdst hsrc _)
  unfold ArithOp.Kept ArithOp.operands
  dsimp only
  generalize operandsOf bus ir true { s with pc := s.pc + 2 } = o at hdst hsrc hstep
  obtain ⟨hc, hov, hop⟩ := subByteFlags_flags o.state.st (byteAt bus o.state o.dst)
    (byteAt bus o.state o.src) (byteAt bus o.state o.dst - byteAt bus o.state o.src)
  constructor
  · rintro ⟨r, c, hstep', -, hexact, -⟩ hoverflow
    rw [hstep] at hstep'
    cases hstep'
    exact absurd (hexact.overflow.mpr hoverflow) (by rw [hov]; exact Bool.false_ne_true)
  · intro hoverflow
    refine ⟨_, _, hstep, rfl, exactly_of_flags bus cru (toNat_sub_exact _ _) ?_ ?_, ?_⟩
    · rw [hc, decide_eq_true_iff, Carries, if_pos rfl]
    · exact iff_of_false (by rw [hov]; exact Bool.false_ne_true) hoverflow
    · rw [hop, oddOnes_eq]

end Steps

section Bytes

/-- `R1` and `R2` hold 0x80 in their low bytes. -/
def halves : Core (U16 → U8) Tms9995CruBus where
  pc := 0x1000
  wp := 0x0100
  st := 0
  idle := false
  mem a := if a = 0x0103 ∨ a = 0x0105 then 0x80 else 0
  cru := ⟨fun _ => false, 0, 0⟩

/-- `AB R2,R1` -/
def addBytes : U16 := 0xb042

end Bytes

end Tms9995
end EmuRs
end RetroCpu
