import RetroCpu.EmuRs.Tms9995Runs

/-!
# Compares and jumps of the Rust TMS9995 core

The relational jumps behind a compare test the relations of the two operands that the core
reads.  `format1` resolves the destination before the source, so these need not be the
operands of the instruction, whose extra words and increments go source first.
-/

namespace RetroCpu
namespace EmuRs
namespace Tms9995

open CheckedBuild

section Relations

/-- The jumps that test a relation. -/
inductive CompareJump
  | jlt | jle | jeq | jhe | jgt | jne | jl | jh
deriving DecidableEq, Repr

def CompareJump.code : CompareJump → Fin 13
  | .jlt => 0x1
  | .jle => 0x2
  | .jeq => 0x3
  | .jhe => 0x4
  | .jgt => 0x5
  | .jne => 0x6
  | .jl => 0xa
  | .jh => 0xb

variable {w : Nat}

/-- The relation of the first operand to the second. -/
def CompareJump.Relates (j : CompareJump) (a b : BitVec w) : Prop :=
  match j with
  | .jlt => a.toInt < b.toInt
  | .jle => a ≤ b
  | .jeq => a = b
  | .jhe => b ≤ a
  | .jgt => b.toInt < a.toInt
  | .jne => a ≠ b
  | .jl => a < b
  | .jh => b < a

instance (j : CompareJump) (a b : BitVec w) : Decidable (j.Relates a b) := by
  cases j <;> unfold CompareJump.Relates <;> infer_instance

/-- The status tells the relations of two operands. -/
structure Tells (st : U16) (a b : BitVec w) : Prop where
  eq : flag st ST_EQ = decide (a = b)
  lgt : flag st ST_LGT = decide (b < a)
  agt : flag st ST_AGT = decide (b.toInt < a.toInt)

/-- A relational jump is taken when its relation holds. -/
theorem Tells.taken {st : U16} {a b : BitVec w} (h : Tells st a b) (j : CompareJump) :
    condition st j.code = decide (j.Relates a b) := by
  have hnat : a = b ↔ a.toNat = b.toNat := BitVec.toNat_inj.symm
  have hint : a = b ↔ a.toInt = b.toInt := BitVec.toInt_inj.symm
  have hcases : condition st j.code = true ↔ j.Relates a b := by
    cases j with
    | jlt =>
        change (!flag st ST_AGT && !flag st ST_EQ) = true ↔ a.toInt < b.toInt
        simp only [h.agt, h.eq, hint, Bool.and_eq_true, Bool.not_eq_true', decide_eq_false_iff_not]
        omega
    | jle =>
        change (!flag st ST_LGT || flag st ST_EQ) = true ↔ a.toNat ≤ b.toNat
        simp only [h.lgt, h.eq, hnat, BitVec.lt_def, Bool.or_eq_true, Bool.not_eq_true',
          decide_eq_false_iff_not, decide_eq_true_iff]
        omega
    | jeq =>
        change flag st ST_EQ = true ↔ a = b
        rw [h.eq, decide_eq_true_iff]
    | jhe =>
        change (flag st ST_LGT || flag st ST_EQ) = true ↔ b.toNat ≤ a.toNat
        simp only [h.lgt, h.eq, hnat, BitVec.lt_def, Bool.or_eq_true, decide_eq_true_iff]
        omega
    | jgt =>
        change flag st ST_AGT = true ↔ b.toInt < a.toInt
        rw [h.agt, decide_eq_true_iff]
    | jne =>
        change (!flag st ST_EQ) = true ↔ a ≠ b
        rw [h.eq, Bool.not_eq_true', decide_eq_false_iff_not]
    | jl =>
        change (!flag st ST_LGT && !flag st ST_EQ) = true ↔ a.toNat < b.toNat
        simp only [h.lgt, h.eq, hnat, BitVec.lt_def, Bool.and_eq_true, Bool.not_eq_true',
          decide_eq_false_iff_not]
        omega
    | jh =>
        change (flag st ST_LGT && !flag st ST_EQ) = true ↔ b.toNat < a.toNat
        simp only [h.lgt, h.eq, hnat, BitVec.lt_def, Bool.and_eq_true, Bool.not_eq_true',
          decide_eq_false_iff_not, decide_eq_true_iff]
        omega
  rw [Bool.eq_iff_iff, hcases, decide_eq_true_iff]

/-- Two pairs of operands stand in the same relations. -/
def SameOrder (a b a' b' : BitVec w) : Prop :=
  ∀ j : CompareJump, j.Relates a b ↔ j.Relates a' b'

end Relations

section Status

variable (st : U16)

/-- The status that `set_compare_word` leaves. -/
def compareStatus (a b : U16) : U16 :=
  setFlag (setFlag (setFlag (st &&& ~~~(ST_LGT ||| ST_AGT ||| ST_EQ)) ST_EQ (a = b)) ST_LGT
    (a > b)) ST_AGT (b.slt a)

theorem setCompareWord_run {β κ : Type} (a b : U16) (s : Core β κ) :
    (setCompareWord a b).run s = .ok ((), { s with st := compareStatus s.st a b }) := rfl

theorem tells_compareStatus (a b : U16) : Tells (compareStatus st a b) a b := by
  refine ⟨?_, ?_, ?_⟩
  · rw [flag_eq, compareStatus, getLsbD_setFlag _ _ _ (by omega), getLsbD_setFlag _ _ _ (by omega),
      getLsbD_setFlag _ _ _ (by omega)]
    rfl
  · rw [flag_lgt, compareStatus, getLsbD_setFlag _ _ _ (by omega),
      getLsbD_setFlag _ _ _ (by omega)]
    rfl
  · rw [flag_agt, compareStatus, getLsbD_setFlag _ _ _ (by omega)]
    rfl

theorem compareStatus_kept (a b : U16) :
    flag (compareStatus st a b) ST_C = flag st ST_C ∧
      flag (compareStatus st a b) ST_OV = flag st ST_OV := by
  have hkept {i : Nat} (hi : i < 13) : (compareStatus st a b).getLsbD i = st.getLsbD i := by
    rw [compareStatus, getLsbD_setFlag _ _ _ (by omega), getLsbD_setFlag _ _ _ (by omega),
      getLsbD_setFlag _ _ _ (by omega)]
    interval_cases i <;> simp [ST_LGT, ST_AGT, ST_EQ]
  rw [flag_c, flag_c, flag_ov, flag_ov, hkept (by omega), hkept (by omega)]
  exact ⟨rfl, rfl⟩

theorem tells_setCompareByte (a b : U8) : Tells (setCompareByte st a b) a b := by
  refine ⟨?_, ?_, ?_⟩
  · rw [flag_eq, setCompareByte]
    split_ifs <;> simp_all [ST_LGT, ST_AGT, ST_EQ, ST_OP]
  · rw [flag_lgt, setCompareByte]
    split_ifs <;> simp_all [ST_LGT, ST_AGT, ST_EQ, ST_OP]
  · rw [flag_agt, setCompareByte]
    split_ifs <;> simp_all [ST_LGT, ST_AGT, ST_EQ, ST_OP, BitVec.slt_iff_toInt_lt]

theorem setCompareByte_kept (a b : U8) :
    flag (setCompareByte st a b) ST_C = flag st ST_C ∧
      flag (setCompareByte st a b) ST_OV = flag st ST_OV := by
  rw [flag_c, flag_c, flag_ov, flag_ov, setCompareByte]
  split_ifs <;> simp [ST_LGT, ST_AGT, ST_EQ, ST_OP]

end Status

section Increments

variable {β κ : Type}

/-- A byte of a workspace register. -/
def InRegister (s : Core β κ) (n : Nat) (x : U16) : Prop :=
  x = s.regAt n &&& 0xfffe ∨ x = (s.regAt n &&& 0xfffe) + 1

/-- Nothing is written but registers that are incremented. -/
structure Bumped (bus : Tms9995Bus β) (touched : Nat → Prop) (inc : Nat → U16) (s t : Core β κ) :
    Prop where
  wp : t.wp = s.wp
  st : t.st = s.st
  regs : ∀ n < 16, t.reg bus n = s.reg bus n + inc n
  bytes : ∀ x, (∀ n < 16, touched n → ¬ InRegister s n x) →
    bus.readByte t.mem x = bus.readByte s.mem x

variable {bus : Tms9995Bus β}

theorem Bumped.trans {touched touched' : Nat → Prop} {inc inc' : Nat → U16} {s t u : Core β κ}
    (h : Bumped bus touched inc s t) (h' : Bumped bus touched' inc' t u) :
    Bumped bus (fun n => touched n ∨ touched' n) (fun n => inc n + inc' n) s u := by
  refine ⟨h'.wp.trans h.wp, h'.st.trans h.st, fun n hn => ?_, fun x hx => ?_⟩
  · rw [h'.regs n hn, h.regs n hn, BitVec.add_assoc]
  · have hreg (n : Nat) : t.regAt n = s.regAt n := by rw [Core.regAt, Core.regAt, h.wp]
    rw [h'.bytes x fun n hn htouched => ?_, h.bytes x fun n hn htouched => hx n hn (.inl htouched)]
    have hout := hx n hn (.inr htouched)
    rwa [InRegister, ← hreg] at hout

/-- Distinct registers are distinct words. -/
theorem regAt_inj {s : Core β κ} {m n : Nat} (hm : m < 16) (hn : n < 16)
    (h : s.regAt m &&& 0xfffe = s.regAt n &&& 0xfffe) : m = n := by
  have hnat := congrArg BitVec.toNat h
  have hreg (k : Nat) (hk : k < 16) : (s.regAt k).toNat = (s.wp.toNat + k * 2) % 65536 := by
    have h2 : (2 : U16).toNat = 2 := rfl
    rw [Core.regAt, BitVec.toNat_add, BitVec.toNat_mul, BitVec.toNat_ofNat, h2]
    omega
  rw [and_fffe, and_fffe, hreg m hm, hreg n hn] at hnat
  omega

/-- What an address field adds to a register. -/
def bump (mode reg : Nat) (byteOp : Bool) (n : Nat) : U16 :=
  if mode = 3 ∧ reg = n then if byteOp then 1 else 2 else 0

theorem named_bumped (hbus : bus.Memory) {mode reg : Nat} (hmode : mode < 4) (hreg : reg < 16)
    (byteOp : Bool) (s : Core β κ) :
    Bumped bus (fun n => mode = 3 ∧ reg = n) (bump mode reg byteOp) s
      (named bus mode reg byteOp s).2 := by
  have hkept (t : Core β κ) (hwp : t.wp = s.wp) (hst : t.st = s.st) (hmem : t.mem = s.mem)
      (hne : mode ≠ 3) :
      Bumped bus (fun n => mode = 3 ∧ reg = n) (bump mode reg byteOp) s t := by
    refine ⟨hwp, hst, fun n _ => ?_, fun x _ => by rw [hmem]⟩
    rw [Core.reg, Core.reg, Core.regAt, hwp, hmem, bump, if_neg fun h => hne h.1]
    exact (BitVec.add_zero _).symm
  match mode, hmode with
  | 0, _ => exact hkept _ rfl rfl rfl (by omega)
  | 1, _ => exact hkept _ rfl rfl rfl (by omega)
  | 2, _ => exact hkept _ rfl rfl rfl (by omega)
  | 3, _ =>
      refine ⟨rfl, rfl, fun n hn => ?_, fun x hx => ?_⟩
      · refine (hbus.readWord_writeWord _ _ _ _).trans ?_
        change (if s.regAt n &&& 0xfffe = s.regAt reg &&& 0xfffe then _ else s.reg bus n) = _
        by_cases h : reg = n
        · subst h
          rw [bump, if_pos (⟨rfl, rfl⟩ : 3 = 3 ∧ reg = reg)]
          exact if_pos rfl
        · rw [if_neg fun heq => h (regAt_inj hn hreg heq).symm, bump, if_neg fun h' => h h'.2]
          exact (BitVec.add_zero _).symm
      · obtain ⟨heven, hodd⟩ := not_or.mp (hx reg hreg ⟨rfl, rfl⟩)
        exact (hbus.readByte_writeWord _ _ _ _).trans ((if_neg hodd).trans (if_neg heven))

end Increments

section Steps

variable {β κ : Type} (bus : Tms9995Bus β) (cru : Tms9995Cru κ)

/-- The compare instructions. -/
inductive CompareOp
  | c | cb | ci
deriving DecidableEq, Repr

/-- The words of an operation. -/
def CompareOp.Word (op : CompareOp) (ir : U16) : Prop :=
  match op with
  | .c => ir.toNat / 4096 = 0x8
  | .cb => ir.toNat / 4096 = 0x9
  | .ci => ir.toNat / 16 = 0x28

instance CompareOp.decidableWord (op : CompareOp) (ir : U16) : Decidable (op.Word ir) := by
  cases op <;> exact inferInstanceAs (Decidable (_ = _))

/-- A compare of the operands `a` and `b`, and the jumps behind it. -/
def Compares {w : Nat} (ir : U16) (s : Core β κ) (a b : BitVec w) (touched : Nat → Prop)
    (inc : Nat → U16) : Prop :=
  ∃ c, stepOn bus cru ir s = .ok (.ok .running, c) ∧
    (∀ (j : CompareJump) disp, stepOn bus cru (jumpWord j.code disp) c = .ok (.ok .running,
      { c with pc := if j.Relates a b then landing c.pc disp else c.pc + 2 })) ∧
    flag c.st ST_C = flag s.st ST_C ∧ flag c.st ST_OV = flag s.st ST_OV ∧
    Bumped bus touched inc { s with st := c.st } c

/-- An auto-incremented register. -/
def Incremented (ir : U16) (n : Nat) : Prop :=
  (((ir >>> 4) &&& 0x0003).toNat = 3 ∧ (ir &&& 0x000f).toNat = n) ∨
    (((ir >>> 10) &&& 0x0003).toNat = 3 ∧ ((ir >>> 6) &&& 0x000f).toNat = n)

/-- What the operands add to a register. -/
def increments (ir : U16) (byteOp : Bool) (n : Nat) : U16 :=
  bump ((ir >>> 4) &&& 0x0003).toNat (ir &&& 0x000f).toNat byteOp n +
    bump ((ir >>> 10) &&& 0x0003).toNat ((ir >>> 6) &&& 0x000f).toNat byteOp n

/-- The operands in the order of the instruction: the first is resolved and read first. -/
def inOrder {α : Type} (value : Core β κ → Ea → α) (ir : U16) (byteOp : Bool) (s : Core β κ) :
    α × α :=
  let src := sourceOf bus ir byteOp s
  let dst := destinationOf bus ir byteOp src.2
  (value src.2 src.1, value dst.2 dst.1)

/-- The operands that `format1` reads. -/
def asRead {α : Type} (value : Core β κ → Ea → α) (ir : U16) (byteOp : Bool) (s : Core β κ) :
    α × α :=
  let o := operandsOf bus ir byteOp s
  (value o.state o.src, value o.state o.dst)

/-- What a compare should do. -/
def CompareOp.Exact (op : CompareOp) (ir : U16) (s : Core β κ) : Prop :=
  let next := { s with pc := s.pc + 2 }
  match op with
  | .c =>
      let ab := inOrder bus (wordAt bus) ir false next
      Compares bus cru ir s ab.1 ab.2 (Incremented ir) (increments ir false)
  | .cb =>
      let ab := inOrder bus (byteAt bus) ir true next
      Compares bus cru ir s ab.1 ab.2 (Incremented ir) (increments ir true)
  | .ci =>
      Compares bus cru ir s (s.reg bus (ir &&& 0x000f).toNat) (bus.readWord s.mem (s.pc + 2))
        (fun _ => False) (fun _ => 0)

/-- The operands that are read stand in the relations of the operands of the instruction. -/
def CompareOp.Kept (op : CompareOp) (ir : U16) (s : Core β κ) : Prop :=
  let next := { s with pc := s.pc + 2 }
  match op with
  | .c =>
      let ab := inOrder bus (wordAt bus) ir false next
      let read := asRead bus (wordAt bus) ir false next
      SameOrder ab.1 ab.2 read.1 read.2
  | .cb =>
      let ab := inOrder bus (byteAt bus) ir true next
      let read := asRead bus (byteAt bus) ir true next
      SameOrder ab.1 ab.2 read.1 read.2
  | .ci => True

variable {w : Nat} {ir : U16} {s c : Core β κ} {a b a' b' : BitVec w} {touched : Nat → Prop}
  {inc : Nat → U16}

/-- The jumps behind a compare tell the relations of the operands that were read. -/
theorem compares_iff (hstep : stepOn bus cru ir s = .ok (.ok .running, c))
    (htells : Tells c.st a' b')
    (hflags : flag c.st ST_C = flag s.st ST_C ∧ flag c.st ST_OV = flag s.st ST_OV)
    (hbumped : Bumped bus touched inc { s with st := c.st } c) :
    Compares bus cru ir s a b touched inc ↔ SameOrder a b a' b' := by
  have hne : landing c.pc 1 ≠ c.pc + 2 := by
    intro h
    have hnat := congrArg BitVec.toNat h
    have h2 : (2 * BitVec.signExtend 16 (1 : U8)).toNat = 2 := by decide
    have hlt := (c.pc + 2).isLt
    rw [landing, BitVec.toNat_add, h2] at hnat
    omega
  constructor
  · rintro ⟨c', hstep', hjumps, -⟩ j
    rw [hstep] at hstep'
    cases hstep'
    have hjump := hjumps j 1
    rw [stepOn_jump, htells.taken] at hjump
    have hpc := congrArg (fun r : Except Panic (Outcome × Core β κ) => r.map fun p => p.2.pc) hjump
    simp only [Except.map, Except.ok.injEq, decide_eq_true_iff] at hpc
    by_cases h : j.Relates a b
    · by_cases h' : j.Relates a' b'
      · exact iff_of_true h h'
      · rw [if_neg h', if_pos h] at hpc
        exact absurd hpc.symm hne
    · by_cases h' : j.Relates a' b'
      · rw [if_pos h', if_neg h] at hpc
        exact absurd hpc hne
      · exact iff_of_false h h'
  · intro hsame
    refine ⟨c, hstep, fun j disp => ?_, hflags.1, hflags.2, hbumped⟩
    rw [stepOn_jump, htells.taken]
    by_cases h : j.Relates a b
    · rw [if_pos h, decide_eq_true ((hsame j).mp h)]
      rfl
    · rw [if_neg h, decide_eq_false fun h' => h ((hsame j).mpr h')]
      rfl

theorem operandsOf_bumped (hbus : bus.Memory) (ir : U16) (byteOp : Bool) (s : Core β κ) :
    Bumped bus (Incremented ir) (increments ir byteOp) s (operandsOf bus ir byteOp s).state := by
  have hmode (x : U16) : (x &&& 0x0003).toNat < 4 := by
    rw [BitVec.toNat_and]
    exact Nat.lt_of_le_of_lt Nat.and_le_right (by decide)
  have hdst := named_bumped hbus (hmode (ir >>> 10)) (nibble_lt (ir >>> 6)) byteOp s
  have hsrc := named_bumped hbus (hmode (ir >>> 4)) (nibble_lt ir) byteOp
    (destinationOf bus ir byteOp s).2
  have hboth := hdst.trans hsrc
  refine ⟨hboth.wp, hboth.st, fun n hn => ?_, fun x hx => hboth.bytes x fun n hn h => hx n hn h.symm⟩
  have hregs := hboth.regs n hn
  rw [BitVec.add_comm (bump _ _ _ _)] at hregs
  exact hregs

theorem format1Word_cmp {dst src : Ea} (hdst : dst.InWorkspace) (hsrc : src.InWorkspace)
    (s : Core β κ) : (format1Word bus .cmp dst src).run s =
      .ok ((), { s with st := compareStatus s.st (wordAt bus s src) (wordAt bus s dst) }) := by
  rw [format1Word, run_bind_ok (readWordEa_run bus hdst s), run_bind_ok (readWordEa_run bus hsrc s)]
  rfl

theorem format1Byte_cmp {dst src : Ea} (hdst : dst.InWorkspace) (hsrc : src.InWorkspace)
    (s : Core β κ) : (format1Byte bus .cmp dst src).run s =
      .ok ((), { s with st := setCompareByte s.st (byteAt bus s src) (byteAt bus s dst) }) := by
  rw [format1Byte, run_bind_ok (readByteEa_run bus hdst s), run_bind_ok (readByteEa_run bus hsrc s)]
  rfl

theorem format8_ci (ir : U16) (s : Core β κ) :
    (format8 bus 0x0280 ir).run s = .ok ((), { s with
      pc := s.pc + 2
      st := compareStatus s.st (s.reg bus (ir &&& 0x000f).toNat) (bus.readWord s.mem s.pc) }) := by
  rw [format8, run_bind_ok (fetchWord_run bus s), if_neg (by decide), if_neg (by decide),
    if_neg (by decide), if_neg (by decide), if_pos rfl, run_bind_ok (reg_run bus (nibble_lt ir) _)]
  rfl

theorem compares_c (hbus : bus.Memory) (hir : ir.toNat / 4096 = 0x8) :
    CompareOp.c.Exact bus cru ir s ↔ CompareOp.c.Kept bus ir s := by
  obtain ⟨hdst, hsrc⟩ := operandsOf_inWorkspace bus ir false { s with pc := s.pc + 2 }
  have hstep := stepOn_format1 bus cru (s := s) false .cmp (by rw [hir]; rfl)
    (format1Word_cmp bus hdst hsrc _)
  have hbumped := operandsOf_bumped bus hbus ir false { s with pc := s.pc + 2 }
  have hst (m : U16) := congrArg (flag · m) hbumped.st
  exact compares_iff bus cru hstep (tells_compareStatus _ _ _)
    ((compareStatus_kept _ _ _).imp (·.trans (hst _)) (·.trans (hst _)))
    ⟨hbumped.wp, rfl, hbumped.regs, hbumped.bytes⟩

theorem compares_cb (hbus : bus.Memory) (hir : ir.toNat / 4096 = 0x9) :
    CompareOp.cb.Exact bus cru ir s ↔ CompareOp.cb.Kept bus ir s := by
  obtain ⟨hdst, hsrc⟩ := operandsOf_inWorkspace bus ir true { s with pc := s.pc + 2 }
  have hstep := stepOn_format1 bus cru (s := s) true .cmp (by rw [hir]; rfl)
    (format1Byte_cmp bus hdst hsrc _)
  have hbumped := operandsOf_bumped bus hbus ir true { s with pc := s.pc + 2 }
  have hst (m : U16) := congrArg (flag · m) hbumped.st
  exact compares_iff bus cru hstep (tells_setCompareByte _ _ _)
    ((setCompareByte_kept _ _ _).imp (·.trans (hst _)) (·.trans (hst _)))
    ⟨hbumped.wp, rfl, hbumped.regs, hbumped.bytes⟩

theorem compares_ci (hir : ir.toNat / 16 = 0x28) : CompareOp.ci.Exact bus cru ir s := by
  have hop8 : ir &&& 0xfff0 = 0x0280 := by
    rw [← BitVec.toNat_inj, and_fff0, hir]
    rfl
  have hrun := format8_ci bus ir { s with pc := s.pc + 2 }
  have hstep := stepOn_of bus cru (s := s) (fun _ => decode_format8 bus cru (by rw [hop8]; rfl))
    (hop8 ▸ hrun)
  exact (compares_iff bus cru hstep (tells_compareStatus _ _ _) (compareStatus_kept _ _ _)
    ⟨rfl, rfl, fun n _ => (BitVec.add_zero _).symm, fun _ _ => rfl⟩).mpr fun _ => Iff.rfl

end Steps

section Order

variable {β κ : Type} (bus : Tms9995Bus β)

/-- An address field without an increment leaves the registers and the memory alone. -/
theorem named_plain {mode n : Nat} (hmode : mode < 3) (byteOp : Bool) (s : Core β κ) :
    (named bus mode n byteOp s).2 = { s with pc := if mode = 2 then s.pc + 2 else s.pc } := by
  match mode, hmode with
  | 0, _ => rfl
  | 1, _ => rfl
  | 2, _ => rfl

/-- An operand without an extra word does not depend on the program counter. -/
theorem named_pc {mode n : Nat} (hmode : mode < 2) (byteOp : Bool) (s : Core β κ) (pc : U16) :
    (named bus mode n byteOp { s with pc := pc }).1 = (named bus mode n byteOp s).1 := by
  match mode, hmode with
  | 0, _ => rfl
  | 1, _ => rfl

/-- Without increments, and with one extra word at most, the order is of no account. -/
theorem asRead_eq_inOrder {α : Type} (value : Core β κ → Ea → α)
    (hvalue : ∀ s ea pc, value { s with pc := pc } ea = value s ea) (ir : U16) (byteOp : Bool)
    (s : Core β κ) (hsrc : ((ir >>> 4) &&& 0x0003).toNat < 3)
    (hdst : ((ir >>> 10) &&& 0x0003).toNat < 3)
    (hone : ((ir >>> 4) &&& 0x0003).toNat < 2 ∨ ((ir >>> 10) &&& 0x0003).toNat < 2) :
    asRead bus value ir byteOp s = inOrder bus value ir byteOp s := by
  simp only [asRead, inOrder, operandsOf, sourceOf, destinationOf]
  rw [named_plain bus hdst, named_plain bus hsrc, named_plain bus hsrc, named_plain bus hdst]
  simp only [hvalue]
  rcases hone with h | h
  · rw [if_neg (show ¬ ((ir >>> 4) &&& 0x0003).toNat = 2 by omega)]
    exact Prod.ext (congrArg (value s) (named_pc bus h byteOp s _)) rfl
  · rw [if_neg (show ¬ ((ir >>> 10) &&& 0x0003).toNat = 2 by omega)]
    exact Prod.ext rfl (congrArg (value s) (named_pc bus h byteOp s _).symm)

/-- The words 1 and 2 at 0x2000 and 0x2002, behind the instruction `C 0x2000,0x2002`. -/
def twoLabels : Core (U16 → U8) Tms9995CruBus where
  pc := 0x1000
  wp := 0x0100
  st := 0
  idle := false
  mem a :=
    if a = 0x1002 ∨ a = 0x1004 then 0x20 else if a = 0x1005 ∨ a = 0x2003 then 2
    else if a = 0x2001 then 1 else 0
  cru := ⟨fun _ => false, 0, 0⟩

def compareLabels : U16 := 0x8820

end Order

end Tms9995
end EmuRs
end RetroCpu
