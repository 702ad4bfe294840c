import RetroCpu.AsmTs.RelativeOperand
import RetroCpu.EmuRs.Tms9995Ends
import Mathlib.Tactic.IntervalCases

/-!
# Relative addresses

The assembler encodes a distance, the cores count it from the instruction (MN1613) or from
the next one (TMS9995).  Executing what is emitted leads to the address that the operand
names, and every address that a core can reach is accepted, but for one taken round the
end of memory.
-/

namespace RetroCpu
namespace Asm

open Js Checked Prog
open AsmTs (SymbolTable ParsedLine evalExpr ReadsRelative RelativeOperand InReach CpuType)

section Addresses

/-- The value is an integer, and `a` its address. -/
def Names (v : Number) (a : BitVec 16) : Prop := ∃ n : Int, v = .int n ∧ BitVec.ofInt 16 n = a

/-- The address `d` units of the core from its base. -/
def destination (cpu : CpuType) (pc : BitVec 16) (d : BitVec 8) : BitVec 16 :=
  match cpu with
  | .mn1613 => pc + d.signExtend 16
  | .tms9995 => pc + 2 + d.signExtend 16 * 2

/-- Some displacement leads from `pc` to `a`. -/
def Reachable (cpu : CpuType) (pc a : BitVec 16) : Prop := ∃ d : BitVec 8, a = destination cpu pc d

end Addresses

section Cores

open EmuTs.Mn1613 in
/-- The effective address with the base `base`: itself in mode 001, its word in mode 011. -/
def eaFrom {σ : Type} (bd : Board σ) (mmm base : Int) : M σ Int :=
  if mmm = 1 then pure base else rdC bd base

open EmuTs.Mn1613 in
/-- `execMemory`, with `base` for the base of the address. -/
def execMemoryFrom {σ : Type} (bd : Board σ) (base op rrr : Int) : M σ Unit := do
  let mmm := land op 7
  let ea ← eaFrom bd mmm base
  let isHi : Bool := land op 8 ≠ 0
  if rrr = 7 then
    if isHi then setReg fun r => { r with IC := ea }
    else do
      push bd (← reg CPURegister.IC)
      setReg fun r => { r with IC := ea }
  else if mmm = 7 then do
    let cur ← rdC bd ea
    let res := if isHi then land (cur + 1) 0xffff else land (cur - 1) 0xffff
    wrC bd ea res
    if res = 0 then skipNext bd else pure ()
  else if isHi then do sw rrr (← rdC bd ea)
  else do wrC bd ea (← gr rrr)

/-- Executing the word `w` at `pc` leads to `a`: the MN1613 takes `a` as the base of the
address, the TMS9995 goes on at `a` if the jump is taken. -/
def LeadsTo (cpu : CpuType) (w : Int) (pc a : BitVec 16) : Prop :=
  match cpu with
  | .mn1613 => ∀ (σ : Type) (bd : EmuTs.Mn1613.Board σ) (s : EmuTs.Mn1613.Cpu σ),
      (EmuTs.Mn1613.instruction bd s).1 = w →
      (EmuTs.Mn1613.instruction bd s).2.reg.IC = num (pc + 1) →
      EmuTs.Mn1613.stepOne bd s =
        ((execMemoryFrom bd (num a) (land (ushr w 11) 0x1f) (land (ushr w 8) 0x7)).run
          (EmuTs.Mn1613.instruction bd s).2).2
  | .tms9995 => ∀ (β κ : Type) (bus : EmuRs.Tms9995.Tms9995Bus β) (cru : EmuRs.Tms9995.Tms9995Cru κ)
      (rounds : Nat) (s : EmuRs.Tms9995.Core β κ),
      s.idle = false → s.pc = pc → bus.readWord s.mem s.pc = BitVec.ofInt 16 w →
      (EmuRs.Tms9995.testCondition (BitVec.ofInt 16 w &&& 0x0f00)).run s = .ok (true, s) →
      (EmuRs.Tms9995.step bus cru (rounds + 1)).run s = .ok (.ok .running, { s with pc := a })

end Cores

section Values

/-- A rounded number of at least 53 bits is large. -/
theorem le_roundNat {n : Nat} (h : 2 ^ 53 ≤ n) : 2 ^ 52 ≤ Number.roundNat n := by
  have hlog : 53 ≤ n.log2 := (Nat.le_log2 (by omega)).mpr h
  have hquotient : 2 ^ 52 ≤ n / 2 ^ (n.log2 - 52) := by
    rw [Nat.le_div_iff_mul_le (Nat.two_pow_pos _), ← Nat.pow_add]
    calc 2 ^ (52 + (n.log2 - 52)) = 2 ^ n.log2 := by
          congr 1
          omega
      _ ≤ n := Nat.log2_self_le (by omega)
  have hround : n / 2 ^ (n.log2 - 52) ≤ Number.roundQuotient n (2 ^ (n.log2 - 52)) := by
    rw [Number.roundQuotient]
    split
    · exact Nat.le_succ _
    · exact Nat.le_refl _
  exact (hquotient.trans hround).trans (Nat.le_mul_of_pos_right _ (Nat.two_pow_pos _))

/-- Rounding does not bring a number into the range of a byte. -/
theorem near_ofInt (x : Int) :
    ¬ ((Number.ofInt x).ltInt (-128) ∨ (Number.ofInt x).gtInt 127) ↔ -128 ≤ x ∧ x ≤ 127 := by
  by_cases hsmall : x.natAbs < 2 ^ 53
  · rw [Number.ofInt_of_small hsmall]
    simp only [Number.ltInt, Number.gtInt, decide_eq_true_eq]
    omega
  · have hround := le_roundNat (Nat.le_of_not_lt hsmall)
    refine iff_of_false (not_not.mpr ?_) (by omega)
    rw [Number.ofInt, if_neg hsmall]
    simp only
    split
    · by_cases hneg : x < 0
      · exact .inl (by simp [Number.ltInt, hneg])
      · exact .inr (by simp [Number.gtInt, hneg])
    · by_cases hneg : x < 0
      · refine .inl ?_
        rw [Int.sign_eq_neg_one_of_neg hneg]
        simp only [Number.ltInt, decide_eq_true_eq]
        omega
      · refine .inr ?_
        rw [Int.sign_eq_one_of_pos (by omega)]
        simp only [Number.gtInt, decide_eq_true_eq]
        omega

/-- The values that the MN1613 encoder takes for near. -/
theorem inReach_mn1613 (v : Number) (pc : Int) : InReach .mn1613 v pc ↔
    v = .nan ∨ ∃ n, v = .int n ∧ -128 ≤ n - pc ∧ n - pc ≤ 127 := by
  cases v with
  | int n =>
      have h : InReach .mn1613 (.int n) pc ↔ -128 ≤ n - pc ∧ n - pc ≤ 127 := near_ofInt (n + -pc)
      rw [h]
      simp
  | infinity negative =>
      cases negative with
      | false => simp [InReach, Number.sub, Number.neg, Number.add, Number.gtInt]
      | true => simp [InReach, Number.sub, Number.neg, Number.add, Number.ltInt]
  | nan => simp [InReach, Number.sub, Number.add, Number.ltInt, Number.gtInt]

end Values

section Words

theorem signExtend_eq (d : BitVec 8) : d.signExtend 16 = BitVec.ofInt 16 d.toInt := rfl

/-- The destination, counted on beyond the ends of memory. -/
def straightDestination (cpu : CpuType) (pc : BitVec 16) (d : BitVec 8) : Int :=
  match cpu with
  | .mn1613 => pc.toNat + d.toInt
  | .tms9995 => pc.toNat + 2 + d.toInt * 2

theorem destination_eq (cpu : CpuType) (pc : BitVec 16) (d : BitVec 8) :
    destination cpu pc d = BitVec.ofInt 16 (straightDestination cpu pc d) := by
  have hpc : BitVec.ofInt 16 (pc.toNat : Int) = pc := by
    rw [BitVec.ofInt_natCast, BitVec.ofNat_toNat, BitVec.setWidth_eq]
  cases cpu with
  | mn1613 => rw [destination, straightDestination, BitVec.ofInt_add, hpc, signExtend_eq]
  | tms9995 =>
      rw [destination, straightDestination, BitVec.ofInt_add, BitVec.ofInt_add, BitVec.ofInt_mul,
        hpc, signExtend_eq]
      rfl

theorem ofInt_eq_ofInt_iff {x y : Int} :
    BitVec.ofInt 16 x = BitVec.ofInt 16 y ↔ ∃ k : Int, x = y + k * 65536 := by
  constructor
  · intro h
    have h := congrArg BitVec.toNat h
    rw [BitVec.toNat_ofInt, BitVec.toNat_ofInt] at h
    exact ⟨(x - y) / 65536, by omega⟩
  · rintro ⟨k, rfl⟩
    apply BitVec.eq_of_toNat_eq
    rw [BitVec.toNat_ofInt, BitVec.toNat_ofInt]
    congr 1
    omega

theorem num_ofInt_emod (x : Int) : num (BitVec.ofInt 16 x) = x % 65536 := by
  rw [num, BitVec.toNat_ofInt]
  exact Int.toNat_of_nonneg (Int.emod_nonneg _ (by decide))

end Words

section Mn1613

open AsmTs.Mn1613 RetroCpu.Mn1613 EmuTs.Mn1613

variable {σ : Type} (bd : Board σ) {s : Cpu σ} {pc : BitVec 16} (d : BitVec 8)

/-- The signed displacement of a byte. -/
theorem displacement_eq : (if num d < 0x80 then num d else num d - 0x100) = d.toInt := by
  have hlt := d.isLt
  rw [num, BitVec.toInt_eq_toNat_cond]
  split
  · rw [if_pos (by omega)]
  · rw [if_neg (by omega)]
    rfl

/-- The sum of `_ea` is the destination. -/
theorem relative_sum (hic : s.reg.IC = num (pc + 1)) :
    land (land (s.reg.IC - 1) 0xffff + d.toInt) 0xffff = num (destination .mn1613 pc d) := by
  have hone : (1 : BitVec 16).toNat = 1 := rfl
  have hpc := pc.isLt
  rw [destination_eq, num_ofInt_emod, straightDestination, hic, num, BitVec.toNat_add, hone,
    land_ffff, land_ffff]
  omega

theorem ea_direct (x : Int) : (ea bd 1 x).run s =
    (land (land (s.reg.IC - 1) 0xffff + if x < 0x80 then x else x - 0x100) 0xffff, s) := rfl

theorem ea_indirect (x : Int) : (ea bd 3 x).run s =
    (rdC bd (land (land (s.reg.IC - 1) 0xffff + if x < 0x80 then x else x - 0x100) 0xffff)).run s := by
  have hmode : (land 3 7).toNat = 3 := by decide
  rw [ea, hmode, run_bind]
  rfl

/-- The modes 001 and 011 count from the instruction. -/
theorem ea_relative (hic : s.reg.IC = num (pc + 1)) {mmm : Int} (hm : mmm = 1 ∨ mmm = 3) :
    (ea bd mmm (num d)).run s = (eaFrom bd mmm (num (destination .mn1613 pc d))).run s := by
  have hsum := relative_sum d hic
  rcases hm with rfl | rfl
  · rw [ea_direct, displacement_eq, hsum, eaFrom, if_pos rfl]
    rfl
  · rw [ea_indirect, displacement_eq, hsum, eaFrom, if_neg (by decide)]

theorem displacement_fits {mmm : Int} (hm : mmm = 1 ∨ mmm = 3) : EAFits ⟨mmm, num d⟩ := by
  have hlt := num_lt d
  refine ⟨⟨?_, ?_⟩, num_nonneg d, ?_⟩
  · change 0 ≤ mmm
    omega
  · change mmm ≤ 7
    omega
  · change num d ≤ 0xff
    omega

/-- The word of an operation with a displacement leads to its destination. -/
theorem leadsTo_word {op : MemoryOp} {r mmm : Int} (hr : 0 ≤ r ∧ r ≤ 5)
    (hm : mmm = 1 ∨ mmm = 3) :
    LeadsTo .mn1613 (op.word r ⟨mmm, num d⟩) pc (destination .mn1613 pc d) := by
  intro σ bd s hword hic
  have hfit := displacement_fits d hm
  obtain ⟨hopcode, hfield, _⟩ :=
    decode_encodeMem op.bit1_range hfit.1 (op.field_range hr) hfit.2
  have hmode := (memory_fields op.bit1_range hfit.1).1
  have hea := ea_relative bd d hic hm
  have hbind {α β : Type} {m m' : M σ α} {s : Cpu σ} (k : α → M σ β) (h : m.run s = m'.run s) :
      (m >>= k).run s = (m' >>= k).run s := by
    rw [run_bind, run_bind, h]
  rw [stepOne_eq, hword, execute_word bd hfit hr, MemoryOp.word, hopcode, hfield, execMemory,
    execMemoryFrom]
  refine congrArg Prod.snd (hbind _ ?_)
  rw [hmode]
  exact hea

end Mn1613

section Tms9995

open EmuRs.Tms9995 CheckedBuild

variable {β κ : Type} (bus : Tms9995Bus β) (cru : Tms9995Cru κ)

/-- The word of a jump, with a condition and a displacement. -/
structure JumpWord (w : U16) (d : BitVec 8) : Prop where
  group : w &&& 0xf000 = 0x1000
  condition : (w >>> 8) &&& 0x000f < (0x0d : U16)
  displacement : (w &&& 0x00ff).setWidth 8 = d

/-- None of the tests before the jumps takes the word. -/
theorem decode_jumpWord {w : U16} {d : BitVec 8} (h : JumpWord w d) (execute : U16 → M β κ Outcome)
    (oldPc : U16) :
    decode bus cru execute w oldPc = (do execJump w; return .ok .running) := by
  have hmask {m c : U16} (hm : m &&& 0xf000 = 0xf000) (hc : c &&& 0xf000 ≠ 0x1000) :
      w &&& m ≠ c := by
    rintro rfl
    rw [BitVec.and_assoc, hm] at hc
    exact hc h.group
  have hne {c : U16} (hc : c &&& 0xf000 ≠ 0x1000) : w ≠ c := by
    rintro rfl
    exact hc h.group
  have hop8 : isFormat8 (w &&& 0xfff0) = false := by
    rw [isFormat8, decide_eq_false_iff_not]
    rintro (h | h | h | h | h | h | h | h) <;> exact hmask (by decide) (by decide) h
  have hsub : ¬ ((0x0d : U16) ≤ (w >>> 8) &&& 0x000f ∧ (w >>> 8) &&& 0x000f ≤ (0x0f : U16)) := by
    have := h.condition
    rintro ⟨hle, _⟩
    exact BitVec.not_le.mpr this hle
  rw [decode]
  simp only [hop8, Bool.false_eq_true, if_false]
  rw [if_neg (hmask (by decide) (by decide)), if_neg (hmask (by decide) (by decide)),
    if_neg (hne (by decide)), if_neg (hne (by decide)), if_neg (hne (by decide)),
    if_neg (hne (by decide)), if_pos h.group, if_neg hsub]

theorem setWidth_low16 (x : BitVec 32) : (x &&& 0xffff).setWidth 16 = x.setWidth 16 := by
  apply BitVec.eq_of_getLsbD_eq
  intro i hi
  simp only [BitVec.getLsbD_setWidth, BitVec.getLsbD_and]
  interval_cases i <;> simp

theorem setWidth_signExtend (x : BitVec 16) : (x.signExtend 32).setWidth 16 = x := by
  apply BitVec.eq_of_getLsbD_eq
  intro i hi
  simp [BitVec.getLsbD_signExtend, hi]
  omega

theorem jumpTarget_run {S : Type} (pc disp : U16) (s : S) :
    (EmuRs.Tms9995.jumpTarget pc disp).run s = .ok (pc + disp * 2, s) := by
  obtain ⟨a, s', hrun, _⟩ := ends_jumpTarget pc disp s
  rw [EmuRs.Tms9995.jumpTarget] at hrun ⊢
  by_cases hmul : BitVec.smulOverflow (disp.signExtend 32 : U32) 2 = false
  · have htwice : (mulS (disp.signExtend 32 : U32) 2).run s = .ok (disp.signExtend 32 * 2, s) :=
      if_pos hmul
    rw [run_bind_ok htwice] at hrun ⊢
    by_cases hadd : BitVec.saddOverflow (pc.setWidth 32 : U32) (disp.signExtend 32 * 2) = false
    · have hsum : (addS (pc.setWidth 32 : U32) (disp.signExtend 32 * 2)).run s =
          .ok (pc.setWidth 32 + disp.signExtend 32 * 2, s) := if_pos hadd
      have htwo : (2 : U32).setWidth 16 = 2 := by decide
      have hvalue : ((pc.setWidth 32 + disp.signExtend 32 * 2 : U32) &&& 0xffff).setWidth 16 =
          pc + disp * 2 := by
        rw [setWidth_low16, BitVec.setWidth_add _ _ (by decide), BitVec.setWidth_mul _ _ (by decide),
          setWidth_signExtend, htwo, BitVec.setWidth_setWidth_of_le _ (by decide),
          BitVec.setWidth_eq]
      rw [run_bind_ok hsum, hvalue]
      rfl
    · have hsum : (addS (pc.setWidth 32 : U32) (disp.signExtend 32 * 2)).run s =
          .error .overflow := if_neg hadd
      rw [run_bind_error hsum] at hrun
      cases hrun
  · have htwice : (mulS (disp.signExtend 32 : U32) 2).run s = .error .overflow := if_neg hmul
    rw [run_bind_error htwice] at hrun
    cases hrun

/-- A jump that is taken leads to its destination. -/
theorem leadsTo_jumpWord {w : Int} {pc : BitVec 16} {d : BitVec 8}
    (h : JumpWord (BitVec.ofInt 16 w) d) : LeadsTo .tms9995 w pc (destination .tms9995 pc d) := by
  intro β κ bus cru rounds s hidle hpc hword htaken
  have hget (s : Core β κ) : (get : M β κ (Core β κ)).run s = .ok (s, s) := rfl
  have hcondition : (testCondition (BitVec.ofInt 16 w &&& 0x0f00) : M β κ Bool).run
      { s with pc := s.pc + 2 } = .ok (true, { s with pc := s.pc + 2 }) := by
    have htaken := Except.ok.inj htaken
    exact congrArg (fun b => Except.ok (b, { s with pc := s.pc + 2 })) (congrArg Prod.fst htaken)
  have hjump : (execJump (BitVec.ofInt 16 w) : M β κ Unit).run { s with pc := s.pc + 2 } =
      .ok ((), { s with pc := destination .tms9995 pc d }) := by
    rw [execJump, run_bind_ok hcondition, if_pos rfl, run_bind_ok (hget _), h.displacement,
      run_bind_ok (jumpTarget_run _ _ _), hpc]
    rfl
  rw [step, run_bind_ok (hget s), if_neg (by simp [hidle]), run_bind_ok (fetchWord_run bus s), hword,
    executeIr, decode_jumpWord bus cru h, run_bind_ok hjump]
  rfl

/-- The opcode of a jump leaves a byte for the displacement. -/
theorem jumpWord_of_opFormat {name : String} {base : Nat}
    (h : RetroCpu.Tms9995.opFormat name = some (.jump, base)) (x : Int) :
    JumpWord (BitVec.ofInt 16 (lor base (land x 0xff))) (BitVec.ofInt 8 x) := by
  obtain ⟨entry, hentry, hlookup⟩ := List.exists_of_findSome?_eq_some h
  obtain ⟨code, hcode, heq⟩ := Option.map_eq_some_iff.mp hlookup
  obtain ⟨hjump, rfl⟩ := Prod.mk.inj heq
  have hall : ∀ entry ∈ RetroCpu.Tms9995.formats, entry.1 = .jump → ∀ op ∈ entry.2,
      op.2 % 256 = 0 ∧ op.2 < 2 ^ 15 ∧ ∀ d ∈ List.range 256,
        BitVec.ofNat 16 (op.2 + d) &&& 0xf000 = 0x1000 ∧
        (BitVec.ofNat 16 (op.2 + d) >>> 8) &&& 0x000f < (0x0d : U16) ∧
        (BitVec.ofNat 16 (op.2 + d) &&& 0x00ff).setWidth 8 = BitVec.ofNat 8 d := by
    decide +kernel
  obtain ⟨hlow, hhigh, hwords⟩ := hall entry hentry hjump _ (mem_of_lookup hcode)
  simp only at hlow hhigh hwords
  obtain ⟨h1, h2, h3⟩ := hwords (x % 256).toNat (List.mem_range.mpr (by omega))
  have hword : BitVec.ofInt 16 (lor code (land x 0xff)) =
      BitVec.ofNat 16 (code + (x % 256).toNat) := by
    rw [land_ff, lor_add 8 (by omega) (by omega) (by omega) (by omega) (by omega) (by decide)]
    apply BitVec.eq_of_toNat_eq
    rw [BitVec.toNat_ofInt, BitVec.toNat_ofNat]
    omega
  have hbyte : BitVec.ofInt 8 x = BitVec.ofNat 8 (x % 256).toNat := by
    apply BitVec.eq_of_toNat_eq
    rw [BitVec.toNat_ofInt, BitVec.toNat_ofNat]
    omega
  rw [hword, hbyte]
  exact ⟨h1, h2, h3⟩

end Tms9995

section Loop

variable {symbols : SymbolTable} {line : ParsedLine} {label : String} {v : Number}
  {pc : BitVec 16}

/-- The relative operand is accepted exactly when the core can reach the address that its
value names, and executing what is emitted leads there. -/
def Closes (cpu : CpuType) (symbols : SymbolTable) (line : ParsedLine) (v : Number)
    (pc : BitVec 16) : Prop :=
  ((∃ ws, cpu.target.encode line pc.toNat symbols = .ok ws) ↔
      ∃ a, Names v a ∧ Reachable cpu pc a) ∧
    ∀ ws, cpu.target.encode line pc.toNat symbols = .ok ws →
      ∃ w a, ws = [w] ∧ Names v a ∧ LeadsTo cpu w pc a

/-- The distance that the encoder computes for the value is no displacement taken round the
end of memory, and a value that is not an integer is not taken for a near address: on the
MN1613 NaN always is, on the TMS9995 such a value counts as 0. -/
def Straight (cpu : CpuType) (v : Number) (pc : BitVec 16) : Prop :=
  match cpu, v with
  | .mn1613, .int n => ∀ (d : BitVec 8) (k : Int), n = straightDestination .mn1613 pc d + k * 65536 →
      k = 0
  | .mn1613, .infinity _ => True
  | .mn1613, .nan => False
  | .tms9995, .int n => ∀ (d : BitVec 8) (k : Int),
      n % 65536 = straightDestination .tms9995 pc d + k * 65536 → k = 0
  | .tms9995, _ => ∀ d : BitVec 8, straightDestination .tms9995 pc d ≠ 0

theorem toInt_ofInt_near {x : Int} (hlo : -128 ≤ x) (hhi : x ≤ 127) :
    (BitVec.ofInt 8 x).toInt = x := by
  rw [BitVec.toInt_ofInt]
  exact Int.bmod_eq_of_le (by omega) (by omega)

theorem names_int {n : Int} {a : BitVec 16} : Names (.int n) a ↔ BitVec.ofInt 16 n = a := by
  constructor
  · rintro ⟨m, hm, rfl⟩
    cases hm
    rfl
  · rintro rfl
    exact ⟨n, rfl, rfl⟩

/-- An integer names an address that the core can reach when its distance is a displacement,
up to a number of turns round memory. -/
theorem reachable_int {cpu : CpuType} {n : Int} : (∃ a, Names (.int n) a ∧ Reachable cpu pc a) ↔
    ∃ (d : BitVec 8) (k : Int), n = straightDestination cpu pc d + k * 65536 := by
  constructor
  · rintro ⟨a, hname, d, rfl⟩
    rw [names_int, destination_eq, ofInt_eq_ofInt_iff] at hname
    exact ⟨d, hname⟩
  · rintro ⟨d, k, h⟩
    exact ⟨destination cpu pc d, by rw [names_int, destination_eq, ofInt_eq_ofInt_iff]; exact ⟨k, h⟩,
      d, rfl⟩

variable {ws : List Int}

/-- What is emitted on the MN1613 holds the distance of the value. -/
theorem encode_mn1613 (h : RelativeOperand .mn1613 line label)
    (hv : evalExpr label symbols false = .ok v)
    (henc : CpuType.mn1613.target.encode line pc.toNat symbols = .ok ws) :
    ∃ w, ws = [w] ∧ LeadsTo .mn1613 w pc
      (destination .mn1613 pc (BitVec.ofInt 8 (v.sub (.int pc.toNat)).bits)) := by
  obtain ⟨op, hop, _, _, _, mmm, hm, hread⟩ := h
  obtain ⟨r, mode, hoperands, hr, _, rfl⟩ := RetroCpu.Mn1613.encode_memory_line hop henc
  have haddress := hoperands.address
  rw [hread, AsmTs.Mn1613.relativeMode, hv, ok_bind] at haddress
  obtain ⟨d8, hd, hmode⟩ := bind_eq_ok.mp haddress
  obtain rfl := pure_eq_ok.mp hmode
  rw [AsmTs.Mn1613.s8, error_ite_eq_ok] at hd
  obtain rfl := Except.ok.inj hd.2
  have hbyte : land (v.sub (.int pc.toNat)).bits 0xff =
      num (BitVec.ofInt 8 (v.sub (.int pc.toNat)).bits) := by
    rw [land_ff, num, BitVec.toNat_ofInt]
    exact (Int.toNat_of_nonneg (Int.emod_nonneg _ (by decide))).symm
  rw [hbyte]
  exact ⟨_, rfl, leadsTo_word _ hr hm⟩

/-- What is emitted for a jump of the TMS9995 holds the distance of the value in words. -/
theorem encode_tms9995 (h : RelativeOperand .tms9995 line label)
    (hv : evalExpr label symbols false = .ok v)
    (henc : CpuType.tms9995.target.encode line pc.toNat symbols = .ok ws) :
    ∃ w, ws = [w] ∧ LeadsTo .tms9995 w pc (destination .tms9995 pc
      (BitVec.ofInt 8 ((land v.bits 0xffff - (pc.toNat + 2)).tdiv 2))) := by
  obtain ⟨name, base, hname, hformat, hargs, rfl⟩ := h
  change AsmTs.tms9995.encode line pc.toNat symbols = .ok ws at henc
  rw [AsmTs.encode_jump hname hformat hargs, AsmTs.Tms9995.encodeJump] at henc
  have htarget : AsmTs.Tms9995.evalTms symbols false ([trim (line.arg 0)].getD 0 "") =
      .ok (land v.bits 0xffff) := bind_eq_ok.mpr ⟨v, hv, rfl⟩
  rw [htarget, ok_bind] at henc
  obtain ⟨_, henc⟩ := error_ite_eq_ok.mp henc
  obtain ⟨_, henc⟩ := error_ite_eq_ok.mp henc
  obtain rfl := Except.ok.inj henc
  exact ⟨_, rfl, leadsTo_jumpWord (jumpWord_of_opFormat hformat _)⟩

theorem accepted_iff {cpu : CpuType} (h : RelativeOperand cpu line label)
    (hv : evalExpr label symbols false = .ok v) :
    (∃ ws, cpu.target.encode line pc.toNat symbols = .ok ws) ↔ InReach cpu v pc.toNat := by
  rw [AsmTs.encode_relative_isOk h]
  constructor
  · rintro ⟨v', hv', hreach⟩
    obtain rfl := Except.ok.inj (hv.symm.trans hv')
    exact hreach
  · intro hreach
    exact ⟨v, hv, hreach⟩

/-- The displacement of a value that the TMS9995 encoder takes for near. -/
theorem displacement_of_inReach (h : InReach .tms9995 v pc.toNat) :
    v.bits % 65536 = straightDestination .tms9995 pc
      (BitVec.ofInt 8 ((land v.bits 0xffff - (pc.toNat + 2)).tdiv 2)) := by
  obtain ⟨heven, hlo, hhi⟩ := h
  have hsplit := Int.tmod_add_mul_tdiv (land v.bits 0xffff - (pc.toNat + 2)) 2
  rw [straightDestination, toInt_ofInt_near hlo hhi]
  rw [land_ffff] at hsplit heven ⊢
  omega

theorem inReach_tms9995 : InReach .tms9995 v pc.toNat ↔
    ∃ d, v.bits % 65536 = straightDestination .tms9995 pc d := by
  constructor
  · intro h
    exact ⟨_, displacement_of_inReach h⟩
  · rintro ⟨d, hd⟩
    have hlo := d.le_toInt
    have hhi := @BitVec.toInt_lt 8 d
    have hdistance : land v.bits 0xffff - (pc.toNat + 2) = d.toInt * 2 := by
      rw [land_ffff, hd, straightDestination]
      omega
    have hreach : (d.toInt * 2).tmod 2 = 0 ∧ -128 ≤ (d.toInt * 2).tdiv 2 ∧
        (d.toInt * 2).tdiv 2 ≤ 127 := by
      rw [Int.mul_tmod_left, Int.mul_tdiv_cancel _ (by decide)]
      omega
    rwa [← hdistance] at hreach

/-- Nothing is named by a value that is not an integer. -/
theorem closes_of_refused {cpu : CpuType} (hname : ∀ n, v ≠ .int n)
    (h : RelativeOperand cpu line label) (hv : evalExpr label symbols false = .ok v) :
    Closes cpu symbols line v pc ↔ ¬ InReach cpu v pc.toNat := by
  have hnone : ¬ ∃ a, Names v a ∧ Reachable cpu pc a := by
    rintro ⟨a, ⟨n, hn, _⟩, _⟩
    exact hname n hn
  have haccepted := @accepted_iff symbols line label v pc cpu h hv
  rw [← haccepted]
  constructor
  · rintro ⟨hiff, _⟩ hok
    exact hnone (hiff.mp hok)
  · intro hrefused
    exact ⟨iff_of_false hrefused hnone, fun ws hws => absurd ⟨ws, hws⟩ hrefused⟩

/-- On the MN1613 the loop closes for the values named. -/
theorem closes_mn1613 (h : RelativeOperand .mn1613 line label)
    (hv : evalExpr label symbols false = .ok v) :
    Closes .mn1613 symbols line v pc ↔ Straight .mn1613 v pc := by
  cases v with
  | int n =>
      have haccepted := @accepted_iff symbols line label _ pc _ h hv
      rw [inReach_mn1613] at haccepted
      have hdirect (d : BitVec 8) : straightDestination .mn1613 pc d = pc.toNat + d.toInt := rfl
      constructor
      · rintro ⟨hiff, _⟩ d k hn
        have hlo := d.le_toInt
        have hhi := @BitVec.toInt_lt 8 d
        obtain hnan | ⟨m, hm, hrange⟩ :=
          haccepted.mp (hiff.mpr (reachable_int.mpr ⟨d, k, hn⟩))
        · cases hnan
        · cases hm
          rw [hdirect] at hn
          omega
      · intro hstraight
        refine ⟨haccepted.trans ?_, ?_⟩
        · rw [reachable_int]
          constructor
          · rintro (hnan | ⟨m, hm, hlo, hhi⟩)
            · cases hnan
            · cases hm
              refine ⟨BitVec.ofInt 8 (n - pc.toNat), 0, ?_⟩
              rw [hdirect, toInt_ofInt_near hlo hhi]
              omega
          · rintro ⟨d, k, hn⟩
            have hlo := d.le_toInt
            have hhi := @BitVec.toInt_lt 8 d
            obtain rfl := hstraight d k hn
            rw [hdirect] at hn
            exact .inr ⟨n, rfl, by omega⟩
        · intro ws hws
          obtain hnan | ⟨m, hm, hlo, hhi⟩ := haccepted.mp ⟨ws, hws⟩
          · cases hnan
          · cases hm
            obtain ⟨w, rfl, hleads⟩ := encode_mn1613 h hv hws
            have hbits : ((Number.int n).sub (.int pc.toNat)).bits = n - pc.toNat := by
              change (Number.ofInt (n + -(pc.toNat : Int))).bits = _
              rw [Number.ofInt_of_small (by omega)]
              rfl
            rw [hbits] at hleads
            refine ⟨w, _, rfl, names_int.mpr ?_, hleads⟩
            rw [destination_eq, hdirect, toInt_ofInt_near hlo hhi]
            congr 1
            omega
  | infinity negative =>
      rw [closes_of_refused (by rintro n ⟨⟩) h hv, inReach_mn1613]
      exact iff_of_true (by simp) trivial
  | nan =>
      rw [closes_of_refused (by rintro n ⟨⟩) h hv, inReach_mn1613]
      exact iff_of_false (by simp) not_false

theorem closes_tms9995 (h : RelativeOperand .tms9995 line label)
    (hv : evalExpr label symbols false = .ok v) :
    Closes .tms9995 symbols line v pc ↔ Straight .tms9995 v pc := by
  have hdirect (d : BitVec 8) :
      straightDestination .tms9995 pc d = pc.toNat + 2 + d.toInt * 2 := rfl
  have hrefused (hbits : v.bits = 0) : ¬ InReach .tms9995 v pc.toNat ↔
      ∀ d, straightDestination .tms9995 pc d ≠ 0 := by
    rw [inReach_tms9995, not_exists, hbits]
    exact forall_congr' fun d => not_congr eq_comm
  cases v with
  | int n =>
      have haccepted := @accepted_iff symbols line label _ pc _ h hv
      rw [inReach_tms9995] at haccepted
      constructor
      · rintro ⟨hiff, _⟩ d k hn
        have hlo := d.le_toInt
        have hhi := @BitVec.toInt_lt 8 d
        obtain ⟨d', hd'⟩ :=
          haccepted.mp (hiff.mpr (reachable_int.mpr ⟨d, k + n / 65536, by omega⟩))
        have hlo' := d'.le_toInt
        have hhi' := @BitVec.toInt_lt 8 d'
        change n % 65536 = _ at hd'
        rw [hdirect] at hn hd'
        omega
      · intro hstraight
        refine ⟨haccepted.trans ?_, ?_⟩
        · rw [reachable_int]
          constructor
          · rintro ⟨d, hd⟩
            change n % 65536 = _ at hd
            exact ⟨d, n / 65536, by omega⟩
          · rintro ⟨d, k, hn⟩
            have hzero := hstraight d (k - n / 65536) (by omega)
            refine ⟨d, ?_⟩
            change n % 65536 = _
            omega
        · intro ws hws
          have hnear := displacement_of_inReach ((accepted_iff h hv).mp ⟨ws, hws⟩)
          obtain ⟨w, rfl, hleads⟩ := encode_tms9995 h hv hws
          refine ⟨w, _, rfl, names_int.mpr ?_, hleads⟩
          rw [destination_eq, ofInt_eq_ofInt_iff]
          change n % 65536 = _ at hnear
          exact ⟨n / 65536, by omega⟩
  | infinity negative => exact (closes_of_refused (by rintro n ⟨⟩) h hv).trans (hrefused rfl)
  | nan => exact (closes_of_refused (by rintro n ⟨⟩) h hv).trans (hrefused rfl)

/-- Relative addressing closes the loop for the values with a straight distance. -/
theorem relative_addressing {cpu : CpuType} (h : RelativeOperand cpu line label)
    (hv : evalExpr label symbols false = .ok v) :
    Closes cpu symbols line v pc ↔ Straight cpu v pc := by
  cases cpu with
  | mn1613 => exact closes_mn1613 h hv
  | tms9995 => exact closes_tms9995 h hv

end Loop

section Example

/-- `JMP` with one operand. -/
def jumpLine (target : String) : ParsedLine :=
  { lineNo := 1, text := "", label := none, op := some "JMP", args := [target] }

theorem jumpLine_relative {target : String} (h : trim target = target) :
    RelativeOperand .tms9995 (jumpLine target) target := by
  have hname : AsmTs.ParsedLine.operation ⟨1, "", none, some "JMP", []⟩ = some "JMP" := by
    decide
  exact ⟨"JMP", 0x1000, hname, by decide, rfl, h.symm⟩

theorem relative_addressing_jump :
    Closes .tms9995 .empty (jumpLine "0x0104") (.int 0x0104) 0x0100 ↔
      Straight .tms9995 (.int 0x0104) 0x0100 :=
  relative_addressing (jumpLine_relative (by decide)) (by decide +kernel)

/-- `B A-A`, where the number A is too large for a double. -/
def branchLine : ParsedLine :=
  { lineNo := 1, text := "B A-A", label := none, op := some "B", args := ["A-A"] }

open AsmTs.Mn1613 in
theorem branchLine_relative : RelativeOperand .mn1613 branchLine "A-A" := by
  have hread (symbols : SymbolTable) (allowUndefined : Bool) (pcWord : Int) :
      parseEA symbols allowUndefined "A-A" pcWord =
        relativeMode symbols allowUndefined "A-A" pcWord 1 := by
    rfl
  refine ⟨.B, by decide, by decide, by decide, nofun, 1, .inl rfl, ?_⟩
  have hea : eaString branchLine 0 = "A-A" := by decide
  intro symbols allowUndefined pcWord
  exact (congrArg (parseEA symbols allowUndefined · pcWord) hea).trans
    (hread symbols allowUndefined pcWord)

/-- A jump from the last word of memory to the first one is refused; on the MN1613 a
distance that is not a number is accepted. -/
theorem relative_addressing_fails :
    ¬ Closes .tms9995 .empty (jumpLine "0x0000") (.int 0) 0xfffe ∧
      ¬ Closes .mn1613 (JsMap.empty.set "A" (.infinity false)) branchLine .nan 0x0100 := by
  constructor
  · intro h
    have hstraight := (closes_tms9995 (jumpLine_relative (by decide)) (by decide +kernel)).mp h
    have hzero := hstraight 0 (-1) rfl
    cases hzero
  · intro h
    exact (closes_mn1613 branchLine_relative (by decide)).mp h

end Example

end Asm
end RetroCpu
