import RetroCpu.Disasm.Mn1613
import RetroCpu.DisAssembler.Mn1613Format

/-!
# The two MN1613 disassemblers decode alike

`Agrees` relates a decoded instruction of the Rust decoder to one of the TypeScript
decoder.  It is carried through the decision tree: a test on words and the same test on
numbers take the same branch (`Agrees.ite`), and what stands at the leaves is compared
operand by operand.
-/

namespace RetroCpu
namespace Disasm
namespace Mn1613

open Js RetroCpu.Mn1613

/-- The TypeScript decoder. -/
abbrev Ts.Op := DisAssembler.Mn1613.DecodedOp

abbrev Ts.Inst := DisAssembler.Mn1613.DecodedInst

/-- An operand of the Rust decoder as the TypeScript decoder has it. -/
def DecodedOp.view : DecodedOp → Ts.Op
  | .raw s => .raw s
  | .addr v form bb => .addr (num v) form bb
  | .imm v bits => .imm (num v) bits
  | .skip n => .skip (num n)
  | .ee n => .ee (num n)
  | .c => .c

attribute [simp] DecodedOp.view

/-- The same mnemonic, operands, length and instruction word. -/
structure Agrees (rs : DecodedInst) (ts : Ts.Inst) : Prop where
  mnemonic : rs.mnemonic = ts.mnemonic.name
  ops : rs.ops.map DecodedOp.view = ts.ops
  wordCount : rs.wordCount = ts.wordCount
  ir : num rs.ir = ts.ir

theorem Agrees.ite {p q : Prop} [Decidable p] [Decidable q] {a b : DecodedInst} {c d : Ts.Inst}
    (h : q ↔ p) (hthen : Agrees a c) (helse : Agrees b d) :
    Agrees (if p then a else b) (if q then c else d) := by
  by_cases hp : p
  · rw [if_pos hp, if_pos (h.mpr hp)]
    exact hthen
  · rw [if_neg hp, if_neg (mt h.mp hp)]
    exact helse

section Leaves

variable {ir : U16} {m : String} {mnem : Mnemonic} {ops : List DecodedOp} {tsOps : List Ts.Op}

theorem agrees_one (hm : m = mnem.name) (hops : ops.map DecodedOp.view = tsOps) :
    Agrees (one m ir ops) (DisAssembler.Mn1613.one mnem (num ir) tsOps) :=
  ⟨hm, hops, rfl, rfl⟩

theorem agrees_two (hm : m = mnem.name) (hops : ops.map DecodedOp.view = tsOps) :
    Agrees (two m ir ops) (DisAssembler.Mn1613.two mnem (num ir) tsOps) :=
  ⟨hm, hops, rfl, rfl⟩

theorem agrees_undef : Agrees (undef ir) (DisAssembler.Mn1613.undef (num ir)) := by
  constructor
  · rfl
  · simp [undef, DisAssembler.Mn1613.undef]
  · rfl
  · rfl

end Leaves

/-! ## Operands -/

theorem get_eq_getD {n i : Nat} (table : Vector String n) (h : i < n) :
    table.get ⟨i, h⟩ = table.toList.getD i "" := by
  have hi : i < table.toList.length := by simpa using h
  rw [List.getD_eq_getElem _ _ hi]
  rfl

theorem entry8_eq (table : Vector String 8) (x : U16) :
    entry8 table x = table.toList.getD (x &&& 7).toNat "" :=
  get_eq_getD table (land_seven_lt x)

theorem entry4_eq (table : Vector String 4) (x : U16) :
    entry4 table x = table.toList.getD (x &&& 3).toNat "" :=
  get_eq_getD table (land_three_lt x)

@[simp] theorem regName_num (x : U16) : DisAssembler.Mn1613.regName (num x) = regName x := by
  rw [DisAssembler.Mn1613.regName, land_ofNat x 7 (by decide) (by decide) (by decide), toNat_num]
  exact (entry8_eq REGS x).symm

@[simp] theorem riName_num (x : U16) : DisAssembler.Mn1613.riName (num x) = riName x := by
  rw [DisAssembler.Mn1613.riName, land_ofNat x 3 (by decide) (by decide) (by decide), toNat_num]
  exact (entry4_eq RI x).symm

@[simp] theorem riMode_num (mm ii : U16) :
    DisAssembler.Mn1613.riMode (num mm) (num ii) = riMode mm ii := by
  simp [DisAssembler.Mn1613.riMode, riMode]

@[simp] theorem hexDigit_num (x : U16) : DisAssembler.Mn1613.hexDigit (num x) = hexDigit x := by
  simp [DisAssembler.Mn1613.hexDigit, hexDigit]

@[simp] theorem hex8_num (x : U16) : DisAssembler.Mn1613.hex8 (num x) = hex8 x := by
  simp [DisAssembler.Mn1613.hex8, hex8]

/-- The sum in 16 bits is the number that the mask leaves. -/
@[simp] theorem relTarget_num (a d : U16) :
    DisAssembler.Mn1613.relTarget (num a) (num d) = num (relTarget a d) := by
  simp only [DisAssembler.Mn1613.relTarget, relTarget, land_word]
  refine congrArg num ?_
  by_cases hd : d < 0x80
  · rw [if_pos ((num_lt_ofNat d 0x80 (by decide)).mpr hd), if_pos hd, BitVec.ofInt_add, ofInt_num,
      ofInt_num]
    exact BitVec.and_allOnes.symm
  · have hsub : num d - 0x100 = num d + (-0x100) := Int.sub_eq_add_neg
    rw [if_neg (mt (num_lt_ofNat d 0x80 (by decide)).mp hd), if_neg hd, hsub, BitVec.ofInt_add,
      BitVec.ofInt_add, ofInt_num, ofInt_num, BitVec.sub_eq_add_neg]
    exact BitVec.and_allOnes.symm

/-- A field of at most eight bits does not change when it is cast to a byte. -/
theorem num_cast (x m : U16) (hm : m.toNat < 256) :
    num ((x &&& m).setWidth 8) = num (x &&& m) := by
  have hle : (x &&& m).toNat ≤ m.toNat := BitVec.toNat_and x m ▸ Nat.and_le_right
  rw [num, num, BitVec.toNat_setWidth, Nat.mod_eq_of_lt (by omega)]

theorem trail_view (ops : List DecodedOp) (skip : U16) (ee : Option U16) (carry : Bool) :
    (trail ops skip ee carry).map DecodedOp.view =
      DisAssembler.Mn1613.trail (ops.map DecodedOp.view) (num skip) (ee.map num) carry := by
  have hskip := num_cast skip 15#16 (by decide)
  have hee (e : U16) := num_cast e 3#16 (by decide)
  cases ee with
  | none =>
      cases carry <;> by_cases h : skip &&& 15#16 = 0#16 <;>
        simp [trail, DisAssembler.Mn1613.trail, h, hskip, -BitVec.setWidth_and]
  | some ee =>
      cases carry <;> by_cases h : skip &&& 15#16 = 0#16 <;> by_cases h3 : ee &&& 3#16 = 0#16 <;>
        simp [trail, DisAssembler.Mn1613.trail, h, h3, hskip, hee, -BitVec.setWidth_and]

theorem eaOp_view (mmm d a : U16) :
    (eaOp mmm d a).view = DisAssembler.Mn1613.eaOp (num mmm) (num d) (num a) := by
  have hmmm : (land (num mmm) 7).toNat = (mmm &&& 7).toNat := by simp
  have hdisp : land (num d) 0xff = num (d &&& 0xff) := by simp
  unfold eaOp DisAssembler.Mn1613.eaOp
  rw [hmmm, hdisp]
  generalize (mmm &&& 7).toNat = k
  generalize d &&& 0xff = disp
  dsimp only
  split <;> simp

/-- The name of a base register. -/
theorem bbb_eq (x : U16) : entry8 BBB x = DisAssembler.Mn1613.BBB[x.toNat &&& 7]?.getD "" := by
  rw [entry8_eq, BitVec.toNat_and, List.getD_eq_getElem?_getD]
  rfl

/-- The name of a segment base register. -/
theorem bb_eq (x : U16) : DisAssembler.Mn1613.BB[x.toNat &&& 3]? = some (entry4 BB x) := by
  have hlt := land_three_lt x
  rw [entry4_eq]
  generalize hk : (x &&& 3).toNat = k at hlt
  rw [BitVec.toNat_and] at hk
  rw [show x.toNat &&& 3 = k from hk]
  have hcases : k = 0 ∨ k = 1 ∨ k = 2 ∨ k = 3 := by omega
  rcases hcases with rfl | rfl | rfl | rfl <;> rfl

/-! ## The opcode groups -/

section Groups

variable (ir rrr lo kkkk : U16)

variable {ir} in
theorem specialForm_agrees {bBits : U16} {tsBits : Int} {f : String → DecodedInst}
    {g : String → Ts.Inst} (hbits : tsBits = num bBits) (h : ∀ sr, Agrees (f sr) (g sr)) :
    Agrees (specialForm ir bBits f) (DisAssembler.Mn1613.specialForm (num ir) tsBits g) := by
  unfold specialForm DisAssembler.Mn1613.specialForm
  have hnames : DisAssembler.Mn1613.PPP = PPP := rfl
  rw [hbits, toNat_num, hnames]
  cases PPP[bBits.toNat]? with
  | none => exact agrees_undef
  | some sr => exact h sr

theorem bitOps_view :
    (bitOps rrr lo kkkk).map DecodedOp.view =
      DisAssembler.Mn1613.bitOps (num rrr) (num lo) (num kkkk) := by
  simp [bitOps, DisAssembler.Mn1613.bitOps, trail_view]

theorem decode01_agrees (extra : U16) :
    Agrees (decode01 ir rrr lo extra)
      (DisAssembler.Mn1613.decode01 (num ir) (num rrr) (num lo) (num extra)) := by
  unfold decode01 DisAssembler.Mn1613.decode01
  refine .ite (by simp) (agrees_one rfl (by simp)) ?_
  refine .ite (by simp) ?_ ?_
  · refine .ite (by simp) (agrees_two rfl (by simp [bbb_eq])) ?_
    refine .ite (by simp) (specialForm_agrees (by simp) fun sr => agrees_two rfl rfl) ?_
    refine .ite (by simp) (agrees_two rfl (by simp [bbb_eq])) ?_
    exact specialForm_agrees (by simp) fun sr => agrees_two rfl rfl
  · refine .ite (by simp) (agrees_one rfl (by simp [bbb_eq])) ?_
    refine .ite (by simp) (specialForm_agrees (by simp) fun sr => agrees_one rfl (by simp)) ?_
    refine .ite (by simp) (agrees_one rfl (by simp [bbb_eq])) ?_
    exact specialForm_agrees (by simp) fun sr => agrees_one rfl (by simp)

theorem decode02_agrees (extra : U16) :
    Agrees (decode02 ir rrr lo kkkk extra)
      (DisAssembler.Mn1613.decode02 (num ir) (num rrr) (num lo) (num kkkk) (num extra)) := by
  unfold decode02 DisAssembler.Mn1613.decode02
  refine .ite (by simp) (agrees_one rfl (by simp)) ?_
  refine .ite (by simp) (agrees_one rfl rfl) ?_
  refine .ite (by simp) (agrees_one rfl rfl) ?_
  refine agrees_two ?_ (by simp [trail_view])
  by_cases h : lo &&& 8#16 = 0#16 <;> simp [h] <;> rfl

theorem decode03_agrees :
    Agrees (decode03 ir rrr lo kkkk)
      (DisAssembler.Mn1613.decode03 (num ir) (num rrr) (num lo) (num kkkk)) := by
  unfold decode03 DisAssembler.Mn1613.decode03
  refine .ite (by simp) (agrees_one rfl (by simp)) ?_
  refine .ite (by simp) ?_ (agrees_one rfl (by simp [trail_view]))
  exact .ite (by simp) (agrees_one rfl (by simp [trail_view]))
    (agrees_one rfl (by simp [trail_view]))

theorem longOps_view (dest extra : U16) :
    (longOps lo dest extra).map DecodedOp.view =
      DisAssembler.Mn1613.longOps (num dest) (land (ushr (num lo) 4) 3) (num extra) := by
  by_cases h : (lo >>> 4) &&& 3#16 = 0#16 <;>
    simp [longOps, DisAssembler.Mn1613.longOps, h, ← bb_eq]

theorem indirectOps_view (mmStr : String) :
    (indirectOps rrr lo mmStr).map DecodedOp.view =
      DisAssembler.Mn1613.indirectOps (num rrr) (land (ushr (num lo) 4) 3) mmStr := by
  have hbb := bb_eq (lo >>> 4)
  rw [BitVec.toNat_ushiftRight] at hbb
  by_cases h : (lo >>> 4) &&& 3#16 = 0#16 <;>
    simp [indirectOps, DisAssembler.Mn1613.indirectOps, h, hbb]

theorem decode04Low_agrees (b32 b10 : U16) :
    Agrees (decode04Low ir rrr lo kkkk b32 b10)
      (DisAssembler.Mn1613.decode04Low (num ir) (num rrr) (num lo) (num kkkk) (num b32)
        (num b10)) := by
  unfold decode04Low DisAssembler.Mn1613.decode04Low
  refine .ite (by simp) (agrees_one rfl (by simp [trail_view])) ?_
  refine .ite (by simp) (agrees_one rfl (by simp [trail_view])) ?_
  refine .ite (by simp) (agrees_one rfl (by simp)) ?_
  exact .ite (by simp) (agrees_one rfl (by simp)) agrees_undef

theorem decode04Indirect_agrees (b32 : U16) :
    Agrees (decode04Indirect ir rrr lo kkkk b32)
      (DisAssembler.Mn1613.decode04Indirect (num ir) (num rrr) (num lo) (num kkkk)
        (num b32)) := by
  have hmode : DisAssembler.Mn1613.riMode (land (ushr (num lo) 6) 3) (land (num lo) 3) =
      riMode ((lo >>> 6) &&& 3) (lo &&& 3) := by
    rw [← riMode_num]
    simp
  have hb10 : land (num lo) 3 = num (lo &&& 3) := by simp
  have hlow := decode04Low_agrees ir rrr lo kkkk b32 (lo &&& 3)
  unfold decode04Indirect DisAssembler.Mn1613.decode04Indirect
  dsimp only
  rw [hmode, hb10]
  cases riMode ((lo >>> 6) &&& 3) (lo &&& 3) with
  | none => exact hlow
  | some mmStr =>
      refine .ite (by simp) (agrees_one rfl (indirectOps_view rrr lo mmStr)) ?_
      exact .ite (by simp) (agrees_one rfl (indirectOps_view rrr lo mmStr)) hlow

theorem decode04_agrees (b32 extra : U16) :
    Agrees (decode04 ir rrr lo kkkk b32 extra)
      (DisAssembler.Mn1613.decode04 (num ir) (num rrr) (num lo) (num kkkk) (num b32)
        (num extra)) := by
  have hdest : land (num lo) 7 = num (lo &&& 7) := by simp
  have hlow : land (num lo) 3 = ((lo &&& 3).toNat : Int) :=
    land_ofNat lo 3 (by decide) (by decide) (by decide)
  unfold decode04 DisAssembler.Mn1613.decode04
  refine .ite (by simp) (agrees_one rfl rfl) ?_
  refine .ite (by simp) (agrees_one rfl rfl) ?_
  refine .ite (by simp) (agrees_one rfl ?_) ?_
  · rw [hlow]
    rfl
  refine .ite (by simp) (agrees_two rfl rfl) ?_
  refine .ite (by simp) (agrees_two rfl rfl) ?_
  refine .ite (by simp) (agrees_one rfl (by simp)) ?_
  refine .ite (by simp) (agrees_one rfl (by simp)) ?_
  refine .ite (by simp) ?_ ?_
  · dsimp only
    rw [hdest]
    refine .ite (by simp) ?_ (agrees_two rfl (longOps_view lo _ extra))
    refine .ite (by simp) (agrees_two ?_ rfl) (agrees_two rfl (longOps_view lo _ extra))
    by_cases h : (lo >>> 4) &&& 3#16 = 1#16 <;> simp [h] <;> rfl
  refine .ite (by simp) (agrees_one rfl (by simp)) ?_
  refine .ite (by simp) (agrees_one rfl (by simp)) ?_
  exact decode04Indirect_agrees ir rrr lo kkkk b32

theorem decode07_agrees :
    Agrees (decode07 ir rrr lo kkkk)
      (DisAssembler.Mn1613.decode07 (num ir) (num rrr) (num lo) (num kkkk)) := by
  have hhh : (land (ushr (num lo) 4) 7).toNat = ((lo >>> 4) &&& 7).toNat := by simp
  unfold decode07 DisAssembler.Mn1613.decode07
  refine .ite (by simp) (agrees_one rfl (bitOps_view rrr lo kkkk)) ?_
  refine .ite (by simp) (agrees_one rfl rfl) ?_
  refine .ite (by simp) (agrees_one rfl rfl) ?_
  refine .ite (by simp) (agrees_one rfl (by simp)) ?_
  refine .ite (by simp) (agrees_one rfl (by simp)) ?_
  refine .ite (by simp) agrees_undef ?_
  have hnames : DisAssembler.Mn1613.HHH = HHH := rfl
  rw [hhh, hnames]
  cases HHH[((lo >>> 4) &&& 7).toNat]? with
  | none => exact agrees_undef
  | some hr =>
      refine agrees_one ?_ (by simp)
      by_cases h : (lo >>> 7) &&& 1#16 = 1#16 <;> simp [h] <;> rfl

theorem pointerOps_view (acc : String) (b10 : U16) (carry : Bool) :
    (pointerOps kkkk acc b10 carry).map DecodedOp.view =
      DisAssembler.Mn1613.pointerOps (num kkkk) acc (num b10) carry := by
  simp [pointerOps, DisAssembler.Mn1613.pointerOps, trail_view]

theorem decodeDouble_agrees {double single : String} {tsDouble tsSingle : Mnemonic}
    (hdouble : double = tsDouble.name) (hsingle : single = tsSingle.name) :
    Agrees (decodeDouble ir rrr lo kkkk double single)
      (DisAssembler.Mn1613.decodeDouble (num ir) (num rrr) (num lo) (num kkkk) tsDouble
        tsSingle) := by
  unfold decodeDouble DisAssembler.Mn1613.decodeDouble
  refine .ite (by simp) (agrees_one hdouble ?_) (agrees_one hsingle (bitOps_view rrr lo kkkk))
  simp [pointerOps_view]

/-- The names of a register family. -/
structure FamilyAgrees (spec : RegFamilySpec) (ts : DisAssembler.Mn1613.RegFamily) : Prop where
  when7 : ∀ x : U16, (ts.when7.getD (x &&& 3).toNat none = none ∧ entry4 spec.when7 x = "") ∨
    ∃ mnem, ts.when7.getD (x &&& 3).toNat none = some mnem ∧ entry4 spec.when7 x = mnem.name ∧
      mnem.name ≠ ""
  immHi : spec.immHi = ts.immHi.name
  immLo : spec.immLo = ts.immLo.name
  bit1 : spec.bit1 = ts.bit1.name
  bit0 : spec.bit0 = ts.bit0.name
  acc7 : spec.acc7 = ts.acc7

theorem decodeRegFamily_agrees (extra : U16) {spec : RegFamilySpec}
    {ts : DisAssembler.Mn1613.RegFamily} (h : FamilyAgrees spec ts) :
    Agrees (decodeRegFamily ir rrr lo kkkk extra spec)
      (DisAssembler.Mn1613.decodeRegFamily (num ir) (num rrr) (num lo) (num kkkk) (num extra)
        ts) := by
  have hb32 : (land (ushr (num lo) 2) 3).toNat = ((lo >>> 2) &&& 3).toNat := by simp
  unfold decodeRegFamily DisAssembler.Mn1613.decodeRegFamily
  refine .ite (by simp) ?_ ?_
  · rw [hb32]
    rcases h.when7 (lo >>> 2) with ⟨hts, hrs⟩ | ⟨mnem, hts, hrs, hne⟩
    · rw [hts, hrs, if_pos rfl]
      exact agrees_undef
    · rw [hts, hrs, if_neg hne]
      exact agrees_one rfl (by simp [pointerOps_view, h.acc7])
  · refine .ite (by simp) (agrees_two h.immHi (by simp [trail_view])) ?_
    refine .ite (by simp) (agrees_two h.immLo (by simp [trail_view])) ?_
    refine agrees_one ?_ (by simp [trail_view])
    by_cases hbit : lo &&& 8#16 = 0#16 <;> simp [hbit, h.bit1, h.bit0]

/-- A table of four names is read alike when it is alike in its four places. -/
theorem when7_agrees {names : Vector String 4} {tsNames : List (Option Mnemonic)}
    (h : ∀ k, (hk : k < 4) → (tsNames.getD k none = none ∧ names.get ⟨k, hk⟩ = "") ∨
      ∃ mnem, tsNames.getD k none = some mnem ∧ names.get ⟨k, hk⟩ = mnem.name ∧ mnem.name ≠ "")
    (x : U16) : (tsNames.getD (x &&& 3).toNat none = none ∧ entry4 names x = "") ∨
      ∃ mnem, tsNames.getD (x &&& 3).toNat none = some mnem ∧ entry4 names x = mnem.name ∧
        mnem.name ≠ "" :=
  h _ (land_three_lt x)

theorem accumulator_num : DisAssembler.Mn1613.accumulator (num lo) = accumulator lo := by
  simp [DisAssembler.Mn1613.accumulator, accumulator]

theorem decode0a_agrees (extra : U16) :
    Agrees (decode0a ir rrr lo kkkk extra)
      (DisAssembler.Mn1613.decode0a (num ir) (num rrr) (num lo) (num kkkk) (num extra)) := by
  unfold decode0a DisAssembler.Mn1613.decode0a
  refine .ite (by simp) (agrees_one rfl (by simp [pointerOps_view])) ?_
  refine decodeRegFamily_agrees ir rrr lo kkkk extra ⟨when7_agrees ?_, rfl, rfl, rfl, rfl, rfl⟩
  rintro (_ | _ | _ | _ | k) hk
  · exact .inr ⟨.CBR, rfl, rfl, by decide⟩
  · exact .inl ⟨rfl, rfl⟩
  · exact .inr ⟨.CWR, rfl, rfl, by decide⟩
  · exact .inl ⟨rfl, rfl⟩
  · omega

theorem decode0b_agrees (extra : U16) :
    Agrees (decode0b ir rrr lo kkkk extra)
      (DisAssembler.Mn1613.decode0b (num ir) (num rrr) (num lo) (num kkkk) (num extra)) := by
  unfold decode0b DisAssembler.Mn1613.decode0b
  refine .ite (by simp) (agrees_one rfl (by simp [pointerOps_view])) ?_
  refine decodeRegFamily_agrees ir rrr lo kkkk extra ⟨when7_agrees ?_, rfl, rfl, rfl, rfl, rfl⟩
  rintro (_ | _ | _ | _ | k) hk
  · exact .inr ⟨.SWR, rfl, rfl, by decide⟩
  · exact .inl ⟨rfl, rfl⟩
  · exact .inr ⟨.AWR, rfl, rfl, by decide⟩
  · exact .inl ⟨rfl, rfl⟩
  · omega

theorem decode0c_agrees (extra : U16) :
    Agrees (decode0c ir rrr lo kkkk extra)
      (DisAssembler.Mn1613.decode0c (num ir) (num rrr) (num lo) (num kkkk) (num extra)) := by
  refine decodeRegFamily_agrees ir rrr lo kkkk extra
    ⟨when7_agrees ?_, rfl, rfl, rfl, rfl, (accumulator_num lo).symm⟩
  rintro (_ | _ | _ | _ | k) hk
  · exact .inr ⟨.EORR, rfl, rfl, by decide⟩
  · exact .inr ⟨.FD, rfl, rfl, by decide⟩
  · exact .inr ⟨.ORR, rfl, rfl, by decide⟩
  · exact .inr ⟨.FM, rfl, rfl, by decide⟩
  · omega

theorem decode0d_agrees (extra : U16) :
    Agrees (decode0d ir rrr lo kkkk extra)
      (DisAssembler.Mn1613.decode0d (num ir) (num rrr) (num lo) (num kkkk) (num extra)) := by
  refine decodeRegFamily_agrees ir rrr lo kkkk extra
    ⟨when7_agrees ?_, rfl, rfl, rfl, rfl, (accumulator_num lo).symm⟩
  rintro (_ | _ | _ | _ | k) hk
  · exact .inr ⟨.LADR, rfl, rfl, by decide⟩
  · exact .inr ⟨.FS, rfl, rfl, by decide⟩
  · exact .inr ⟨.ANDR, rfl, rfl, by decide⟩
  · exact .inr ⟨.FA, rfl, rfl, by decide⟩
  · omega

theorem decodePointer_agrees {when3 when2 when0 : String} {ts3 ts2 ts0 : Mnemonic}
    (h3 : when3 = ts3.name) (h2 : when2 = ts2.name) (h0 : when0 = ts0.name) :
    Agrees (decodePointer ir lo kkkk when3 when2 when0)
      (DisAssembler.Mn1613.decodePointer (num ir) (num lo) (num kkkk) ts3 ts2 ts0) := by
  unfold decodePointer DisAssembler.Mn1613.decodePointer
  refine .ite (by simp) (agrees_one h3 (by simp [pointerOps_view])) ?_
  refine .ite (by simp) (agrees_one h2 (by simp [pointerOps_view])) ?_
  exact .ite (by simp) (agrees_one h0 (by simp [pointerOps_view])) agrees_undef

theorem decodePair_agrees {bit1 bit0 : String} {ts1 ts0 : Mnemonic} (h1 : bit1 = ts1.name)
    (h0 : bit0 = ts0.name) :
    Agrees (decodePair ir rrr lo kkkk bit1 bit0)
      (DisAssembler.Mn1613.decodePair (num ir) (num rrr) (num lo) (num kkkk) ts1 ts0) := by
  refine agrees_one ?_ (by simp [trail_view])
  by_cases hbit : lo &&& 8#16 = 0#16 <;> simp [hbit, h1, h0]

theorem decode0e_agrees :
    Agrees (decode0e ir rrr lo kkkk)
      (DisAssembler.Mn1613.decode0e (num ir) (num rrr) (num lo) (num kkkk)) := by
  unfold decode0e DisAssembler.Mn1613.decode0e
  refine .ite (by simp) (decodePointer_agrees ir lo kkkk rfl rfl rfl) ?_
  exact .ite (by simp) agrees_undef (decodePair_agrees ir rrr lo kkkk rfl rfl)

theorem decode0f_agrees (extra : U16) :
    Agrees (decode0f ir rrr lo kkkk extra)
      (DisAssembler.Mn1613.decode0f (num ir) (num rrr) (num lo) (num kkkk) (num extra)) := by
  unfold decode0f DisAssembler.Mn1613.decode0f
  refine .ite (by simp) (agrees_two rfl (by simp [trail_view])) ?_
  exact .ite (by simp) (decodePointer_agrees ir lo kkkk rfl rfl rfl)
    (decodePair_agrees ir rrr lo kkkk rfl rfl)

theorem decodeMemory_agrees (op a : U16) :
    Agrees (decodeMemory ir op rrr lo a)
      (DisAssembler.Mn1613.decodeMemory (num ir) (num op) (num rrr) (num lo) (num a)) := by
  have hea : (eaOp (op &&& 7) lo a).view =
      DisAssembler.Mn1613.eaOp (land (num op) 7) (num lo) (num a) := by
    rw [eaOp_view, land_ofNat op 7 (by decide) (by decide) (by decide)]
    rfl
  unfold decodeMemory DisAssembler.Mn1613.decodeMemory
  dsimp only
  rw [← hea]
  refine .ite (by simp) (agrees_one ?_ rfl) ?_
  · by_cases hbit : op &&& 8#16 = 0#16 <;> simp [hbit] <;> rfl
  refine .ite (by simp) (agrees_one ?_ rfl) (agrees_one ?_ (by simp))
  · by_cases hbit : op &&& 8#16 = 0#16 <;> simp [hbit] <;> rfl
  · by_cases hbit : op &&& 8#16 = 0#16 <;> simp [hbit] <;> rfl

end Groups

/-- One case for each opcode group. -/
theorem decodeWord_agrees (a ir extra : U16) :
    Agrees (decodeWord a ir extra)
      (DisAssembler.Mn1613.decodeWord (num a) (num ir) (num extra)) := by
  have hop : land (ushr (num ir) 11) 0x1f = num ((ir >>> 11) &&& 0x1f) := by simp
  have hrrr : land (ushr (num ir) 8) 7 = num ((ir >>> 8) &&& 7) := by simp
  have hlo : land (num ir) 0xff = num (ir &&& 0xff) := by simp
  unfold decodeWord DisAssembler.Mn1613.decodeWord
  dsimp only
  rw [hop, hrrr, hlo]
  generalize (ir >>> 11) &&& 0x1f = op
  generalize (ir >>> 8) &&& 7 = rrr
  generalize ir &&& 0xff = lo
  have hkkkk : land (ushr (num lo) 4) 0xf = num ((lo >>> 4) &&& 0xf) := by simp
  have hb32 : land (ushr (num lo) 2) 3 = num ((lo >>> 2) &&& 3) := by simp
  rw [hkkkk, hb32, toNat_num]
  generalize (lo >>> 4) &&& 0xf = kkkk
  generalize (lo >>> 2) &&& 3 = b32
  refine .ite (by simp) (decodeMemory_agrees ir rrr lo op a) ?_
  generalize op.toNat = k
  rcases k with _ | _ | _ | _ | _ | _ | _ | _ | _ | _ | _ | _ | _ | _ | _ | _ | k
  · exact agrees_undef
  · exact decode01_agrees ir rrr lo extra
  · exact decode02_agrees ir rrr lo kkkk extra
  · exact decode03_agrees ir rrr lo kkkk
  · exact decode04_agrees ir rrr lo kkkk b32 extra
  · exact agrees_one rfl (bitOps_view rrr lo kkkk)
  · exact agrees_one rfl (bitOps_view rrr lo kkkk)
  · exact decode07_agrees ir rrr lo kkkk
  · exact decodeDouble_agrees ir rrr lo kkkk rfl rfl
  · exact decodeDouble_agrees ir rrr lo kkkk rfl rfl
  · exact decode0a_agrees ir rrr lo kkkk extra
  · exact decode0b_agrees ir rrr lo kkkk extra
  · exact decode0c_agrees ir rrr lo kkkk extra
  · exact decode0d_agrees ir rrr lo kkkk extra
  · exact decode0e_agrees ir rrr lo kkkk
  · exact decode0f_agrees ir rrr lo kkkk extra
  · exact agrees_undef

/-- Memory as the Rust decoder reads it: the low 16 bits of each word, at 16-bit addresses. -/
def wordMemory (readWord : Int → Int) (a : U16) : U16 := BitVec.ofInt 16 (readWord (num a))

/-- Whatever the memory holds, the two decoders return the same instruction. -/
theorem decoders_agree (addr : Int) (readWord : Int → Int) :
    Agrees (decodeMn1613 (BitVec.ofInt 16 addr) (wordMemory readWord))
      (DisAssembler.Mn1613.decodeMn1613 addr readWord) := by
  have hmask (x : U16) : x &&& 0xffff = x := BitVec.and_allOnes
  have hnext : land (num (BitVec.ofInt 16 addr) + 1) 0xffff = num (BitVec.ofInt 16 addr + 1) := by
    rw [land_word, BitVec.ofInt_add, ofInt_num]
    rfl
  unfold decodeMn1613 DisAssembler.Mn1613.decodeMn1613
  dsimp only
  rw [land_word addr, hnext, land_word, land_word, hmask, hmask, hmask]
  exact decodeWord_agrees _ _ _

end Mn1613
end Disasm
end RetroCpu
