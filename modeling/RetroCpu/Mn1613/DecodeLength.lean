import RetroCpu.DisAssembler.Mn1613
import RetroCpu.EmuTs.Mn1613Nesting
import RetroCpu.Mn1613.SkipLength

/-!
# Disassembling along the execution

The disassembler and the core decode instruction words separately.  Group by group the
word count of the disassembler is compared with the words that the core fetches
(`operandWords`).  They agree on every word but two kinds: LS and STS of a special register
that does not exist, and MVWI to `IC`.  Both are printed as one word of data, and executed
as two-word instructions.
-/

namespace RetroCpu
namespace Mn1613

open Js Prog BitField DisAssembler.Mn1613
open EmuTs.Mn1613 (operandWords operandWords04 operandWords0b operandWords0f immediateWords)

section Groups

variable (ir rrr lo kkkk extra : Int)

@[simp] theorem one_wordCount (m : Mnemonic) (ops : List DecodedOp) :
    (one m ir ops).wordCount = 1 := rfl

@[simp] theorem two_wordCount (m : Mnemonic) (ops : List DecodedOp) :
    (two m ir ops).wordCount = 2 := rfl

@[simp] theorem undef_wordCount : (undef ir).wordCount = 1 := rfl

@[simp] theorem wordCount_ite (c : Prop) [Decidable c] (d d' : DecodedInst) :
    (if c then d else d').wordCount = if c then d.wordCount else d'.wordCount :=
  apply_ite _ c d d'

theorem decodeMemory_wordCount (op a : Int) : (decodeMemory ir op rrr lo a).wordCount = 1 := by
  simp [decodeMemory]

theorem specialForm_wordCount (bBits : Int) {f : String → DecodedInst} {n : Nat}
    (hf : ∀ sr, (f sr).wordCount = n) :
    (specialForm ir bBits f).wordCount = if bBits.toNat < PPP.length then n else 1 := by
  unfold specialForm
  by_cases hlt : bBits.toNat < PPP.length
  · rw [List.getElem?_eq_getElem hlt, if_pos hlt]
    exact hf _
  · rw [List.getElem?_eq_none (by omega), if_neg hlt]
    rfl

/-- LS and STS of a special register that does not exist. -/
def isBadSpecial (rrr lo : Int) : Prop :=
  rrr = 7 ∧ land lo 7 = 7 ∧ land (ushr lo 3) 1 = 1 ∧
    ¬ (land (ushr lo 4) 7).toNat < PPP.length

instance : Decidable (isBadSpecial rrr lo) := by
  unfold isBadSpecial
  infer_instance

theorem decode01_wordCount (hbit7 : land (ushr lo 7) 1 = 0 ∨ land (ushr lo 7) 1 = 1)
    (hbit3 : land (ushr lo 3) 1 = 0 ∨ land (ushr lo 3) 1 = 1) :
    (decode01 ir rrr lo extra).wordCount =
      1 + if rrr = 7 ∧ land lo 7 = 7 ∧ ¬ isBadSpecial rrr lo then 1 else 0 := by
  have hLS (sr : String) (m : Mnemonic) :
      (two m ir [.raw sr, .addr extra .plain none]).wordCount = 2 := rfl
  have hCPYS (sr : String) (m : Mnemonic) :
      (one m ir [.raw (regName (land lo 7)), .raw sr]).wordCount = 1 := rfl
  simp only [decode01, wordCount_ite, one_wordCount, two_wordCount, ite_self,
    specialForm_wordCount ir _ fun sr => hLS sr _, specialForm_wordCount ir _ fun sr => hCPYS sr _]
  unfold isBadSpecial
  by_cases hrrr : rrr = 7
  · by_cases hlow : land lo 7 = 7
    · by_cases hlt : (land (ushr lo 4) 7).toNat < PPP.length
      · simp [hrrr, hlow, hlt]
      · rcases hbit3 with h3 | h3
        · rcases hbit7 with h7 | h7
          · simp [hrrr, hlow, h3, h7]
          · simp [hrrr, hlow, h3, h7]
        · simp [hrrr, hlow, hlt, h3]
    · simp [hrrr, hlow]
  · simp [hrrr]

theorem decode02_wordCount : (decode02 ir rrr lo kkkk extra).wordCount =
    1 + if rrr ≠ 7 then 0 else if lo = 0x0f then 0 else if lo = 0x07 then 0 else 1 := by
  simp only [decode02, wordCount_ite, one_wordCount, two_wordCount]
  split_ifs <;> rfl

theorem decode03_wordCount : (decode03 ir rrr lo kkkk).wordCount = 1 := by
  simp [decode03]

theorem decode04Low_wordCount (b32 b10 : Int) :
    (decode04Low ir rrr lo kkkk b32 b10).wordCount = 1 := by
  simp [decode04Low]

theorem decode04Indirect_wordCount (b32 : Int) :
    (decode04Indirect ir rrr lo kkkk b32).wordCount = 1 := by
  unfold decode04Indirect
  dsimp only
  cases hmm : riMode (land (ushr lo 6) 3) (land lo 3) with
  | none => exact decode04Low_wordCount ir rrr lo kkkk b32 _
  | some mmStr => simp [decode04Low_wordCount]

theorem decode04_wordCount (b32 : Int) :
    (decode04 ir rrr lo kkkk b32 extra).wordCount = 1 + operandWords04 rrr lo := by
  simp only [decode04, operandWords04, wordCount_ite, one_wordCount, two_wordCount,
    decode04Indirect_wordCount, ite_self]
  split_ifs <;> rfl

theorem decode07_wordCount : (decode07 ir rrr lo kkkk).wordCount = 1 := by
  unfold decode07
  cases HHH[(land (ushr lo 4) 7).toNat]? with
  | none => simp
  | some hr => simp

theorem decodeDouble_wordCount (double single : Mnemonic) :
    (decodeDouble ir rrr lo kkkk double single).wordCount = 1 := by
  simp [decodeDouble]

theorem decodeRegFamily_wordCount (spec : RegFamily) :
    (decodeRegFamily ir rrr lo kkkk extra spec).wordCount =
      1 + if rrr = 7 then 0
        else if land lo 0xf = 0x0f then 1 else if land lo 0xf = 0x07 then 1 else 0 := by
  unfold decodeRegFamily
  dsimp only
  cases hmnem : spec.when7.getD (land (ushr lo 2) 3).toNat none with
  | none =>
      simp only [wordCount_ite, one_wordCount, two_wordCount, undef_wordCount]
      split_ifs <;> rfl
  | some mnem =>
      simp only [wordCount_ite, one_wordCount, two_wordCount]
      split_ifs <;> rfl

theorem decodePointer_wordCount (when3 when2 when0 : Mnemonic) :
    (decodePointer ir lo kkkk when3 when2 when0).wordCount = 1 := by
  simp [decodePointer]

theorem decodePair_wordCount (bit1 bit0 : Mnemonic) :
    (decodePair ir rrr lo kkkk bit1 bit0).wordCount = 1 := by
  simp [decodePair]

theorem decode0e_wordCount : (decode0e ir rrr lo kkkk).wordCount = 1 := by
  simp [decode0e, decodePointer_wordCount, decodePair_wordCount]

theorem decode0f_wordCount : (decode0f ir rrr lo kkkk extra).wordCount =
    1 + if rrr ≠ 7 ∧ land lo 0xf = 0x07 then 1 else 0 := by
  simp only [decode0f, wordCount_ite, two_wordCount, decodePointer_wordCount,
    decodePair_wordCount, ite_self]
  split_ifs <;> rfl

end Groups

section Words

/-- MVWI to `IC`. -/
def isMvwiIc (op rrr lo : Int) : Prop := op = 0x0f ∧ rrr = 7 ∧ land lo 0xf = 0x07

instance (op rrr lo : Int) : Decidable (isMvwiIc op rrr lo) := by
  unfold isMvwiIc
  infer_instance

/-- The words that the disassembler takes for one word of data and the core for a
two-word instruction. -/
def isMisread (ir : Int) : Prop :=
  let op := land (ushr ir 11) 0x1f
  let rrr := land (ushr ir 8) 0x7
  let lo := land ir 0xff
  (op = 0x01 ∧ isBadSpecial rrr lo) ∨ isMvwiIc op rrr lo

instance (ir : Int) : Decidable (isMisread ir) := by
  unfold isMisread
  infer_instance

theorem land_one_cases (x : Int) : land x 1 = 0 ∨ land x 1 = 1 := by
  have h : land x 1 = x % 2 := land_mask x (k := 1) (by decide)
  omega

/-- A register family has an immediate word where the core fetches one. -/
theorem family_wordCount (ir kkkk extra : Int) (r lo : EmuRs.Mn1613.U16) (spec : RegFamily) :
    (decodeRegFamily ir (num r) (num lo) kkkk extra spec).wordCount =
      1 + if num r = 7 then 0 else immediateWords (num lo) := by
  have h := low_nibble_iff lo
  rw [decodeRegFamily_wordCount, immediateWords_num]
  by_cases h7 : lo &&& 7#16 = 7#16
  · rcases h.mpr h7 with hf | hf
    · simp [h7, hf]
    · simp [h7, hf]
  · have hnf : ¬ lo &&& 15#16 = 15#16 := fun hf => h7 (h.mp (.inl hf))
    have hn7 : ¬ lo &&& 15#16 = 7#16 := fun hf => h7 (h.mp (.inr hf))
    simp [h7, hnf, hn7]

theorem decode0a_wordCount (ir kkkk extra : Int) (r lo : EmuRs.Mn1613.U16) :
    (decode0a ir (num r) (num lo) kkkk extra).wordCount =
      1 + if num r = 7 then 0 else immediateWords (num lo) := by
  unfold decode0a
  rw [wordCount_ite, family_wordCount]
  by_cases hr : num r = 7
  · rw [if_pos hr]
    split_ifs <;> rfl
  · rw [if_neg fun h => hr h.1]

theorem decode0b_wordCount (ir kkkk extra : Int) (r lo : EmuRs.Mn1613.U16) :
    (decode0b ir (num r) (num lo) kkkk extra).wordCount =
      1 + operandWords0b (num r) (num lo) := by
  have h := operandWords0b_num r lo
  have hle : operandWords0b (num r) (num lo) ≤ 1 := by
    unfold operandWords0b immediateWords
    split_ifs <;> simp
  unfold decode0b
  rw [wordCount_ite, family_wordCount]
  by_cases hr : num r = 7
  · have hnot : operandWords0b (num r) (num lo) ≠ 1 := fun h1 => (h.mp h1).1 (num_inj.mp hr)
    have hzero : operandWords0b (num r) (num lo) = 0 := by omega
    rw [hzero, if_pos hr]
    split_ifs <;> rfl
  · rw [if_neg fun h => hr h.1, if_neg hr, operandWords0b, if_neg hr]

theorem decode0f_eq (ir kkkk extra : Int) (r lo : EmuRs.Mn1613.U16) :
    (decode0f ir (num r) (num lo) kkkk extra).wordCount =
      1 + if num r = 7 ∧ land (num lo) 0xf = 0x07 then 0 else operandWords0f (num r) (num lo) := by
  have hle : operandWords0f (num r) (num lo) ≤ 1 := by
    unfold operandWords0f
    split_ifs <;> simp
  have h : operandWords0f (num r) (num lo) = 1 ↔ land (num lo) 0xf = 0x07 :=
    (operandWords0f_num r lo).trans (by simp)
  rw [decode0f_wordCount]
  by_cases hlow : land (num lo) 0xf = 0x07
  · rw [h.mpr hlow]
    by_cases hr : num r = 7
    · simp [hr, hlow]
    · simp [hr, hlow]
  · have hzero : operandWords0f (num r) (num lo) = 0 := by
      have hnot := mt h.mp hlow
      omega
    rw [hzero, if_neg fun h' => hlow h'.2, ite_self]

/-- The disassembler counts the words that the core fetches, but for the misread ones. -/
theorem decodeWord_wordCount (w : EmuRs.Mn1613.U16) (a extra : Int) :
    (decodeWord a (num w) extra).wordCount =
      1 + if isMisread (num w) then 0 else operandWords (num w) := by
  obtain ⟨hop, hrrr, hlo⟩ := fields_num w
  have hge := memory_group_iff w
  unfold decodeWord operandWords isMisread isMvwiIc
  simp only [hop, hrrr, hlo, toNat_num, hge]
  have hnum : num ((w >>> 11) &&& 0x1f) = (((w >>> 11) &&& 0x1f).toNat : Int) := rfl
  rw [hnum]
  generalize ((w >>> 11) &&& 0x1f).toNat = n
  generalize (w >>> 8) &&& 0x7 = r
  generalize w &&& 0xff = lo
  rcases n with _ | _ | _ | _ | _ | _ | _ | _ | _ | _ | _ | _ | _ | _ | _ | _ | n
  case zero => simp
  case succ.zero =>
    have h := decode01_wordCount (num w) (num r) (num lo) extra (land_one_cases _) (land_one_cases _)
    by_cases hbad : isBadSpecial (num r) (num lo)
    · simp [h, hbad]
    · simp [h, hbad]
      by_cases hr : r = 7#16
      · simp [hr]
      · simp [hr]
  case succ.succ.zero => simp [decode02_wordCount]
  case succ.succ.succ.zero => simp [decode03_wordCount]
  case succ.succ.succ.succ.zero => simp [decode04_wordCount]
  case succ.succ.succ.succ.succ.zero => simp
  case succ.succ.succ.succ.succ.succ.zero => simp
  case succ.succ.succ.succ.succ.succ.succ.zero => simp [decode07_wordCount]
  case succ.succ.succ.succ.succ.succ.succ.succ.zero => simp [decode08, decodeDouble_wordCount]
  case succ.succ.succ.succ.succ.succ.succ.succ.succ.zero => simp [decode09, decodeDouble_wordCount]
  case succ.succ.succ.succ.succ.succ.succ.succ.succ.succ.zero => simp [decode0a_wordCount]
  case succ.succ.succ.succ.succ.succ.succ.succ.succ.succ.succ.zero => simp [decode0b_wordCount]
  case succ.succ.succ.succ.succ.succ.succ.succ.succ.succ.succ.succ.zero => simp [decode0c, family_wordCount]
  case succ.succ.succ.succ.succ.succ.succ.succ.succ.succ.succ.succ.succ.zero => simp [decode0d, family_wordCount]
  case succ.succ.succ.succ.succ.succ.succ.succ.succ.succ.succ.succ.succ.succ.zero => simp [decode0e_wordCount]
  case succ.succ.succ.succ.succ.succ.succ.succ.succ.succ.succ.succ.succ.succ.succ.zero => simp [decode0f_eq]
  all_goals simp [decodeMemory_wordCount]

end Words

section Execution

variable {σ : Type} (bd : EmuTs.Mn1613.Board σ)

/-- The code segment as the disassembler reads it. -/
def codeReader (s : EmuTs.Mn1613.Cpu σ) (a : Int) : Int :=
  EmuTs.Mn1613.getUint16 s.mem (land (EmuTs.Mn1613.phys a s.reg.CSBR) 0x3ffff)

/-- The instruction that the disassembler finds at `IC`. -/
def decoded (s : EmuTs.Mn1613.Cpu σ) : DecodedInst := decodeMn1613 s.reg.IC (codeReader s)

theorem phys_land_word (la seg : Int) :
    EmuTs.Mn1613.phys (land la 0xffff) seg = EmuTs.Mn1613.phys la seg := by
  have h : land (land la 0xffff) 0xffff = land la 0xffff := by
    simp only [land_ffff]
    omega
  rw [EmuTs.Mn1613.phys, h, EmuTs.Mn1613.phys]

theorem codeReader_word (s : EmuTs.Mn1613.Cpu σ) :
    land (codeReader s (land s.reg.IC 0xffff)) 0xffff = num (codeWord s) := by
  rw [codeReader, phys_land_word, getUint16_phys, land_ffff_num, codeWord]

theorem fetchInstruction_word (s : EmuTs.Mn1613.Cpu σ) :
    (EmuTs.Mn1613.fetchInstruction bd s).1 = num (codeWord s) := by
  rw [codeWord, ← getUint16_phys]
  rfl

theorem advance_fetches (s : EmuTs.Mn1613.Cpu σ) :
    (EmuTs.Mn1613.advance bd s).fetches = s.fetches + (1 + operandWords (num (codeWord s))) := by
  have hfetch : (EmuTs.Mn1613.fetchInstruction bd s).2.fetches = s.fetches + 1 := rfl
  rw [EmuTs.Mn1613.advance, execute_fetches, hfetch, fetchInstruction_word, Nat.add_assoc]

theorem decoded_wordCount (s : EmuTs.Mn1613.Cpu σ) :
    (decoded s).wordCount =
      1 + if isMisread (num (codeWord s)) then 0 else operandWords (num (codeWord s)) := by
  unfold decoded decodeMn1613
  dsimp only
  rw [codeReader_word, decodeWord_wordCount]

/-- A misread word has an operand word. -/
theorem operandWords_misread {w : EmuRs.Mn1613.U16} (h : isMisread (num w)) :
    operandWords (num w) = 1 := by
  obtain ⟨_, hrrr, hlo⟩ := fields_num w
  rcases h with ⟨hop, h7, hlow, -, -⟩ | ⟨hop, h7, hlow⟩
  · unfold operandWords
    rw [hop, h7]
    simp only [hlow]
    rfl
  · unfold operandWords
    rw [hop, hrrr, hlo]
    rw [hlo] at hlow
    have hwords := (operandWords0f_num ((w >>> 8) &&& 0x7) (w &&& 0xff)).mpr (by simpa using hlow)
    simpa using hwords

/-- The disassembler and the core agree on the length of an instruction, in every state
and for every memory, if and only if the instruction is not misread. -/
theorem decode_length_law (s : EmuTs.Mn1613.Cpu σ) :
    (EmuTs.Mn1613.advance bd s).fetches = s.fetches + (decoded s).wordCount ↔
      ¬ isMisread (num (codeWord s)) := by
  rw [advance_fetches, decoded_wordCount]
  by_cases h : isMisread (num (codeWord s))
  · rw [if_pos h, operandWords_misread h]
    simp [h]
  · rw [if_neg h]
    simp [h]

/-- `LS` of the special register 3, which does not exist: one word of data for the
disassembler, two words for the core. -/
theorem decode_length_ls :
    let s := EmuTs.Mn1613.Cpu.initial (fun _ => 0x0f3f#16) ()
    let bd := EmuTs.Mn1613.Board.default
    (decoded s).wordCount = 1 ∧ (EmuTs.Mn1613.advance bd s).fetches = s.fetches + 2 ∧
      ¬ EmuTs.Mn1613.isUndefined 0x0f3f := by
  decide

/-- The address that linear disassembly from `a` reaches after `n` instructions. -/
def sweep (read : Int → Int) (a : Int) : Nat → Int
  | 0 => a
  | n + 1 =>
      let a' := sweep read a n
      land (a' + (decodeMn1613 a' read).wordCount) 0xffff

/-- A step that neither jumps nor skips, and does not change what the disassembler reads. -/
structure StraightLine (s : EmuTs.Mn1613.Cpu σ) : Prop where
  next : (EmuTs.Mn1613.advance bd s).reg.IC =
    land (s.reg.IC + ((EmuTs.Mn1613.advance bd s).fetches - s.fetches : Nat)) 0xffff
  code : codeReader (EmuTs.Mn1613.advance bd s) = codeReader s

/-- On straight-line code without misread words the disassembler stays in step. -/
theorem sweep_in_step (s : EmuTs.Mn1613.Cpu σ) (n : Nat)
    (hline : ∀ k < n, StraightLine bd ((EmuTs.Mn1613.advance bd)^[k] s))
    (hread : ∀ k < n, ¬ isMisread (num (codeWord ((EmuTs.Mn1613.advance bd)^[k] s)))) :
    ((EmuTs.Mn1613.advance bd)^[n] s).reg.IC = sweep (codeReader s) s.reg.IC n ∧
      codeReader ((EmuTs.Mn1613.advance bd)^[n] s) = codeReader s := by
  induction n with
  | zero => exact ⟨rfl, rfl⟩
  | succ n ih =>
      obtain ⟨hIC, hcode⟩ := ih (fun k hk => hline k (by omega)) (fun k hk => hread k (by omega))
      have hstep := hline n (by omega)
      have hlength := (decode_length_law bd _).mpr (hread n (by omega))
      rw [Function.iterate_succ_apply']
      constructor
      · rw [hstep.next, hlength, Nat.add_sub_cancel_left, decoded, hcode, hIC]
        rfl
      · rw [hstep.code, hcode]

end Execution

end Mn1613
end RetroCpu
