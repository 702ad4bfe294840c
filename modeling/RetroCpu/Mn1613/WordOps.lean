import Mathlib.Data.List.Find
import RetroCpu.Lib.BitField
import RetroCpu.EmuTs.Mn1613Exec
import RetroCpu.EmuRs.Mn1613Exec

/-!
# Word operations of the two MN1613 cores

The arithmetic that instructions do on register contents, computed on unbounded
numbers by the one core and on `u16`/`u32`/`i64` words by the other, agrees.
-/

namespace RetroCpu
namespace Mn1613
namespace WordOps

open Js BitField
open EmuRs.Mn1613 (U8 U16 U32)

section Conversions

theorem ofInt_num' {w v : Nat} (x : BitVec w) : BitVec.ofInt v (num x) = x.setWidth v := by
  apply BitVec.eq_of_toNat_eq
  rw [BitVec.toNat_ofInt, BitVec.toNat_setWidth, num]
  norm_cast

theorem ofInt_sub' (v : Nat) (x y : Int) :
    BitVec.ofInt v (x - y) = BitVec.ofInt v x - BitVec.ofInt v y := by
  rw [Int.sub_eq_add_neg, BitVec.ofInt_add, BitVec.ofInt_neg, ← BitVec.sub_eq_add_neg]

/-- The sign of a wide enough word is the sign of the number. -/
theorem slt_zero_ofInt {v : Nat} (hv : 0 < v) {x : Int} (h0 : -(2 ^ (v - 1) : Nat) ≤ x)
    (h1 : x < (2 ^ (v - 1) : Nat)) :
    (BitVec.ofInt v x).slt 0 = true ↔ x < 0 := by
  have hpow : (2 : Nat) ^ v = 2 * 2 ^ (v - 1) := by
    rw [← pow_succ']
    congr 1
    omega
  have hx : (BitVec.ofInt v x).toInt = x := by
    rw [BitVec.toInt_ofInt]
    apply Int.bmod_eq_of_le
    · rw [hpow]
      omega
    · rw [hpow]
      omega
  rw [BitVec.slt_iff_toInt_lt, hx]
  simp

theorem slt_zero_ofInt32 {x : Int} (h0 : -2147483648 ≤ x) (h1 : x < 2147483648) :
    (BitVec.ofInt 32 x).slt 0 = true ↔ x < 0 := slt_zero_ofInt (by decide) h0 h1

theorem slt_zero_ofInt64 {x : Int} (h0 : -9223372036854775808 ≤ x)
    (h1 : x < 9223372036854775808) :
    (BitVec.ofInt 64 x).slt 0 = true ↔ x < 0 := slt_zero_ofInt (by decide) h0 h1

theorem setWidth_ofInt {v w : Nat} (hvw : w ≤ v) (x : Int) :
    (BitVec.ofInt v x).setWidth w = BitVec.ofInt w x := by
  have hdvd : ((2 ^ w : Nat) : Int) ∣ ((2 ^ v : Nat) : Int) := by
    exact_mod_cast Nat.pow_dvd_pow 2 hvw
  have hpos : (0 : Int) < ((2 ^ v : Nat) : Int) := by exact_mod_cast Nat.two_pow_pos v
  have hpos' : (0 : Int) ≤ ((2 ^ w : Nat) : Int) := by exact_mod_cast Nat.zero_le _
  apply BitVec.eq_of_toNat_eq
  rw [BitVec.toNat_setWidth, BitVec.toNat_ofInt, BitVec.toNat_ofInt]
  rw [← Int.emod_emod_of_dvd x hdvd, Int.toNat_emod (Int.emod_nonneg _ hpos.ne') hpos', Int.toNat_natCast]

theorem ushr_zero (x : Int) : ushr x 0 = num (toBits x) := by
  simp [ushr, num, toBits]

theorem toBits_shl (x : Int) (n : Nat) (hn : n < 32) :
    toBits (shl x (OfNat.ofNat n)) = toBits x <<< n := by
  have hn' : n % 2 ^ 32 = n := Nat.mod_eq_of_lt (by omega)
  rw [shl, toBits_toInt, toBits_ofNat, BitVec.toNat_ofNat, hn', Nat.mod_eq_of_lt hn]

theorem shl_num {w : Nat} (x : BitVec w) (n : Nat) (hw : w ≤ 31) (hn : n < 32)
    (hx : x.toNat * 2 ^ n < 2 ^ w) :
    shl (num x) (OfNat.ofNat n) = num (x <<< n) := by
  have hpow : (2 : Nat) ^ w ≤ 2 ^ 31 := Nat.pow_le_pow_right (by decide) hw
  have hx' : num x * 2 ^ n < 2 ^ 31 := by
    simp only [num]
    exact_mod_cast lt_of_lt_of_le hx hpow
  rw [shl_ofNat x n hn hx']
  simp only [num, BitVec.toNat_shiftLeft, Nat.shiftLeft_eq, Nat.mod_eq_of_lt hx]
  push_cast
  rfl

theorem land_word_setWidth (x : Int) : land x 0xffff = num ((toBits x).setWidth 16) := by
  rw [land_word, toBits, setWidth_ofInt (by decide)]

end Conversions

section Nibbles

theorem nibble_lt (v : U16) (n : Nat) : ((v >>> n) &&& 0xf).toNat < 16 := by
  have h := toNat_and_mask (v >>> n) 4 (by decide)
  have : ((v >>> n) &&& 0xf).toNat = (v >>> n).toNat % 16 := h
  omega

theorem dswp_num (v : U16) : EmuTs.Mn1613.dswp (num v) = num (EmuRs.Mn1613.dswp v) := by
  have h4 := nibble_lt v 4
  have h8 := nibble_lt v 8
  have h12 := nibble_lt v 12
  have hn (n : Nat) : (v >>> n) &&& 15#16 = (v >>> n) &&& 0xf := rfl
  simp only [EmuTs.Mn1613.dswp, EmuRs.Mn1613.dswp]
  rw [ushr_ofNat v 12 (by decide) (by decide), ushr_ofNat v 8 (by decide) (by decide),
    ushr_ofNat v 4 (by decide) (by decide)]
  rw [land_ofNat (v >>> 12) 15 (by decide) (by decide) (by decide),
    land_ofNat (v >>> 8) 15 (by decide) (by decide) (by decide),
    land_ofNat (v >>> 4) 15 (by decide) (by decide) (by decide),
    land_ofNat v 15 (by decide) (by decide) (by decide), hn, hn, hn]
  rw [shl_num _ 12 (by decide) (by decide) (by omega),
    shl_num _ 8 (by decide) (by decide) (by omega),
    shl_num _ 4 (by decide) (by decide) (by omega)]
  simp

/-- Swapping the two bytes of a word. -/
theorem bswp_num (v : U16) :
    lor (shl (land (num v) 0xff) 8) (ushr (num v) 8) = num (((v &&& 0xff) <<< 8) ||| (v >>> 8)) := by
  have hlow : (v &&& 0xff).toNat = v.toNat % 256 := toNat_and_mask v 8 (by decide)
  have hand : land (num v) 0xff = num (v &&& 0xff) := by simp
  rw [hand, shl_num _ 8 (by decide) (by decide) (by omega), ushr_ofNat v 8 (by decide) (by decide),
    lor_num _ _ (by decide)]

theorem bitMask_num (n : U16) :
    EmuTs.Mn1613.bitMask (num (n &&& 0xf)) = num (EmuRs.Mn1613.bitMask (n &&& 0xf)) := by
  have hall : ∀ k < 16, EmuTs.Mn1613.bitMask (num (BitVec.ofNat 16 k)) =
      num (EmuRs.Mn1613.bitMask (BitVec.ofNat 16 k)) := by decide
  have hlt : (n &&& 0xf).toNat < 16 := nibble_lt n 0
  have h := hall _ hlt
  rwa [BitVec.ofNat_toNat, BitVec.setWidth_eq] at h

theorem ladNibble_num (a b r : U16) (k : Nat) (hk : k = 0 ∨ k = 4 ∨ k = 8 ∨ k = 12) :
    EmuTs.Mn1613.ladNibble (num a) (num b) (num r) (k : Int) =
      num (EmuRs.Mn1613.ladNibble a b r k) := by
  have hushr (x : U16) : ushr (num x) (k : Int) = num (x >>> k) :=
    ushr_ofNat x k (by decide) (by omega)
  have hand (x : U16) : land (num x) 0xf = num (x &&& 0xf) := by simp
  have ha := nibble_lt a k
  have hb := nibble_lt b k
  have hcond : num ((a >>> k) &&& 0xf) + num ((b >>> k) &&& 0xf) > 9 ↔
      ((a >>> k) &&& 0xf) + ((b >>> k) &&& 0xf) > 9 := by
    rw [gt_iff_lt, gt_iff_lt, BitVec.lt_def, BitVec.toNat_add]
    simp only [num, show ((9 : U16)).toNat = 9 from rfl]
    omega
  have hsix : shl (if ((a >>> k) &&& 0xf) + ((b >>> k) &&& 0xf) > 9 then 6 else 0) (k : Int) =
      num ((if ((a >>> k) &&& 0xf) + ((b >>> k) &&& 0xf) > 9 then 6 else 0 : U16) <<< k) := by
    rcases hk with rfl | rfl | rfl | rfl <;> split_ifs <;> decide
  simp only [EmuTs.Mn1613.ladNibble, EmuRs.Mn1613.ladNibble, hushr, hand, hcond]
  rw [hsix, lor_num _ _ (by decide)]

theorem ladResult_num (a b : U16) :
    EmuTs.Mn1613.ladResult (num a) (num b) = num (EmuRs.Mn1613.ladResult a b) := by
  have h0 : EmuTs.Mn1613.ladNibble (num a) (num b) 0 0 = _ := ladNibble_num a b 0 0 (.inl rfl)
  have h4 (r : U16) : EmuTs.Mn1613.ladNibble (num a) (num b) (num r) 4 = _ :=
    ladNibble_num a b r 4 (.inr (.inl rfl))
  have h8 (r : U16) : EmuTs.Mn1613.ladNibble (num a) (num b) (num r) 8 = _ :=
    ladNibble_num a b r 8 (.inr (.inr (.inl rfl)))
  have h12 (r : U16) : EmuTs.Mn1613.ladNibble (num a) (num b) (num r) 12 = _ :=
    ladNibble_num a b r 12 (.inr (.inr (.inr rfl)))
  simp only [EmuTs.Mn1613.ladResult, EmuRs.Mn1613.ladResult, List.foldl_cons, List.foldl_nil,
    h0, h4, h8, h12]
  rw [land_word, ofInt_num]

end Nibbles

section Arithmetic

theorem srbt_num (v : U16) :
    (EmuTs.Mn1613.srbt (num v)).1 = num (EmuRs.Mn1613.srbt v).1 ∧
      (EmuTs.Mn1613.srbt (num v)).2 = num (EmuRs.Mn1613.srbt v).2 := by
  have hbits : EmuTs.Mn1613.srbtBits = EmuRs.Mn1613.srbtBits.map (fun n : Nat => (n : Int)) := by
    decide
  have htest : ∀ n ∈ EmuRs.Mn1613.srbtBits,
      (land (ushr (num v) (n : Int)) 1 ≠ 0 ↔ (v >>> n) &&& 1 ≠ 0) := by
    intro n hn
    have hn' : n < 32 := (show ∀ n ∈ EmuRs.Mn1613.srbtBits, n < 32 by decide) n hn
    have hushr : ushr (num v) (n : Int) = num (v >>> n) := ushr_ofNat v n (by decide) hn'
    rw [hushr]
    simp
  have hfind : EmuTs.Mn1613.srbtBits.find? (fun b => land (ushr (num v) b) 1 ≠ 0) =
      Option.map (fun n : Nat => (n : Int))
        (EmuRs.Mn1613.srbtBits.find? (fun b => (v >>> b) &&& 1 ≠ 0)) := by
    rw [hbits, List.find?_map]
    refine congrArg (Option.map _) (List.find?_congr fun n hn => ?_)
    exact decide_eq_decide.mpr (htest n hn)
  simp only [EmuTs.Mn1613.srbt, EmuRs.Mn1613.srbt, hfind]
  cases hf : EmuRs.Mn1613.srbtBits.find? (fun b => (v >>> b) &&& 1 ≠ 0) with
  | none => exact ⟨rfl, rfl⟩
  | some n =>
      have hmem := List.mem_of_find?_eq_some hf
      have hpos : ∀ n ∈ EmuRs.Mn1613.srbtBits, (15 - (n : Int)) = num (15 - BitVec.ofNat 16 n) ∧
          shl 1 (n : Int) = num ((1 : U16) <<< n) := by decide
      obtain ⟨hsub, hshl⟩ := hpos n hmem
      refine ⟨hsub, ?_⟩
      show land (num v) (lnot (shl 1 (n : Int))) = _
      rw [hshl, land_lnot_num _ _ (by decide)]

/-- The value shifted left by one, with a bit moved in. -/
theorem sl_num (a e : U16) :
    land (lor (shl (num a) 1) (num e)) 0xffff = num (((a <<< 1) ||| e) &&& 0xffff) := by
  have hshl : toBits (shl (num a) 1) = toBits (num a) <<< 1 := toBits_shl _ 1 (by decide)
  rw [land_word_setWidth, toBits_lor, hshl, toBits_num, toBits_num, num_inj]
  apply BitVec.eq_of_getLsbD_eq
  intro i hi
  have hones : (0xffff : U16) = BitVec.allOnes 16 := by decide
  rw [hones, BitVec.and_allOnes]
  by_cases h0 : i < 1
  · simp [hi, h0]
  · simp [hi, h0]

theorem sr_num (a e : U16) :
    land (lor (ushr (num a) 1) (num e)) 0xffff = num ((a >>> 1) ||| e) := by
  rw [ushr_ofNat a 1 (by decide) (by decide), lor_num _ _ (by decide), land_word, ofInt_num]

theorem dividend_num (a b : U16) :
    ushr (lor (shl (num a) 16) (num b)) 0 =
      num (((a.setWidth 32 : U32) <<< 16) ||| b.setWidth 32) := by
  have hshl : toBits (shl (num a) 16) = toBits (num a) <<< 16 := toBits_shl _ 16 (by decide)
  rw [ushr_zero, toBits_lor, hshl, toBits_num, toBits_num]

theorem quotient_num (x : U32) (y : U16) :
    num x / num y = num (x / y.setWidth 32) ∧ num x % num y = num (x % y.setWidth 32) := by
  have hy : (y.setWidth 32 : U32).toNat = y.toNat := by
    rw [BitVec.toNat_setWidth]
    omega
  constructor
  · simp only [num, BitVec.toNat_udiv, hy]
    rfl
  · simp only [num, BitVec.toNat_umod, hy]
    rfl

theorem product_num (a b : U16) :
    num a * num b = num ((a.setWidth 32 : U32) * b.setWidth 32) := by
  have ha := a.isLt
  have hb := b.isLt
  have hab : a.toNat * b.toNat < 2 ^ 32 :=
    lt_of_le_of_lt (Nat.mul_le_mul (show a.toNat ≤ 65535 by omega)
      (show b.toNat ≤ 65535 by omega)) (by decide)
  simp only [num, BitVec.toNat_mul, BitVec.toNat_setWidth]
  rw [Nat.mod_eq_of_lt (show a.toNat < 2 ^ 32 by omega),
    Nat.mod_eq_of_lt (show b.toNat < 2 ^ 32 by omega), Nat.mod_eq_of_lt hab]
  norm_cast

/-- The halves of a double word that both cores store. -/
theorem halves_num {w : Nat} (hw : 32 ≤ w) (x : BitVec w) (hx : x.toNat < 2 ^ 32) :
    land (ushr (num x) 16) 0xffff = num ((x >>> 16 &&& 0xffff).setWidth 16) ∧
      land (num x) 0xffff = num ((x &&& 0xffff).setWidth 16) := by
  have hmask (y : BitVec w) : (y &&& 0xffff).toNat = y.toNat % 65536 :=
    toNat_and_mask y 16 (by omega)
  have hushr : ushr (num x) 16 = num x / 65536 := by
    have h16 : (toBits 16).toNat % 32 = 16 := by decide
    rw [ushr, toBits_num, h16]
    simp only [num, BitVec.toNat_ushiftRight, BitVec.toNat_setWidth, Nat.mod_eq_of_lt hx,
      Nat.shiftRight_eq_div_pow]
    norm_cast
  constructor
  · rw [hushr, land_ffff]
    simp only [num, BitVec.toNat_setWidth, hmask, BitVec.toNat_ushiftRight,
      Nat.shiftRight_eq_div_pow]
    omega
  · rw [land_ffff]
    simp only [num, BitVec.toNat_setWidth, hmask]
    omega

variable (e : Bool)

/-- The borrow or carry bit of a double-word or decimal operation. -/
theorem ofInt_bit (v : Nat) :
    BitVec.ofInt v (if e = true then 1 else 0) = if e = true then 1 else 0 := by
  cases e <;> simp

theorem bit_bounds : (0 : Int) ≤ (if e = true then 1 else 0) ∧
    (if e = true then 1 else 0 : Int) ≤ 1 := by
  cases e <;> decide

/-- The difference of SD. -/
theorem sd_num (r0 r1 mh ml : U16) :
    ∃ d : Int, num r0 * 65536 + num r1 - (num mh * 65536 + num ml) -
        (if e = true then 1 else 0) = d ∧
      (r0.setWidth 64 * 65536 + r1.setWidth 64 - (mh.setWidth 64 * 65536 + ml.setWidth 64) -
        (if e = true then 1 else 0) : BitVec 64) = BitVec.ofInt 64 d ∧
      -4294967296 ≤ d ∧ d < 4294967296 := by
  have he := bit_bounds e
  have h0 := r0.isLt
  have h1 := r1.isLt
  have h2 := mh.isLt
  have h3 := ml.isLt
  refine ⟨_, rfl, ?_, ?_, ?_⟩
  · simp [ofInt_sub', BitVec.ofInt_add, BitVec.ofInt_mul, ofInt_num', ofInt_bit]
  · simp only [num]
    omega
  · simp only [num]
    omega

theorem num_ofInt_of_lt {v : Nat} {d : Int} (h0 : 0 ≤ d) (h1 : d < 4294967296) (hv : 32 ≤ v) :
    num (BitVec.ofInt v d) = d := by
  have hpow : (2 : Int) ^ 32 ≤ 2 ^ v := by
    exact_mod_cast Nat.pow_le_pow_right (by decide) hv
  exact num_ofInt h0 (lt_of_lt_of_le h1 hpow)

/-- The stored difference of SD, borrowed back into 32 bits. -/
theorem sd_stored {d : Int} (h0 : -4294967296 ≤ d) (h1 : d < 4294967296) :
    ((BitVec.ofInt 64 d).slt 0 = true ↔ d < 0) ∧
      (if d < 0 then d + 0x100000000 else d) =
        num (if (BitVec.ofInt 64 d).slt 0 = true then BitVec.ofInt 64 d + 0x100000000
          else BitVec.ofInt 64 d) ∧
      (if (BitVec.ofInt 64 d).slt 0 = true then BitVec.ofInt 64 d + 0x100000000
          else BitVec.ofInt 64 d).toNat < 2 ^ 32 := by
  have hslt : (BitVec.ofInt 64 d).slt 0 = true ↔ d < 0 :=
    slt_zero_ofInt64 (by omega) (by omega)
  refine ⟨hslt, ?_⟩
  by_cases hd : d < 0
  · have hadd : BitVec.ofInt 64 d + 0x100000000 = BitVec.ofInt 64 (d + 4294967296) := by
      rw [BitVec.ofInt_add]
      rfl
    have hval : num (BitVec.ofInt 64 (d + 4294967296)) = d + 4294967296 :=
      num_ofInt_of_lt (by omega) (by omega) (by decide)
    rw [if_pos hd, if_pos (hslt.mpr hd), hadd]
    refine ⟨hval.symm, ?_⟩
    simp only [num] at hval
    omega
  · have hval : num (BitVec.ofInt 64 d) = d := num_ofInt_of_lt (by omega) h1 (by decide)
    rw [if_neg hd, if_neg (mt hslt.mp hd)]
    refine ⟨hval.symm, ?_⟩
    simp only [num] at hval
    omega

/-- The sum of AD. -/
theorem ad_num (r0 r1 mh ml : U16) :
    ∃ d : Int, num r0 * 65536 + num r1 + (num mh * 65536 + num ml) +
        (if e = true then 1 else 0) = d ∧
      (r0.setWidth 64 * 65536 + r1.setWidth 64 + (mh.setWidth 64 * 65536 + ml.setWidth 64) +
        (if e = true then 1 else 0) : BitVec 64) = BitVec.ofInt 64 d ∧
      0 ≤ d ∧ d < 8589934592 := by
  have he := bit_bounds e
  have h0 := r0.isLt
  have h1 := r1.isLt
  have h2 := mh.isLt
  have h3 := ml.isLt
  refine ⟨_, rfl, ?_, ?_, ?_⟩
  · simp [BitVec.ofInt_add, BitVec.ofInt_mul, ofInt_num', ofInt_bit]
  · simp only [num]
    omega
  · simp only [num]
    omega

/-- The carry and the stored sum of AD. -/
theorem ad_stored {d : Int} (h0 : 0 ≤ d) (h1 : d < 8589934592) :
    (d > 0xffffffff ↔ BitVec.ofInt 64 d > 0xffffffff) ∧
      ushr d 0 = num ((BitVec.ofInt 64 d).setWidth 32) := by
  constructor
  · have hval : num (BitVec.ofInt 64 d) = d := num_ofInt h0 (by omega)
    rw [gt_iff_lt, gt_iff_lt, ← hval, ofNat_lt_num _ _ (by decide), ofInt_num]
    rfl
  · rw [ushr_zero, setWidth_ofInt (by decide)]
    rfl

/-- The result of DAS with its two decimal corrections. -/
theorem das_num (r0 m : U16) :
    let b : Int := if e = true then 1 else 0
    let b' : U32 := if e = true then 1 else 0
    let res := num r0 - num m - b
    let res1 := if land (num r0) 0xf - land (num m) 0xf - b < 0 then res - 0x06 else res
    let res2 := if land (ushr (num r0) 4) 0xf - land (ushr (num m) 4) 0xf < 0 then res1 - 0x60
      else res1
    let resW : U32 := r0.setWidth 32 - m.setWidth 32 - b'
    let resW1 := if ((r0 &&& 0xf).setWidth 32 - (m &&& 0xf).setWidth 32 - b').slt 0 then
      resW - 0x06 else resW
    let resW2 :=
      if ((r0 >>> 4 &&& 0xf).setWidth 32 - (m >>> 4 &&& 0xf).setWidth 32 : U32).slt 0 then
        resW1 - 0x60 else resW1
    (res < 0 ↔ resW.slt 0 = true) ∧ land res2 0xffff = num (resW2.setWidth 16) := by
  intro b b' res res1 res2 resW resW1 resW2
  have he := bit_bounds e
  have hb : BitVec.ofInt 32 b = b' := ofInt_bit e 32
  have h0 := r0.isLt
  have h1 := m.isLt
  have hres : resW = BitVec.ofInt 32 res := by
    simp only [res, resW, ofInt_sub', ofInt_num', hb]
  have hlow (x : U16) : land (num x) 0xf = num (x &&& 0xf) := by simp
  have hlow_lt (x : U16) : (x &&& 0xf).toNat < 16 := nibble_lt x 0
  have hushr (x : U16) : ushr (num x) 4 = num (x >>> 4) := ushr_ofNat x 4 (by decide) (by decide)
  have hc1 : land (num r0) 0xf - land (num m) 0xf - b < 0 ↔
      ((r0 &&& 0xf).setWidth 32 - (m &&& 0xf).setWidth 32 - b').slt 0 = true := by
    have hx := hlow_lt r0
    have hy := hlow_lt m
    rw [hlow, hlow, ← hb, ← ofInt_num', ← ofInt_num', ← ofInt_sub', ← ofInt_sub',
      slt_zero_ofInt32 (by simp only [num, b]; omega) (by simp only [num, b]; omega)]
  have hc2 : land (ushr (num r0) 4) 0xf - land (ushr (num m) 4) 0xf < 0 ↔
      ((r0 >>> 4 &&& 0xf).setWidth 32 - (m >>> 4 &&& 0xf).setWidth 32 : U32).slt 0 = true := by
    have hx := nibble_lt r0 4
    have hy := nibble_lt m 4
    rw [hushr, hushr, hlow, hlow, ← ofInt_num', ← ofInt_num', ← ofInt_sub',
      slt_zero_ofInt32 (by simp only [num]; omega) (by simp only [num]; omega)]
  have hres1 : resW1 = BitVec.ofInt 32 res1 := by
    simp only [res1, resW1, hc1, hres]
    split_ifs
    · exact (ofInt_sub' 32 res 6).symm
    · rfl
  have hres2 : resW2 = BitVec.ofInt 32 res2 := by
    simp only [res2, resW2, hc2, hres1]
    split_ifs
    · exact (ofInt_sub' 32 res1 96).symm
    · rfl
  constructor
  · rw [hres, slt_zero_ofInt32 (by simp only [num, res, b]; omega)
      (by simp only [num, res, b]; omega)]
  · rw [hres2, setWidth_ofInt (by decide), land_word]

theorem num_add32 (x y : U32) (h : x.toNat + y.toNat < 2 ^ 32) : num x + num y = num (x + y) := by
  simp only [num, BitVec.toNat_add, Nat.mod_eq_of_lt h]
  norm_cast

/-- The result of DAA with its two decimal corrections. -/
theorem daa_num (r0 m : U16) :
    let b : Int := if e = true then 1 else 0
    let b' : U32 := if e = true then 1 else 0
    let res := num r0 + num m + b
    let res1 := if land (num r0) 0xf + land (num m) 0xf + b > 9 then res + 0x06 else res
    let res2 := if land (ushr res1 8) 0xff > 0x99 then res1 + 0x0600 else res1
    let resW : U32 := r0.setWidth 32 + m.setWidth 32 + b'
    let resW1 := if (r0 &&& 0xf).setWidth 32 + (m &&& 0xf).setWidth 32 + b' > 9 then
      resW + 0x06 else resW
    let resW2 := if (resW1 >>> 8) &&& 0xff > 0x99 then resW1 + 0x0600 else resW1
    (res > 0xffff ↔ resW > 0xffff) ∧ land res2 0xffff = num ((resW2 &&& 0xffff).setWidth 16) := by
  intro b b' res res1 res2 resW resW1 resW2
  have hb : b = num b' := by
    simp only [b, b']
    cases e <;> rfl
  have hb1 : b'.toNat ≤ 1 := by
    simp only [b']
    cases e <;> decide
  have h0 := r0.isLt
  have h1 := m.isLt
  have hwide (x : U16) : num x = num (x.setWidth 32 : U32) := (num_setWidth x (by decide)).symm
  have hwide_nat (x : U16) : (x.setWidth 32 : U32).toNat = x.toNat := by
    rw [BitVec.toNat_setWidth]
    omega
  have hlow (x : U16) : land (num x) 0xf = num (x &&& 0xf) := by simp
  have hlow_lt (x : U16) : (x &&& 0xf).toNat < 16 := nibble_lt x 0
  have hsum (x y : U16) : num x + num y + num b' = num (x.setWidth 32 + y.setWidth 32 + b') := by
    have hx := x.isLt
    have hy := y.isLt
    have hxy : (x.setWidth 32 + y.setWidth 32 : U32).toNat = x.toNat + y.toNat := by
      rw [BitVec.toNat_add, hwide_nat, hwide_nat]
      omega
    rw [hwide x, hwide y, num_add32 _ _ (by rw [hwide_nat, hwide_nat]; omega),
      num_add32 _ _ (by omega)]
  have hres : res = num resW := by
    simp only [res, resW, hb, hsum]
  have hresW : resW.toNat < 131073 := by
    have h := congrArg Int.toNat hres
    simp only [toNat_num, res, b] at h
    have := bit_bounds e
    simp only [num] at h
    omega
  have hres1 : res1 = num resW1 ∧ resW1.toNat < 131079 := by
    have hc : land (num r0) 0xf + land (num m) 0xf + b > 9 ↔
        (r0 &&& 0xf).setWidth 32 + (m &&& 0xf).setWidth 32 + b' > 9 := by
      rw [hlow, hlow, hb, hsum, gt_iff_lt, gt_iff_lt, ofNat_lt_num _ _ (by decide)]
      rfl
    simp only [res1, resW1, hc]
    split_ifs
    · have h6 : (6 : Int) = num (6 : U32) := rfl
      have h6' : (6 : U32).toNat = 6 := rfl
      rw [hres, h6, num_add32 _ _ (by omega), BitVec.toNat_add]
      exact ⟨rfl, by omega⟩
    · exact ⟨hres, by omega⟩
  have hres2 : res2 = num resW2 := by
    have hc : land (ushr res1 8) 0xff > 0x99 ↔ (resW1 >>> 8) &&& 0xff > 0x99 := by
      rw [hres1.1, ushr_ofNat _ 8 (by decide) (by decide),
        land_ofNat _ 255 (by decide) (by decide) (by decide), gt_iff_lt, gt_iff_lt,
        ofNat_lt_num _ _ (by decide)]
      rfl
    simp only [res2, resW2, hc]
    split_ifs
    · have h6 : (0x0600 : Int) = num (0x0600 : U32) := rfl
      have h6' : (0x0600 : U32).toNat = 0x0600 := rfl
      have hlt := hres1.2
      rw [hres1.1, h6, num_add32 _ _ (by omega)]
    · exact hres1.1
  constructor
  · rw [hres, gt_iff_lt, gt_iff_lt, ofNat_lt_num _ _ (by decide)]
    rfl
  · have hmask : (resW2 &&& 0xffff).toNat = resW2.toNat % 65536 := toNat_and_mask resW2 16 (by decide)
    rw [hres2, land_ffff]
    simp only [num, BitVec.toNat_setWidth, hmask]
    omega

end Arithmetic

end WordOps
end Mn1613
end RetroCpu
