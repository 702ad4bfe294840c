import Mathlib.Data.Nat.Bitwise
import Mathlib.Tactic.Ring

/-!
# Integer-valued JavaScript numbers and their bitwise operators

A JavaScript number that holds an integer is modelled by an unbounded `Int`.
The bitwise operators first convert their operands with `ToInt32`, work on 32
bits and read the result back as a signed 32-bit integer; only `>>>` reads it
back unsigned.  This module defines these operators and relates them to
fixed-width unsigned words:

* `num` reads a bit vector as the number with the same unsigned value;
* on arguments of the form `num x` every operator is the bit-vector operator of
  the same meaning (`land_num`, `lor_num`, `lxor_num`, `ushr_num`, ...);
* on an arbitrary number `land x (2 ^ k - 1)` is the remainder modulo `2 ^ k`
  (`land_mask`), which is how a program brings a sum, a difference or a product
  back into a word.
-/

namespace RetroCpu
namespace Js

/-- `ToInt32`, as a 32-bit vector. -/
def toBits (x : Int) : BitVec 32 := BitVec.ofInt 32 x

/-- `x & y` -/
def land (x y : Int) : Int := (toBits x &&& toBits y).toInt

/-- `x | y` -/
def lor (x y : Int) : Int := (toBits x ||| toBits y).toInt

/-- `x ^ y` -/
def lxor (x y : Int) : Int := (toBits x ^^^ toBits y).toInt

/-- `~x` -/
def lnot (x : Int) : Int := (~~~ toBits x).toInt

/-- `x << n`; the shift count is taken modulo 32. -/
def shl (x n : Int) : Int := (toBits x <<< ((toBits n).toNat % 32)).toInt

/-- `x >>> n`; the shift count is taken modulo 32. -/
def ushr (x n : Int) : Int := ((toBits x >>> ((toBits n).toNat % 32)).toNat : Int)

/-- A fixed-width unsigned word read as a number. -/
def num {w : Nat} (x : BitVec w) : Int := (x.toNat : Int)

section Num

variable {w : Nat}

@[simp] theorem num_inj {x y : BitVec w} : num x = num y ↔ x = y := by
  simp [num, BitVec.toNat_inj]

theorem num_nonneg (x : BitVec w) : 0 ≤ num x := by simp [num]

theorem num_lt (x : BitVec w) : num x < 2 ^ w := by
  have := x.isLt
  simp only [num]
  exact_mod_cast this

/-- Every number below `2 ^ w` is the value of a word. -/
theorem num_ofInt {x : Int} (h0 : 0 ≤ x) (h : x < 2 ^ w) : num (BitVec.ofInt w x) = x := by
  have hx : x % ((2 ^ w : Nat) : Int) = x := Int.emod_eq_of_lt h0 (by exact_mod_cast h)
  simp only [num, BitVec.toNat_ofInt, hx, Int.toNat_of_nonneg h0]

theorem ofInt_num (x : BitVec w) : BitVec.ofInt w (num x) = x := by
  apply BitVec.eq_of_toNat_eq
  simp [num]

@[simp] theorem toNat_num (x : BitVec w) : (num x).toNat = x.toNat := by simp [num]

@[simp] theorem num_ofNat {n : Nat} (h : n < 2 ^ w) : num (BitVec.ofNat w n) = (n : Int) := by
  simp [num, Nat.mod_eq_of_lt h]

/-- A number literal is the value of the word literal. -/
theorem lit_eq_num (w n : Nat) (h : n < 2 ^ w) :
    (OfNat.ofNat n : Int) = num (BitVec.ofNat w n) := by
  rw [num_ofNat h]
  rfl

/-- Widening a word does not change its value. -/
theorem num_setWidth {v : Nat} (x : BitVec w) (h : w ≤ v) :
    num (x.setWidth v) = num x := by
  have hx : x.toNat < 2 ^ v := lt_of_lt_of_le x.isLt (Nat.pow_le_pow_right (by decide) h)
  simp [num, Nat.mod_eq_of_lt hx]

theorem toBits_num (x : BitVec w) : toBits (num x) = x.setWidth 32 := by
  apply BitVec.eq_of_toNat_eq
  simp [toBits, num, BitVec.toNat_setWidth]

/-- A 32-bit result whose top bit is clear is read back unchanged. -/
theorem toInt_setWidth (x : BitVec w) (h : w ≤ 31) : (x.setWidth 32).toInt = num x := by
  have hx : x.toNat < 2 ^ 31 := lt_of_lt_of_le x.isLt (Nat.pow_le_pow_right (by decide) h)
  have hx' : x.toNat < 2 ^ 32 := lt_trans hx (by decide)
  rw [BitVec.toInt_eq_toNat_of_lt]
  · simp only [num, BitVec.toNat_setWidth, Nat.mod_eq_of_lt hx']
  · simp only [BitVec.toNat_setWidth, Nat.mod_eq_of_lt hx']
    omega

@[simp] theorem land_num (x y : BitVec w) (h : w ≤ 31) :
    land (num x) (num y) = num (x &&& y) := by
  rw [land, toBits_num, toBits_num, ← BitVec.setWidth_and, toInt_setWidth _ h]

@[simp] theorem lor_num (x y : BitVec w) (h : w ≤ 31) :
    lor (num x) (num y) = num (x ||| y) := by
  rw [lor, toBits_num, toBits_num, ← BitVec.setWidth_or, toInt_setWidth _ h]

@[simp] theorem lxor_num (x y : BitVec w) (h : w ≤ 31) :
    lxor (num x) (num y) = num (x ^^^ y) := by
  rw [lxor, toBits_num, toBits_num, ← BitVec.setWidth_xor, toInt_setWidth _ h]

theorem toBits_toInt (x : BitVec 32) : toBits x.toInt = x := by
  rw [toBits, BitVec.ofInt_toInt]

@[simp] theorem land_lnot_num (x y : BitVec w) (h : w ≤ 31) :
    land (num x) (lnot (num y)) = num (x &&& ~~~y) := by
  have hxy : x.setWidth 32 &&& ~~~(y.setWidth 32) = (x &&& ~~~y).setWidth 32 := by
    apply BitVec.eq_of_getLsbD_eq
    intro i hi
    by_cases hw : i < w
    · simp [hi, hw]
    · simp [hi, BitVec.getLsbD_of_ge x i (by omega)]
  rw [land, lnot, toBits_num, toBits_toInt, toBits_num, hxy, toInt_setWidth _ h]

theorem toBits_ofNat (n : Nat) : toBits (OfNat.ofNat n : Int) = BitVec.ofNat 32 n := by
  apply BitVec.eq_of_toNat_eq
  simp only [toBits, BitVec.toNat_ofInt, BitVec.toNat_ofNat]
  show ((n : Int) % _).toNat = _
  omega

@[simp] theorem ushr_ofNat (x : BitVec w) (n : Nat) (h : w ≤ 32) (hn : n < 32) :
    ushr (num x) (no_index (OfNat.ofNat n)) = num (x >>> n) := by
  have hx : x.toNat < 2 ^ 32 := lt_of_lt_of_le x.isLt (Nat.pow_le_pow_right (by decide) h)
  have hn' : n < 2 ^ 32 := by omega
  rw [ushr, toBits_ofNat, toBits_num]
  simp only [num, BitVec.toNat_ushiftRight, BitVec.toNat_setWidth, BitVec.toNat_ofNat,
    Nat.mod_eq_of_lt hx, Nat.mod_eq_of_lt hn', Nat.mod_eq_of_lt hn]

/-- A left shift that stays below the sign bit multiplies. -/
theorem shl_ofNat (x : BitVec w) (n : Nat) (hn : n < 32) (hx : num x * 2 ^ n < 2 ^ 31) :
    shl (num x) (no_index (OfNat.ofNat n)) = num x * 2 ^ n := by
  have hx' : x.toNat * 2 ^ n < 2 ^ 31 := by
    simp only [num] at hx
    exact_mod_cast hx
  have hlt : x.toNat < 2 ^ 31 := lt_of_le_of_lt (Nat.le_mul_of_pos_right _ (Nat.two_pow_pos n)) hx'
  have hval : (x.setWidth 32 <<< n).toNat = x.toNat * 2 ^ n := by
    rw [BitVec.toNat_shiftLeft, BitVec.toNat_setWidth,
      Nat.mod_eq_of_lt (show x.toNat < 2 ^ 32 by omega), Nat.shiftLeft_eq,
      Nat.mod_eq_of_lt (by omega)]
  have hn' : n % 2 ^ 32 = n := Nat.mod_eq_of_lt (by omega)
  rw [shl, toBits_num, toBits_ofNat, BitVec.toNat_ofNat, hn', Nat.mod_eq_of_lt hn,
    BitVec.toInt_eq_toNat_of_lt (by omega), hval]
  simp [num]

@[simp] theorem land_ofNat (x : BitVec w) (m : Nat) (hw : w ≤ 32) (hm : m < 2 ^ w)
    (hm' : m < 2 ^ 31) :
    land (num x) (no_index (OfNat.ofNat m)) = num (x &&& BitVec.ofNat w m) := by
  have hx : x.toNat < 2 ^ 32 := lt_of_lt_of_le x.isLt (Nat.pow_le_pow_right (by decide) hw)
  have hle : x.toNat &&& m ≤ m := Nat.and_le_right
  have hval : (x.setWidth 32 &&& BitVec.ofNat 32 m).toNat = x.toNat &&& m := by
    simp only [BitVec.toNat_and, BitVec.toNat_setWidth, BitVec.toNat_ofNat,
      Nat.mod_eq_of_lt hx, Nat.mod_eq_of_lt (show m < 2 ^ 32 by omega)]
  rw [land, toBits_num, toBits_ofNat, BitVec.toInt_eq_toNat_of_lt (by omega), hval]
  simp only [num, BitVec.toNat_and, BitVec.toNat_ofNat, Nat.mod_eq_of_lt hm]

@[simp] theorem lor_ofNat (x : BitVec w) (m : Nat) (hw : w ≤ 31) (hm : m < 2 ^ w) :
    lor (num x) (no_index (OfNat.ofNat m)) = num (x ||| BitVec.ofNat w m) := by
  rw [lit_eq_num w m hm, lor_num _ _ hw]

@[simp] theorem num_eq_ofNat (x : BitVec w) (m : Nat) (hm : m < 2 ^ w) :
    num x = (no_index (OfNat.ofNat m)) ↔ x = BitVec.ofNat w m := by
  rw [lit_eq_num w m hm, num_inj]

@[simp] theorem ofNat_le_num (x : BitVec w) (m : Nat) (hm : m < 2 ^ w) :
    (no_index (OfNat.ofNat m)) ≤ num x ↔ BitVec.ofNat w m ≤ x := by
  rw [BitVec.le_def, BitVec.toNat_ofNat, Nat.mod_eq_of_lt hm]
  exact Int.ofNat_le

@[simp] theorem num_le_ofNat (x : BitVec w) (m : Nat) (hm : m < 2 ^ w) :
    num x ≤ (no_index (OfNat.ofNat m)) ↔ x ≤ BitVec.ofNat w m := by
  rw [BitVec.le_def, BitVec.toNat_ofNat, Nat.mod_eq_of_lt hm]
  exact Int.ofNat_le

@[simp] theorem num_lt_ofNat (x : BitVec w) (m : Nat) (hm : m < 2 ^ w) :
    num x < (no_index (OfNat.ofNat m)) ↔ x < BitVec.ofNat w m := by
  rw [BitVec.lt_def, BitVec.toNat_ofNat, Nat.mod_eq_of_lt hm]
  exact Int.ofNat_lt

@[simp] theorem ofNat_lt_num (x : BitVec w) (m : Nat) (hm : m < 2 ^ w) :
    (no_index (OfNat.ofNat m)) < num x ↔ BitVec.ofNat w m < x := by
  rw [BitVec.lt_def, BitVec.toNat_ofNat, Nat.mod_eq_of_lt hm]
  exact Int.ofNat_lt

end Num

section Mask

/-- Masking with `2 ^ k - 1` is reduction modulo `2 ^ k`, for negative numbers too. -/
theorem land_mask (x : Int) {k : Nat} (hk : k ≤ 31) :
    land x ((2 ^ k - 1 : Nat) : Int) = x % ((2 ^ k : Nat) : Int) := by
  have hpow : (2 : Nat) ^ k ≤ 2 ^ 31 := Nat.pow_le_pow_right (by decide) hk
  have hpos : 0 < (2 : Nat) ^ k := Nat.two_pow_pos k
  have hk0 : (0 : Int) ≤ x % ((2 ^ k : Nat) : Int) := Int.emod_nonneg _ (by omega)
  have hlt : x % ((2 ^ k : Nat) : Int) < ((2 ^ k : Nat) : Int) :=
    Int.emod_lt_of_pos _ (by omega)
  have hdvd : ((2 ^ k : Nat) : Int) ∣ ((2 ^ 32 : Nat) : Int) := by
    exact_mod_cast Nat.pow_dvd_pow 2 (by omega)
  have hmask : (toBits ((2 ^ k - 1 : Nat) : Int)).toNat = 2 ^ k - 1 := by
    rw [toBits, BitVec.ofInt_natCast, BitVec.toNat_ofNat]
    exact Nat.mod_eq_of_lt (by omega)
  have hval : (toBits x &&& toBits ((2 ^ k - 1 : Nat) : Int)).toNat =
      (x % ((2 ^ k : Nat) : Int)).toNat := by
    have h32 : (0 : Int) ≤ x % ((2 ^ 32 : Nat) : Int) := Int.emod_nonneg _ (by decide)
    rw [BitVec.toNat_and, hmask, Nat.and_two_pow_sub_one_eq_mod, toBits, BitVec.toNat_ofInt,
      ← Int.emod_emod_of_dvd x hdvd, Int.toNat_emod h32 (by omega), Int.toNat_natCast]
  rw [land, BitVec.toInt_eq_toNat_of_lt (by omega), hval, Int.toNat_of_nonneg hk0]

theorem land_f (x : Int) : land x 0xf = x % 16 := land_mask x (k := 4) (by decide)
theorem land_ff (x : Int) : land x 0xff = x % 256 := land_mask x (k := 8) (by decide)
theorem land_ffff (x : Int) : land x 0xffff = x % 65536 := land_mask x (k := 16) (by decide)
theorem land_3ffff (x : Int) : land x 0x3ffff = x % 262144 := land_mask x (k := 18) (by decide)

end Mask

section Fields

variable {x y : Int}

theorem exists_num (h0 : 0 ≤ x) (h : x < 2 ^ 31) : ∃ b : BitVec 31, num b = x :=
  ⟨BitVec.ofInt 31 x, num_ofInt h0 h⟩

/-- A right shift of a number that fits divides. -/
theorem ushr_div (n : Nat) (hn : n < 32) (h0 : 0 ≤ x) (h : x < 2 ^ 31) :
    ushr x (no_index (OfNat.ofNat n)) = x / 2 ^ n := by
  obtain ⟨b, rfl⟩ := exists_num h0 h
  rw [ushr_ofNat b n (by decide) hn]
  simp only [num, BitVec.toNat_ushiftRight, Nat.shiftRight_eq_div_pow]
  exact_mod_cast rfl

/-- A left shift of a number that fits multiplies. -/
theorem shl_mul (n : Nat) (hn : n < 32) (h0 : 0 ≤ x) (h : x * 2 ^ n < 2 ^ 31) :
    shl x (no_index (OfNat.ofNat n)) = x * 2 ^ n := by
  have hpos : (1 : Int) ≤ 2 ^ n := by exact_mod_cast Nat.one_le_two_pow
  have hle : x * 1 ≤ x * 2 ^ n := Int.mul_le_mul_of_nonneg_left hpos h0
  obtain ⟨b, rfl⟩ := exists_num h0 (by omega)
  exact shl_ofNat b n hn h

/-- Fields that do not overlap are joined by addition. -/
theorem lor_add (n : Nat) (hx0 : 0 ≤ x) (hx : x < 2 ^ 31) (hdvd : x % 2 ^ n = 0)
    (hy0 : 0 ≤ y) (hy : y < 2 ^ n) (hn : n ≤ 31) : lor x y = x + y := by
  have hpow : (2 : Int) ^ n ≤ 2 ^ 31 := by
    exact_mod_cast Nat.pow_le_pow_right (by decide) hn
  obtain ⟨a, rfl⟩ := exists_num hx0 hx
  obtain ⟨b, rfl⟩ := exists_num hy0 (by omega)
  rw [lor_num a b (by decide)]
  have hdvd' : 2 ^ n ∣ a.toNat := by
    have h := Int.dvd_of_emod_eq_zero hdvd
    simp only [num] at h
    exact_mod_cast h
  have hlt : b.toNat < 2 ^ n := by
    simp only [num] at hy
    exact_mod_cast hy
  obtain ⟨q, hq⟩ := hdvd'
  simp only [num, BitVec.toNat_or, hq]
  rw [← Nat.two_pow_add_eq_or_of_lt hlt q]
  exact_mod_cast rfl

end Fields

section Wrap

/-- Bringing a sum or a difference back into a word is wrapping arithmetic. -/
theorem emod_eq_num (x : Int) : x % 65536 = num (BitVec.ofInt 16 x) := by
  have h0 : 0 ≤ x % 65536 := Int.emod_nonneg _ (by decide)
  simp only [num, BitVec.toNat_ofInt]
  show _ = ((x % 65536).toNat : Int)
  omega

theorem land_word (x : Int) : land x 0xffff = num (BitVec.ofInt 16 x) := by
  rw [land_ffff, emod_eq_num]

variable (x y : BitVec 16)

@[simp] theorem and_ffff : x &&& 65535#16 = x := by
  rw [show 65535#16 = BitVec.allOnes 16 by decide, BitVec.and_allOnes]

@[simp] theorem land_ffff_num : land (num x) 0xffff = num x := by
  rw [land_word, ofInt_num]

@[simp] theorem land_add_num : land (num x + num y) 0xffff = num (x + y) := by
  rw [land_word, BitVec.ofInt_add, ofInt_num, ofInt_num]

@[simp] theorem land_sub_num : land (num x - num y) 0xffff = num (x - y) := by
  rw [land_word, Int.sub_eq_add_neg, BitVec.ofInt_add, BitVec.ofInt_neg, ofInt_num, ofInt_num,
    BitVec.sub_eq_add_neg]

@[simp] theorem land_add_ofNat (m : Nat) (hm : m < 2 ^ 16) :
    land (num x + (no_index (OfNat.ofNat m))) 0xffff = num (x + BitVec.ofNat 16 m) := by
  rw [lit_eq_num 16 m hm, land_add_num]

@[simp] theorem land_sub_ofNat (m : Nat) (hm : m < 2 ^ 16) :
    land (num x - (no_index (OfNat.ofNat m))) 0xffff = num (x - BitVec.ofNat 16 m) := by
  rw [lit_eq_num 16 m hm, land_sub_num]

end Wrap

section Bits

variable (x y : Int)

@[simp] theorem toBits_land : toBits (land x y) = toBits x &&& toBits y := toBits_toInt _

@[simp] theorem toBits_lor : toBits (lor x y) = toBits x ||| toBits y := toBits_toInt _

@[simp] theorem toBits_lxor : toBits (lxor x y) = toBits x ^^^ toBits y := toBits_toInt _

@[simp] theorem toBits_lnot : toBits (lnot x) = ~~~toBits x := toBits_toInt _

@[simp] theorem toBits_add : toBits (x + y) = toBits x + toBits y :=
  BitVec.ofInt_add x y

@[simp] theorem toBits_sub : toBits (x - y) = toBits x - toBits y := by
  rw [toBits, Int.sub_eq_add_neg, BitVec.ofInt_add, BitVec.ofInt_neg, ← BitVec.sub_eq_add_neg]
  rfl

/-- The bits of a number. -/
theorem toBits_getLsbD {k : Nat} (hk : k < 32) :
    (toBits x).getLsbD k = decide (x / 2 ^ k % 2 = 1) := by
  have hmod : ((x % ((2 ^ 32 : Nat) : Int)).toNat : Int) = x % 2 ^ 32 := by omega
  have hcast : ((x % ((2 ^ 32 : Nat) : Int)).toNat / 2 ^ k % 2 = 1) ↔
      x % 2 ^ 32 / 2 ^ k % 2 = 1 := by
    rw [← hmod]
    norm_cast
  have hpow : (2 : Int) ^ 32 = 2 ^ k * (2 * 2 ^ (31 - k)) := by
    rw [← pow_succ', ← pow_add]
    congr 1
    omega
  have hpos : (2 : Int) ^ k ≠ 0 := by
    have h := Nat.two_pow_pos k
    exact_mod_cast h.ne'
  -- above its lower 32 bits the number contributes an even quotient
  have hdiv : x / 2 ^ k = 2 * (2 ^ (31 - k) * (x / 2 ^ 32)) + x % 2 ^ 32 / 2 ^ k := by
    have hx := Int.mul_ediv_add_emod x (2 ^ 32)
    conv_lhs => rw [← hx, hpow]
    rw [mul_assoc, add_comm, Int.add_mul_ediv_left _ _ hpos, ← hpow]
    ring
  rw [BitVec.getLsbD, Nat.testBit_eq_decide_div_mod_eq, toBits, BitVec.toNat_ofInt]
  apply decide_eq_decide.mpr
  rw [hcast, hdiv]
  omega

/-- Testing one bit. -/
theorem land_bit_ne_zero {k : Nat} (hk : k < 31) :
    land x ((2 ^ k : Nat) : Int) ≠ 0 ↔ (toBits x).getLsbD k = true := by
  have hlit : toBits ((2 ^ k : Nat) : Int) = BitVec.twoPow 32 k := by
    apply BitVec.eq_of_toNat_eq
    rw [toBits, BitVec.ofInt_natCast, BitVec.toNat_ofNat, BitVec.toNat_twoPow]
  have hlt : (2 : Nat) ^ k < 2 ^ 31 := Nat.pow_lt_pow_right (by decide) hk
  rw [land, hlit, BitVec.and_twoPow]
  cases h : (toBits x).getLsbD k with
  | false => simp
  | true =>
      have hval : (BitVec.twoPow 32 k).toNat = 2 ^ k := by
        rw [BitVec.toNat_twoPow, Nat.mod_eq_of_lt (by omega)]
      have hpos := Nat.two_pow_pos k
      rw [if_pos rfl, BitVec.toInt_eq_toNat_of_lt (by omega), hval]
      simp

/-- Testing the sign bit of a 16-bit word. -/
theorem land_sign_ne_zero : land x 0x8000 ≠ 0 ↔ (toBits x).getLsbD 15 = true := by
  have hlit : toBits 0x8000 = BitVec.twoPow 32 15 := by decide
  rw [land, hlit, BitVec.and_twoPow]
  cases h : (toBits x).getLsbD 15
  · simp
  · simp [BitVec.twoPow]

theorem and_sign_ne_zero (v : BitVec 16) : v &&& 0x8000 ≠ 0 ↔ v.getLsbD 15 = true := by
  have hlit : (0x8000 : BitVec 16) = BitVec.twoPow 16 15 := by decide
  rw [hlit, BitVec.and_twoPow]
  cases h : v.getLsbD 15
  · simp
  · simp [BitVec.twoPow]

end Bits

end Js
end RetroCpu
