import RetroCpu.EmuTs.Mn1613Nesting
import RetroCpu.Mn1613.Operands
import Mathlib.Tactic.LinearCombination

/-!
# Decimal addition and subtraction of the MN1613

DAA and DAS add and subtract words of four packed decimal digits.  The code computes the
binary sum or difference and corrects it: DAA the lowest digit, and digit 2 when the upper
byte exceeds 0x99; DAS the two lowest digits, digit 1 without regard to a borrow into it.
-/

namespace RetroCpu
namespace Mn1613

open Js Prog Carry
open EmuTs.Mn1613

section Digits

/-- Digit `i` of a packed word. -/
def nibble (x : Int) (i : Nat) : Int := x / 16 ^ i % 16

/-- A word of four decimal digits. -/
structure Packed (x : Int) : Prop where
  word : Within 0xffff x
  digit : ∀ i < 4, nibble x i ≤ 9

/-- The number that a packed word stands for. -/
def decimal (x : Int) : Int :=
  nibble x 0 + 10 * nibble x 1 + 100 * nibble x 2 + 1000 * nibble x 3

/-- The packed word of a number below 10000. -/
def pack (n : Int) : Int :=
  n % 10 + 16 * (n / 10 % 10) + 256 * (n / 100 % 10) + 4096 * (n / 1000 % 10)

/-- A decimal digit with the carry out of it. -/
structure Digit (q k : Int) : Prop where
  digit : 0 ≤ q ∧ q ≤ 9
  carry : k = 0 ∨ k = 1

/-- A sum of two digits and a carry. -/
theorem exists_digit {t : Int} (h0 : 0 ≤ t) (h : t ≤ 19) : ∃ q k, Digit q k ∧ t = q + 10 * k :=
  ⟨t % 10, t / 10, ⟨by omega, by omega⟩, by omega⟩

/-- A difference of two digits and a borrow. -/
theorem exists_digit_sub {t : Int} (h0 : -10 ≤ t) (h : t ≤ 9) :
    ∃ q k, Digit q k ∧ t = q - 10 * k :=
  ⟨t % 10, -(t / 10), ⟨by omega, by omega⟩, by omega⟩

variable {q₀ q₁ q₂ q₃ k : Int}

/-- The packed word of a number, from its digits. -/
theorem pack_digits (h₀ : 0 ≤ q₀ ∧ q₀ ≤ 9) (h₁ : 0 ≤ q₁ ∧ q₁ ≤ 9) (h₂ : 0 ≤ q₂ ∧ q₂ ≤ 9)
    (h₃ : 0 ≤ q₃ ∧ q₃ ≤ 9) :
    pack ((q₀ + 10 * q₁ + 100 * q₂ + 1000 * q₃ + 10000 * k) % 10000) =
      q₀ + 16 * q₁ + 256 * q₂ + 4096 * q₃ := by
  have hmod : (q₀ + 10 * q₁ + 100 * q₂ + 1000 * q₃ + 10000 * k) % 10000 =
      q₀ + 10 * q₁ + 100 * q₂ + 1000 * q₃ := by omega
  have h10 : (q₀ + 10 * q₁ + 100 * q₂ + 1000 * q₃) / 10 % 10 = q₁ := by omega
  have h100 : (q₀ + 10 * q₁ + 100 * q₂ + 1000 * q₃) / 100 % 10 = q₂ := by omega
  have h1000 : (q₀ + 10 * q₁ + 100 * q₂ + 1000 * q₃) / 1000 % 10 = q₃ := by omega
  rw [hmod, pack, h10, h100, h1000]
  omega

/-- The bounds of a packed word and of its number. -/
theorem digits_bounds (h₀ : 0 ≤ q₀ ∧ q₀ ≤ 9) (h₁ : 0 ≤ q₁ ∧ q₁ ≤ 9) (h₂ : 0 ≤ q₂ ∧ q₂ ≤ 9)
    (h₃ : 0 ≤ q₃ ∧ q₃ ≤ 9) :
    (0 ≤ q₀ + 16 * q₁ + 256 * q₂ + 4096 * q₃ ∧ q₀ + 16 * q₁ + 256 * q₂ + 4096 * q₃ ≤ 0x9999) ∧
      0 ≤ q₀ + 10 * q₁ + 100 * q₂ + 1000 * q₃ ∧ q₀ + 10 * q₁ + 100 * q₂ + 1000 * q₃ ≤ 9999 := by
  refine ⟨⟨?_, ?_⟩, ?_, ?_⟩
  all_goals omega

/-- A word is made of its digits. -/
theorem word_digits {x : Int} (h : Within 0xffff x) :
    x = nibble x 0 + 16 * nibble x 1 + 256 * nibble x 2 + 4096 * nibble x 3 := by
  obtain ⟨h0, h1⟩ := h
  simp only [nibble]
  omega

theorem nibble_nonneg (x : Int) (i : Nat) : 0 ≤ nibble x i := Int.emod_nonneg _ (by decide)

end Digits

section Corrections

variable {a b e : Int}

/-- The result of DAA before it is cut to a word. -/
def daaValue (a b e : Int) : Int :=
  let res := a + b + e
  let res := if nibble a 0 + nibble b 0 + e > 9 then res + 0x06 else res
  if res / 256 % 256 > 0x99 then res + 0x0600 else res

/-- The result of DAS before it is cut to a word. -/
def dasValue (a b e : Int) : Int :=
  let res := a - b - e
  let res := if nibble a 0 - nibble b 0 - e < 0 then res - 0x06 else res
  if nibble a 1 - nibble b 1 < 0 then res - 0x60 else res

/-- No digit of the sum but the lowest has a carry. -/
def DaaSound (a b e : Int) : Prop :=
  nibble a 1 + nibble b 1 + (if nibble a 0 + nibble b 0 + e > 9 then 1 else 0) ≤ 9 ∧
    nibble a 2 + nibble b 2 ≤ 9 ∧ nibble a 3 + nibble b 3 ≤ 9

/-- The digits 2 and 3 do not borrow, and digit 1 does not borrow for the borrow into it
alone. -/
def DasSound (a b e : Int) : Prop :=
  ¬ (nibble a 0 < nibble b 0 + e ∧ nibble a 1 = nibble b 1) ∧
    nibble b 2 + (if nibble a 1 < nibble b 1 then 1 else 0) ≤ nibble a 2 ∧
    nibble b 3 ≤ nibble a 3

instance (a b e : Int) : Decidable (DaaSound a b e) := inferInstanceAs (Decidable (_ ∧ _ ∧ _))

instance (a b e : Int) : Decidable (DasSound a b e) := inferInstanceAs (Decidable (_ ∧ _ ∧ _))

theorem bit_bounds {k : Int} (h : k = 0 ∨ k = 1) : 0 ≤ k ∧ k ≤ 1 := by
  rcases h with rfl | rfl
  · exact ⟨le_refl 0, by decide⟩
  · exact ⟨by decide, le_refl 1⟩

/-- The correction of DAA, for a sum with the packed digits `Q`, the value `D` modulo 10000
and the carries `k₀`..`k₃` out of its digits. -/
theorem daa_correction {Q D w k₀ k₁ k₂ k₃ : Int} (hQ : 0 ≤ Q ∧ Q ≤ 0x9999)
    (hD : 0 ≤ D ∧ D ≤ 9999) (hk₀ : k₀ = 0 ∨ k₀ = 1) (hk₁ : k₁ = 0 ∨ k₁ = 1)
    (hk₂ : k₂ = 0 ∨ k₂ = 1) (hk₃ : k₃ = 0 ∨ k₃ = 1)
    (hw : w = Q - 96 * k₁ - 1536 * k₂ + 40960 * k₃) (hpos : 0 ≤ w) :
    ((if w / 256 % 256 > 0x99 then w + 0x0600 else w) % 65536 = Q ∧
      (w - 6 * k₀ > 0xffff ↔ 10000 ≤ D + 10000 * k₃)) ↔ k₁ = 0 ∧ k₂ = 0 ∧ k₃ = 0 := by
  constructor
  · rintro ⟨hres, -⟩
    clear hk₀ hD
    rcases hk₁ with rfl | rfl <;> rcases hk₂ with rfl | rfl <;> rcases hk₃ with rfl | rfl
    all_goals
      split_ifs at hres with hhigh
      all_goals omega
  · rintro ⟨rfl, rfl, rfl⟩
    constructor
    · rw [if_neg (by omega)]
      omega
    · omega

/-- The correction of DAS, for the borrows `k₀`..`k₃` out of the digits of a difference, the
code correcting digit 1 for `j`. -/
theorem das_correction {Q D w k₀ k₁ k₂ k₃ j : Int} (hQ : 0 ≤ Q ∧ Q ≤ 0x9999)
    (hD : 0 ≤ D ∧ D ≤ 9999) (hk₀ : k₀ = 0 ∨ k₀ = 1) (hk₁ : k₁ = 0 ∨ k₁ = 1)
    (hk₂ : k₂ = 0 ∨ k₂ = 1) (hk₃ : k₃ = 0 ∨ k₃ = 1) (hj : j = 0 ∨ j = 1)
    (hw : w = Q + 96 * k₁ + 1536 * k₂ - 40960 * k₃) :
    ((w - 96 * j) % 65536 = Q ∧ (w + 6 * k₀ < 0 ↔ D - 10000 * k₃ < 0)) ↔
      k₁ = j ∧ k₂ = 0 ∧ k₃ = 0 := by
  constructor
  · rintro ⟨hres, -⟩
    replace hk₁ := bit_bounds hk₁
    replace hj := bit_bounds hj
    have hzero : 96 * (k₁ - j) + 1536 * k₂ - 40960 * k₃ = 0 := by
      replace hk₂ := bit_bounds hk₂
      replace hk₃ := bit_bounds hk₃
      have hsmall : -65536 < 96 * (k₁ - j) + 1536 * k₂ - 40960 * k₃ ∧
          96 * (k₁ - j) + 1536 * k₂ - 40960 * k₃ < 65536 := by
        clear hres hw hD hQ hk₀
        constructor <;> omega
      have hmod : w - 96 * j = Q + (96 * (k₁ - j) + 1536 * k₂ - 40960 * k₃) := by
        rw [hw]
        ring
      rw [hmod] at hres
      generalize 96 * (k₁ - j) + 1536 * k₂ - 40960 * k₃ = z at hres hsmall ⊢
      clear hw hmod hk₀ hk₁ hk₂ hk₃ hj hD
      omega
    clear hres hw hk₀ hD hQ
    have h₃ : k₃ = 0 := by
      rcases hk₃ with h₃ | rfl
      · exact h₃
      · have hk₂ := bit_bounds hk₂
        omega
    have h₂ : k₂ = 0 := by
      rcases hk₂ with h₂ | rfl
      · exact h₂
      · omega
    subst h₂ h₃
    exact ⟨by omega, rfl, rfl⟩
  · rintro ⟨rfl, rfl, rfl⟩
    constructor
    · omega
    · omega

/-- The decimal digits of two words, as variables. -/
structure Digits (x x₀ x₁ x₂ x₃ : Int) : Prop where
  d₀ : 0 ≤ x₀ ∧ x₀ ≤ 9
  d₁ : 0 ≤ x₁ ∧ x₁ ≤ 9
  d₂ : 0 ≤ x₂ ∧ x₂ ≤ 9
  d₃ : 0 ≤ x₃ ∧ x₃ ≤ 9
  word : x = x₀ + 16 * x₁ + 256 * x₂ + 4096 * x₃

theorem Packed.digits {x : Int} (h : Packed x) :
    Digits x (nibble x 0) (nibble x 1) (nibble x 2) (nibble x 3) where
  d₀ := ⟨nibble_nonneg x 0, h.digit 0 (by decide)⟩
  d₁ := ⟨nibble_nonneg x 1, h.digit 1 (by decide)⟩
  d₂ := ⟨nibble_nonneg x 2, h.digit 2 (by decide)⟩
  d₃ := ⟨nibble_nonneg x 3, h.digit 3 (by decide)⟩
  word := word_digits h.word

variable {a₀ a₁ a₂ a₃ b₀ b₁ b₂ b₃ : Int}

/-- The digits of a decimal sum and the carries out of them. -/
structure SumDigits (a₀ a₁ a₂ a₃ b₀ b₁ b₂ b₃ e q₀ q₁ q₂ q₃ k₀ k₁ k₂ k₃ : Int) : Prop where
  d₀ : Digit q₀ k₀
  d₁ : Digit q₁ k₁
  d₂ : Digit q₂ k₂
  d₃ : Digit q₃ k₃
  sum₀ : a₀ + b₀ + e = q₀ + 10 * k₀
  sum₁ : a₁ + b₁ + k₀ = q₁ + 10 * k₁
  sum₂ : a₂ + b₂ + k₁ = q₂ + 10 * k₂
  sum₃ : a₃ + b₃ + k₂ = q₃ + 10 * k₃

theorem exists_sumDigits (ha : Digits a a₀ a₁ a₂ a₃) (hb : Digits b b₀ b₁ b₂ b₃)
    (he : e = 0 ∨ e = 1) :
    ∃ q₀ q₁ q₂ q₃ k₀ k₁ k₂ k₃, SumDigits a₀ a₁ a₂ a₃ b₀ b₁ b₂ b₃ e q₀ q₁ q₂ q₃ k₀ k₁ k₂ k₃ := by
  obtain ⟨ha₀, ha₁, ha₂, ha₃, -⟩ := ha
  obtain ⟨hb₀, hb₁, hb₂, hb₃, -⟩ := hb
  obtain ⟨q₀, k₀, hd₀, h₀⟩ := exists_digit (t := a₀ + b₀ + e) (by omega) (by omega)
  have hk₀ := hd₀.carry
  obtain ⟨q₁, k₁, hd₁, h₁⟩ := exists_digit (t := a₁ + b₁ + k₀) (by omega) (by omega)
  have hk₁ := hd₁.carry
  obtain ⟨q₂, k₂, hd₂, h₂⟩ := exists_digit (t := a₂ + b₂ + k₁) (by omega) (by omega)
  have hk₂ := hd₂.carry
  obtain ⟨q₃, k₃, hd₃, h₃⟩ := exists_digit (t := a₃ + b₃ + k₂) (by omega) (by omega)
  exact ⟨q₀, q₁, q₂, q₃, k₀, k₁, k₂, k₃, hd₀, hd₁, hd₂, hd₃, h₀, h₁, h₂, h₃⟩

/-- DAA is right when no digit but the lowest has a carry. -/
theorem daaValue_iff (ha : Packed a) (hb : Packed b) (he : e = 0 ∨ e = 1) :
    (daaValue a b e % 65536 = pack ((decimal a + decimal b + e) % 10000) ∧
      (a + b + e > 0xffff ↔ 10000 ≤ decimal a + decimal b + e)) ↔ DaaSound a b e := by
  have ha' := ha.digits
  have hb' := hb.digits
  have hpos : 0 ≤ a + b + e := by
    have ha0 := ha.word.1
    have hb0 := hb.word.1
    omega
  simp only [daaValue, DaaSound, decimal]
  generalize nibble a 0 = a₀, nibble a 1 = a₁, nibble a 2 = a₂, nibble a 3 = a₃ at ha' ⊢
  generalize nibble b 0 = b₀, nibble b 1 = b₁, nibble b 2 = b₂, nibble b 3 = b₃ at hb' ⊢
  obtain ⟨q₀, q₁, q₂, q₃, k₀, k₁, k₂, k₃, hsum⟩ := exists_sumDigits ha' hb' he
  obtain ⟨⟨hq₀, hk₀⟩, ⟨hq₁, hk₁⟩, ⟨hq₂, hk₂⟩, ⟨hq₃, hk₃⟩, h₀, h₁, h₂, h₃⟩ := hsum
  have hlow : a₀ + b₀ + e > 9 ↔ k₀ = 1 := by omega
  have hcorrected : (if a₀ + b₀ + e > 9 then a + b + e + 0x06 else a + b + e) =
      a + b + e + 6 * k₀ := by
    rcases hk₀ with rfl | rfl
    · rw [if_neg (by rw [hlow]; decide), mul_zero, add_zero]
    · rw [if_pos (hlow.mpr rfl), mul_one]
  have hcarry : (if a₀ + b₀ + e > 9 then 1 else 0) = k₀ := by
    rcases hk₀ with rfl | rfl
    · rw [if_neg (by rw [hlow]; decide)]
    · rw [if_pos (hlow.mpr rfl)]
  have hdecimal : a₀ + 10 * a₁ + 100 * a₂ + 1000 * a₃ + (b₀ + 10 * b₁ + 100 * b₂ + 1000 * b₃) + e =
      q₀ + 10 * q₁ + 100 * q₂ + 1000 * q₃ + 10000 * k₃ := by
    linear_combination h₀ + 10 * h₁ + 100 * h₂ + 1000 * h₃
  have hw : a + b + e + 6 * k₀ = q₀ + 16 * q₁ + 256 * q₂ + 4096 * q₃ - 96 * k₁ - 1536 * k₂ +
      40960 * k₃ := by
    rw [ha'.word, hb'.word]
    linear_combination h₀ + 16 * h₁ + 256 * h₂ + 4096 * h₃
  obtain ⟨hQ, hD⟩ := digits_bounds hq₀ hq₁ hq₂ hq₃
  have hcorrection := daa_correction hQ hD hk₀ hk₁ hk₂ hk₃ hw (by omega)
  rw [add_sub_cancel_right] at hcorrection
  rw [hcorrected, hcarry, hdecimal, pack_digits hq₀ hq₁ hq₂ hq₃, hcorrection]
  clear hcorrection hw hdecimal hQ hD hcorrected hcarry hlow hpos h₀
  omega

/-- The digits of a decimal difference and the borrows out of them. -/
structure DifferenceDigits (a₀ a₁ a₂ a₃ b₀ b₁ b₂ b₃ e q₀ q₁ q₂ q₃ k₀ k₁ k₂ k₃ : Int) :
    Prop where
  d₀ : Digit q₀ k₀
  d₁ : Digit q₁ k₁
  d₂ : Digit q₂ k₂
  d₃ : Digit q₃ k₃
  difference₀ : a₀ - b₀ - e = q₀ - 10 * k₀
  difference₁ : a₁ - b₁ - k₀ = q₁ - 10 * k₁
  difference₂ : a₂ - b₂ - k₁ = q₂ - 10 * k₂
  difference₃ : a₃ - b₃ - k₂ = q₃ - 10 * k₃

theorem exists_differenceDigits (ha : Digits a a₀ a₁ a₂ a₃) (hb : Digits b b₀ b₁ b₂ b₃)
    (he : e = 0 ∨ e = 1) : ∃ q₀ q₁ q₂ q₃ k₀ k₁ k₂ k₃,
      DifferenceDigits a₀ a₁ a₂ a₃ b₀ b₁ b₂ b₃ e q₀ q₁ q₂ q₃ k₀ k₁ k₂ k₃ := by
  obtain ⟨ha₀, ha₁, ha₂, ha₃, -⟩ := ha
  obtain ⟨hb₀, hb₁, hb₂, hb₃, -⟩ := hb
  obtain ⟨q₀, k₀, hd₀, h₀⟩ := exists_digit_sub (t := a₀ - b₀ - e) (by omega) (by omega)
  have hk₀ := hd₀.carry
  obtain ⟨q₁, k₁, hd₁, h₁⟩ := exists_digit_sub (t := a₁ - b₁ - k₀) (by omega) (by omega)
  have hk₁ := hd₁.carry
  obtain ⟨q₂, k₂, hd₂, h₂⟩ := exists_digit_sub (t := a₂ - b₂ - k₁) (by omega) (by omega)
  have hk₂ := hd₂.carry
  obtain ⟨q₃, k₃, hd₃, h₃⟩ := exists_digit_sub (t := a₃ - b₃ - k₂) (by omega) (by omega)
  exact ⟨q₀, q₁, q₂, q₃, k₀, k₁, k₂, k₃, hd₀, hd₁, hd₂, hd₃, h₀, h₁, h₂, h₃⟩

/-- DAS is right when the digits 2 and 3 do not borrow and digit 1 borrows by itself or not
at all. -/
theorem dasValue_iff (ha : Packed a) (hb : Packed b) (he : e = 0 ∨ e = 1) :
    (dasValue a b e % 65536 = pack ((decimal a - decimal b - e) % 10000) ∧
      (a - b - e < 0 ↔ decimal a - decimal b - e < 0)) ↔ DasSound a b e := by
  have ha' := ha.digits
  have hb' := hb.digits
  simp only [dasValue, DasSound, decimal]
  generalize nibble a 0 = a₀, nibble a 1 = a₁, nibble a 2 = a₂, nibble a 3 = a₃ at ha' ⊢
  generalize nibble b 0 = b₀, nibble b 1 = b₁, nibble b 2 = b₂, nibble b 3 = b₃ at hb' ⊢
  obtain ⟨q₀, q₁, q₂, q₃, k₀, k₁, k₂, k₃, hdiff⟩ := exists_differenceDigits ha' hb' he
  obtain ⟨⟨hq₀, hk₀⟩, ⟨hq₁, hk₁⟩, ⟨hq₂, hk₂⟩, ⟨hq₃, hk₃⟩, h₀, h₁, h₂, h₃⟩ := hdiff
  obtain ⟨j, hj, hj01⟩ : ∃ j : Int, j = (if a₁ < b₁ then 1 else 0) ∧ (j = 0 ∨ j = 1) := by
    refine ⟨_, rfl, ?_⟩
    split_ifs
    · exact .inr rfl
    · exact .inl rfl
  have hlow : a₀ - b₀ - e < 0 ↔ k₀ = 1 := by omega
  have hcorrected : (if a₀ - b₀ - e < 0 then a - b - e - 0x06 else a - b - e) =
      a - b - e - 6 * k₀ := by
    rcases hk₀ with rfl | rfl
    · rw [if_neg (by rw [hlow]; decide), mul_zero, sub_zero]
    · rw [if_pos (hlow.mpr rfl), mul_one]
  have htwice (x : Int) : (if a₁ - b₁ < 0 then x - 0x60 else x) = x - 96 * j := by
    rw [hj]
    split_ifs <;> omega
  have hdecimal :
      a₀ + 10 * a₁ + 100 * a₂ + 1000 * a₃ - (b₀ + 10 * b₁ + 100 * b₂ + 1000 * b₃) - e =
        q₀ + 10 * q₁ + 100 * q₂ + 1000 * q₃ + 10000 * -k₃ := by
    linear_combination h₀ + 10 * h₁ + 100 * h₂ + 1000 * h₃
  have hw : a - b - e - 6 * k₀ = q₀ + 16 * q₁ + 256 * q₂ + 4096 * q₃ + 96 * k₁ + 1536 * k₂ -
      40960 * k₃ := by
    rw [ha'.word, hb'.word]
    linear_combination h₀ + 16 * h₁ + 256 * h₂ + 4096 * h₃
  obtain ⟨hQ, hD⟩ := digits_bounds hq₀ hq₁ hq₂ hq₃
  have hcorrection := das_correction hQ hD hk₀ hk₁ hk₂ hk₃ hj01 hw
  rw [sub_add_cancel] at hcorrection
  rw [hcorrected, htwice, ← hj, hdecimal, pack_digits hq₀ hq₁ hq₂ hq₃, mul_neg, ← sub_eq_add_neg,
    hcorrection]
  have hborrow : j = 1 ↔ a₁ < b₁ := by
    rw [hj]
    split_ifs with h
    · exact iff_of_true rfl h
    · exact iff_of_false (by decide) h
  clear hcorrection hw hdecimal hQ hD hcorrected htwice hlow hj
  omega

end Corrections

/-- DAA or DAS. -/
inductive DecimalOp
  | DAA
  | DAS
deriving DecidableEq, Repr

namespace DecimalOp

/-- 1 for an addition, -1 for a subtraction. -/
def factor : DecimalOp → Int
  | DAA => 1
  | DAS => -1

theorem factor_cases (op : DecimalOp) : op.factor = 1 ∨ op.factor = -1 := by
  cases op with
  | DAA => exact .inl rfl
  | DAS => exact .inr rfl

/-- The instruction word with the carry field `c`, the pointer `i` and the skip code `k`. -/
def word (op : DecimalOp) (c : Fin 2) (i : Fin 4) (k : Fin 16) : Int :=
  match op with
  | DAA => fieldWord 0x0b 7 (k * 16 + (c * 8 + 4 + i))
  | DAS => fieldWord 0x0a 7 (k * 16 + (c * 8 + 4 + i))

/-- When the code is right. -/
def Sound (op : DecimalOp) (a b e : Int) : Prop :=
  match op with
  | DAA => DaaSound a b e
  | DAS => DasSound a b e

instance (op : DecimalOp) (a b e : Int) : Decidable (op.Sound a b e) :=
  match op with
  | DAA => inferInstanceAs (Decidable (DaaSound a b e))
  | DAS => inferInstanceAs (Decidable (DasSound a b e))

/-- The decimal result of the operation, before it is cut to four digits. -/
def result (op : DecimalOp) (a b e : Int) : Int := decimal a + op.factor * (decimal b + e)

/-- The registers `r` hold the packed result and its carry or borrow. -/
structure Exact (op : DecimalOp) (a b e : Int) (r : CPURegister) : Prop where
  digits : r.R 0 = pack (op.result a b e % 10000)
  carry : r.E = true ↔ op.result a b e < 0 ∨ 10000 ≤ op.result a b e

end DecimalOp

section Execution

variable {σ : Type} (bd : Board σ) (s : Cpu σ) (c : Fin 2) (i : Fin 4) (k : Fin 16)

theorem nibble_zero (x : Int) : land x 0xf = nibble x 0 := by
  rw [land_f, nibble, pow_zero, Int.ediv_one]

theorem nibble_one {x : Int} (h : Within 0xffff x) : land (ushr x 4) 0xf = nibble x 1 := by
  obtain ⟨h0, h1⟩ := h
  rw [ushr_div 4 (by decide) h0 (by omega), land_f, nibble]
  rfl

/-- The corrections of DAA, as the code makes them. -/
theorem daa_code {a b e : Int} (ha : Within 0xffff a) (hb : Within 0xffff b)
    (he : e = 0 ∨ e = 1) :
    (let res := a + b + e
     let res := if land a 0xf + land b 0xf + e > 9 then res + 0x06 else res
     if land (ushr res 8) 0xff > 0x99 then res + 0x0600 else res) = daaValue a b e := by
  obtain ⟨ha0, ha1⟩ := ha
  obtain ⟨hb0, hb1⟩ := hb
  have hupper (x : Int) (h0 : 0 ≤ x) (h : x < 2 ^ 31) : land (ushr x 8) 0xff = x / 256 % 256 := by
    rw [ushr_div 8 (by decide) h0 h, land_ff]
    rfl
  simp only [nibble_zero, daaValue]
  rw [hupper]
  · split_ifs <;> omega
  · split_ifs <;> omega

/-- The corrections of DAS, as the code makes them. -/
theorem das_code {a b e : Int} (ha : Within 0xffff a) (hb : Within 0xffff b) :
    (let res := a - b - e
     let res := if land a 0xf - land b 0xf - e < 0 then res - 0x06 else res
     if land (ushr a 4) 0xf - land (ushr b 4) 0xf < 0 then res - 0x60 else res) =
      dasValue a b e := by
  rw [nibble_zero, nibble_zero, nibble_one ha, nibble_one hb]
  rfl

/-- The registers that a decimal operation leaves, for the number `w` that tells the carry
and the value `v` before it is cut to a word. -/
def decimalRegisters (r : CPURegister) (e : Bool) (v : Int) : CPURegister :=
  let r := r.withE e
  { r with R := Function.update r.R 0 (land v 0xffff) }

/-- The arm of DAA. -/
theorem leaves_daa (ha : Within 0xffff (s.reg.R 0)) :
    Leaves (after bd (DecimalOp.DAA.word c i k) s)
      (let a := s.reg.R 0
       let b := codeValue (view s) (s.reg.R i.succ)
       let e := s.reg.carryIn c
       decimalRegisters s.reg (a + b + e > 0xffff) (daaValue a b e)) := by
  have hword : after bd (DecimalOp.DAA.word c i k) s = _ :=
    congrArg (fun m => (m.run s).2) (execute_0b bd (by omega) (by omega))
  obtain ⟨hk, h2, h3, h10, h7, h4⟩ := low_fields (j := c.val * 8 + 4 + (i.val : Int))
    (skip_range k) (by omega)
  have hc : ((c.val : Int) * 8 + 4 + i.val) / 8 = c.val := by omega
  have hi : ((c.val : Int) * 8 + 4 + i.val) % 4 = i.val := by omega
  obtain ⟨s₁, hread, hview⟩ := rdC_run bd s (s.reg.R i.succ)
  have hreg : s₁.reg = s.reg := congrArg Prod.fst hview
  rw [hword, exec0b, hk, h3, h10, hc, hi, if_pos rfl, if_pos (h4.mpr (by omega)), run_bind, ri_run,
    run_bind, hread, run_bind, carryIn_run, carryIn_ite, run_bind, reg_run, run_bind, setE_run,
    run_bind, setR_run, run_bind, hreg]
  dsimp only
  rw [← daa_code ha (within_codeValue _ _) (carryIn_cases _ _)]
  exact leaves_skipIf bd _ k _

/-- The arm of DAS. -/
theorem leaves_das (ha : Within 0xffff (s.reg.R 0)) :
    Leaves (after bd (DecimalOp.DAS.word c i k) s)
      (let a := s.reg.R 0
       let b := codeValue (view s) (s.reg.R i.succ)
       let e := s.reg.carryIn c
       decimalRegisters s.reg (a - b - e < 0) (dasValue a b e)) := by
  have hword : after bd (DecimalOp.DAS.word c i k) s = _ :=
    congrArg (fun m => (m.run s).2) (execute_0a bd (by omega) (by omega))
  obtain ⟨hk, h2, h3, h10, h7, h4⟩ := low_fields (j := c.val * 8 + 4 + (i.val : Int))
    (skip_range k) (by omega)
  have hc : ((c.val : Int) * 8 + 4 + i.val) / 8 = c.val := by omega
  have hi : ((c.val : Int) * 8 + 4 + i.val) % 4 = i.val := by omega
  obtain ⟨s₁, hread, hview⟩ := rdC_run bd s (s.reg.R i.succ)
  have hreg : s₁.reg = s.reg := congrArg Prod.fst hview
  rw [hword, exec0a, hk, h3, h10, hc, hi, if_pos rfl, if_pos (h4.mpr (by omega)), run_bind, ri_run,
    run_bind, hread, run_bind, carryIn_run, carryIn_ite, run_bind, reg_run, run_bind, setE_run,
    run_bind, setR_run, run_bind, hreg]
  dsimp only
  rw [← das_code ha (within_codeValue _ _)]
  exact leaves_skipIf bd _ k _

/-- What the registers say after a decimal operation. -/
theorem exact_decimal {op : DecimalOp} {a b e v : Int} {f : Bool} {r : CPURegister} {s' : Cpu σ}
    (hl : Leaves s' (decimalRegisters r f v)) :
    op.Exact a b e s'.reg ↔ v % 65536 = pack (op.result a b e % 10000) ∧
      (f = true ↔ op.result a b e < 0 ∨ 10000 ≤ op.result a b e) := by
  obtain ⟨ic, hreg⟩ := hl
  have hR : s'.reg.R 0 = v % 65536 := by
    rw [hreg, ← land_ffff]
    rfl
  have hE : s'.reg.E = f := by
    rw [hreg]
    exact E_withE (r := r)
  constructor
  · intro h
    rw [← hR, ← hE]
    exact ⟨h.digits, h.carry⟩
  · rintro ⟨hdigits, hcarry⟩
    refine ⟨hR.trans hdigits, ?_⟩
    rw [hE]
    exact hcarry

/-- A packed word stands for a number below 10000. -/
theorem decimal_bounds {a : Int} (ha : Packed a) : 0 ≤ decimal a ∧ decimal a ≤ 9999 := by
  have h := ha.digits
  exact (digits_bounds h.d₀ h.d₁ h.d₂ h.d₃).2

/-- One operation on packed operands is exact if and only if it is sound. -/
theorem decimal_step (op : DecimalOp) (ha : Packed (s.reg.R 0))
    (hb : Packed (codeValue (view s) (s.reg.R i.succ))) :
    op.Exact (s.reg.R 0) (codeValue (view s) (s.reg.R i.succ)) (s.reg.carryIn c)
        (after bd (op.word c i k) s).reg ↔
      op.Sound (s.reg.R 0) (codeValue (view s) (s.reg.R i.succ)) (s.reg.carryIn c) := by
  have he := carryIn_cases s.reg c
  obtain ⟨ha0, ha1⟩ := decimal_bounds ha
  obtain ⟨hb0, hb1⟩ := decimal_bounds hb
  cases op with
  | DAA =>
      have hresult : DecimalOp.DAA.result (s.reg.R 0) (codeValue (view s) (s.reg.R i.succ))
          (s.reg.carryIn c) = decimal (s.reg.R 0) +
            decimal (codeValue (view s) (s.reg.R i.succ)) + s.reg.carryIn c := by
        simp only [DecimalOp.result, DecimalOp.factor]
        omega
      rw [exact_decimal (leaves_daa bd s c i k ha.word), hresult, decide_eq_true_iff]
      refine Iff.trans (and_congr_right fun _ => iff_congr Iff.rfl ?_) (daaValue_iff ha hb he)
      omega
  | DAS =>
      have hresult : DecimalOp.DAS.result (s.reg.R 0) (codeValue (view s) (s.reg.R i.succ))
          (s.reg.carryIn c) = decimal (s.reg.R 0) -
            decimal (codeValue (view s) (s.reg.R i.succ)) - s.reg.carryIn c := by
        simp only [DecimalOp.result, DecimalOp.factor]
        omega
      rw [exact_decimal (leaves_das bd s c i k ha.word), hresult, decide_eq_true_iff]
      refine Iff.trans (and_congr_right fun _ => iff_congr Iff.rfl ?_) (dasValue_iff ha hb he)
      omega

end Execution

section Chains

variable {σ : Type} (bd : Board σ) (op : DecimalOp)

/-- A step that leaves E as it was. -/
def KeepsE (s t : Cpu σ) : Prop := t = stepOne bd s ∧ t.reg.E = s.reg.E

/-- A step that executes the operation `op` on the packed words `p`, for which it is sound, and
leaves `d` in `R0`. -/
structure DecimalStep (c : Fin 2) (t u : Cpu σ) (p : Int × Int) (d : Int) : Prop where
  irq : irqLevel t = none
  operands : ∃ i k, (fetchInstruction bd t).1 = op.word c i k ∧ t.reg.R 0 = p.1 ∧
    codeValue (view t) (t.reg.R i.succ) = p.2
  left : Packed p.1
  right : Packed p.2
  sound : op.Sound p.1 p.2 (t.reg.carryIn c)
  next : u = stepOne bd t
  digits : d = u.reg.R 0

/-- A run over the packed words `ps` of two numbers, the least significant ones first: a step
with the carry field `c`, then steps with carry between which E is kept. -/
inductive DecimalRun (c : Fin 2) (s : Cpu σ) : List (Int × Int) → List Int → Cpu σ → Prop
  | mk {u v : Cpu σ} {p : Int × Int} {d : Int} {ps : List (Int × Int)} {ds : List Int}
      (head : DecimalStep bd op c s u p d)
      (tail : Chain (KeepsE bd) (DecimalStep bd op 0) u ps ds v) :
      DecimalRun c s (p :: ps) (d :: ds) v

/-- The packed word of a number stands for it. -/
theorem decimal_pack {n : Int} (h0 : 0 ≤ n) (h : n < 10000) : decimal (pack n) = n := by
  obtain ⟨q₀, hq₀⟩ : ∃ q, q = n % 10 := ⟨_, rfl⟩
  obtain ⟨q₁, hq₁⟩ : ∃ q, q = n / 10 % 10 := ⟨_, rfl⟩
  obtain ⟨q₂, hq₂⟩ : ∃ q, q = n / 100 % 10 := ⟨_, rfl⟩
  obtain ⟨q₃, hq₃⟩ : ∃ q, q = n / 1000 % 10 := ⟨_, rfl⟩
  have hn : n = q₀ + 10 * q₁ + 100 * q₂ + 1000 * q₃ := by omega
  have h₀ : 0 ≤ q₀ ∧ q₀ < 10 := by omega
  have h₁ : 0 ≤ q₁ ∧ q₁ < 10 := by omega
  have h₂ : 0 ≤ q₂ ∧ q₂ < 10 := by omega
  have h₃ : 0 ≤ q₃ ∧ q₃ < 10 := by omega
  rw [pack, ← hq₀, ← hq₁, ← hq₂, ← hq₃, hn]
  clear hq₀ hq₁ hq₂ hq₃ hn h0 h
  simp only [decimal, nibble]
  omega

variable {bd op}

/-- A sound step computes a column. -/
theorem DecimalStep.column {c : Fin 2} {t u : Cpu σ} {p : Int × Int} {d : Int}
    (h : DecimalStep bd op c t u p d) :
    Column 10000 (op.factor * t.reg.carryIn c) (decimal p.1 + op.factor * decimal p.2) (decimal d)
      (op.factor * carryBit u.reg) := by
  obtain ⟨hirq, ⟨i, k, hword, hleft, hright⟩, ha, hb, hsound, hu, hd⟩ := h
  have hview : view (fetchInstruction bd t).2 = _ := view_fetch bd t
  have hreg : (fetchInstruction bd t).2.reg = { t.reg with IC := land (t.reg.IC + 1) 0xffff } :=
    congrArg Prod.fst hview
  have hstep : u = after bd (op.word c i k) (fetchInstruction bd t).2 := by
    rw [hu, stepOne_advance bd hirq, advance, hword]
    rfl
  have hR : (fetchInstruction bd t).2.reg.R = t.reg.R := by rw [hreg]
  have hcarry : (fetchInstruction bd t).2.reg.carryIn c = t.reg.carryIn c := by
    rw [hreg]
    rfl
  have hm : codeValue (view (fetchInstruction bd t).2) (t.reg.R i.succ) = p.2 := by
    rw [hview, ← hright]
    rfl
  have hexact := decimal_step bd (fetchInstruction bd t).2 c i k op
    (by rw [hR, hleft]; exact ha) (by rw [hR, hm]; exact hb)
  rw [← hstep, hR, hcarry, hm, hleft] at hexact
  obtain ⟨hdigits, hE⟩ := hexact.mpr hsound
  rw [hd, hdigits]
  obtain ⟨ha0, ha1⟩ := decimal_bounds ha
  obtain ⟨hb0, hb1⟩ := decimal_bounds hb
  have he := carryIn_cases t.reg c
  have hmod := Int.emod_nonneg (op.result p.1 p.2 (t.reg.carryIn c))
    (show (10000 : Int) ≠ 0 by decide)
  rw [decimal_pack hmod (Int.emod_lt_of_pos _ (by decide)), carryBit]
  refine ⟨hmod, Int.emod_lt_of_pos _ (by decide), ?_⟩
  clear hdigits
  cases op with
  | DAA =>
      simp only [DecimalOp.result, DecimalOp.factor] at hE ⊢
      split_ifs with hset
      · have := hE.mp hset
        omega
      · have := mt hE.mpr hset
        omega
  | DAS =>
      simp only [DecimalOp.result, DecimalOp.factor] at hE ⊢
      split_ifs with hset
      · have := hE.mp hset
        omega
      · have := mt hE.mpr hset
        omega

/-- A run of sound steps is a chain of columns. -/
theorem DecimalRun.columns {c : Fin 2} {s v : Cpu σ} {ps : List (Int × Int)} {ds : List Int}
    (h : DecimalRun bd op c s ps ds v) :
    Columns 10000 (op.factor * s.reg.carryIn c)
      (ps.map fun p => decimal p.1 + op.factor * decimal p.2) (ds.map decimal)
      (op.factor * carryBit v.reg) := by
  obtain ⟨head, tail⟩ := h
  have hkeep : ∀ s t : Cpu σ, KeepsE bd s t →
      op.factor * carryBit t.reg = op.factor * carryBit s.reg := by
    rintro s t ⟨-, hE⟩
    rw [carryBit, carryBit, hE]
  refine .cons head.column (tail.columns hkeep fun t u p d hstep => ?_)
  have hcolumn := hstep.column
  have hcarry := carryIn_zero t.reg
  rw [show (((0 : Fin 2) : Nat) : Int) = 0 from rfl, hcarry] at hcolumn
  exact hcolumn

/-- The number that the packed words `xs` stand for, the least significant ones first. -/
def decimals (xs : List Int) : Int := value 10000 (xs.map decimal)

/-- The registers `r` and the packed words `ds` hold the sum or difference of two numbers of
`n` words, with the carry `e` coming in. -/
structure DecimalResult (op : DecimalOp) (x y e : Int) (n : Nat) (ds : List Int)
    (r : CPURegister) : Prop where
  digits : decimals ds = (x + op.factor * (y + e)) % 10000 ^ n
  carry : r.E = true ↔ x + op.factor * (y + e) < 0 ∨ 10000 ^ n ≤ x + op.factor * (y + e)

theorem DecimalRun.result {c : Fin 2} {s v : Cpu σ} {ps : List (Int × Int)} {ds : List Int}
    (h : DecimalRun bd op c s ps ds v) :
    DecimalResult op (decimals (ps.map Prod.fst)) (decimals (ps.map Prod.snd)) (s.reg.carryIn c)
      ps.length ds v.reg := by
  have hcolumns := h.columns
  have hvalue := hcolumns.value_eq (by decide)
  have hcarry := hcolumns.carry_eq (by decide)
  have hsum : value 10000 (ps.map fun p => decimal p.1 + op.factor * decimal p.2) =
      decimals (ps.map Prod.fst) + op.factor * decimals (ps.map Prod.snd) := by
    rw [decimals, decimals, ← value_columns _ _ (by simp), List.map_map, List.map_map,
      List.zip_map', List.map_map]
    rfl
  rw [List.length_map, hsum, add_assoc, ← mul_add] at hvalue hcarry
  exact ⟨hvalue, carry_iff op.factor_cases (by positivity) hcarry⟩

end Chains

section Main

variable {σ : Type} (bd : Board σ)

/-- Decimal arithmetic: DAA and DAS on packed operands leave the packed result and its carry
or borrow if and only if they are sound, and a run whose operations are all sound computes
the sum or difference of two numbers of any length. -/
theorem decimal_arithmetic (op : DecimalOp) (c : Fin 2) :
    (∀ (s : Cpu σ) (i : Fin 4) (k : Fin 16), Packed (s.reg.R 0) →
      Packed (codeValue (view s) (s.reg.R i.succ)) →
      (op.Exact (s.reg.R 0) (codeValue (view s) (s.reg.R i.succ)) (s.reg.carryIn c)
          (after bd (op.word c i k) s).reg ↔
        op.Sound (s.reg.R 0) (codeValue (view s) (s.reg.R i.succ)) (s.reg.carryIn c))) ∧
      ∀ (s v : Cpu σ) (ps : List (Int × Int)) (ds : List Int), DecimalRun bd op c s ps ds v →
        DecimalResult op (decimals (ps.map Prod.fst)) (decimals (ps.map Prod.snd))
          (s.reg.carryIn c) ps.length ds v.reg := by
  constructor
  · intro s i k ha hb
    exact decimal_step bd s c i k op ha hb
  · intro s v ps ds h
    exact h.result

theorem packed_one : Packed 1 := ⟨⟨by decide, by decide⟩, by decide⟩

/-- A core about to execute DAA without carry on `R0` and a word that is 1. -/
def decimalSample (r0 : Int) : Cpu Unit :=
  { sample r0 1 with mem := Function.update (fun _ => 1#16) 0 0x5f0c#16 }

/-- 12 + 1, as an operation and as a run. -/
theorem decimal_arithmetic_twelve :
    ((DecimalOp.DAA.Exact 0x12 1 0 (after .default (DecimalOp.DAA.word 1 0 0)
        (decimalSample 0x12)).reg ↔ DecimalOp.DAA.Sound 0x12 1 0)) ∧
      DecimalResult .DAA (decimals [0x12]) (decimals [1]) 0 1
        [(stepOne .default (decimalSample 0x12)).reg.R 0]
        (stepOne .default (decimalSample 0x12)).reg := by
  have h := decimal_arithmetic (.default : Board Unit) .DAA 1
  have hleft : Packed 0x12 := ⟨⟨by decide, by decide⟩, by decide⟩
  constructor
  · exact h.1 (decimalSample 0x12) 0 0 hleft packed_one
  · exact h.2 (decimalSample 0x12) _ [(0x12, 1)] _
      (.mk ⟨by decide, ⟨0, 0, by decide, by decide, by decide⟩, hleft, packed_one,
        by decide, rfl, rfl⟩ (.nil _))

/-- 99 + 1 is not corrected beyond the lowest digit: DAA leaves 0x00a0. -/
theorem daa_digit_lost :
    ¬ DecimalOp.DAA.Exact 0x99 1 0
      (after .default (DecimalOp.DAA.word 1 0 0) (decimalSample 0x99)).reg := by
  intro h
  have hleft : (after .default (DecimalOp.DAA.word 1 0 0) (decimalSample 0x99)).reg.R 0 = 0xa0 := by
    decide
  have hright := h.digits
  rw [hleft] at hright
  revert hright
  decide

end Main

end Mn1613
end RetroCpu
