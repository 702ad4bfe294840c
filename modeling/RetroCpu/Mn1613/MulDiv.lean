import RetroCpu.Mn1613.Operands

/-!
# Multiplication and division of the MN1613

M multiplies `R0` by a memory word into `R0`, `R1`; D divides `R0`, `R1` by a memory word,
with the quotient in `R0` and the remainder in `R1`.  D sets V instead when the divisor is
0 or the quotient is no word.
-/

namespace RetroCpu
namespace Mn1613

open Js Prog Carry
open EmuTs.Mn1613

/-- `M DR0, (Ri)` with the skip code `k`. -/
def mulWord (i : Fin 4) (k : Fin 16) : Int := fieldWord 0x0f 7 (k * 16 + (12 + i))

/-- `D DR0, (Ri)` with the skip code `k`. -/
def divWord (i : Fin 4) (k : Fin 16) : Int := fieldWord 0x0e 7 (k * 16 + (12 + i))

/-- The registers hold the product `p` in `R0` and `R1`, without carry and overflow. -/
structure Product (p : Int) (r : CPURegister) : Prop where
  exact : doubleRegister r = p
  high : Within 0xffff (r.R 0)
  low : Within 0xffff (r.R 1)
  carry : r.E = false
  overflow : r.V = false

/-- The registers hold the quotient of `n` by `m` in `R0` and the remainder in `R1`. -/
structure Quotient (n m : Int) (r : CPURegister) : Prop where
  exact : r.R 0 * m + r.R 1 = n
  quotient : Within 0xffff (r.R 0)
  remainder : 0 ≤ r.R 1 ∧ r.R 1 < m
  overflow : r.V = false

/-- V is set, and `R0`, `R1` and `IC` are those of the registers `r₀`. -/
structure Overflowed (r₀ r : CPURegister) : Prop where
  flag : r.V = true
  high : r.R 0 = r₀.R 0
  low : r.R 1 = r₀.R 1
  next : r.IC = r₀.IC

section Execution

variable {σ : Type} (bd : Board σ) (s : Cpu σ) (i : Fin 4) (k : Fin 16)

/-- The word that the pointer `i` points to. -/
def pointed : Int := codeValue (view s) (s.reg.R i.succ)

theorem within_pointed : Within 0xffff (pointed s i) := within_codeValue _ _

theorem leaves_mul :
    Leaves (after bd (mulWord i k) s)
      (putDouble ((s.reg.withV false).withE false) (s.reg.R 0 * pointed s i)) := by
  have hword : after bd (mulWord i k) s = _ :=
    congrArg (fun m => (m.run s).2) (execute_0f bd (by omega) (by omega))
  obtain ⟨hk, h2, h3, h10, h7, h4⟩ := low_fields (j := 12 + (i.val : Int)) (skip_range k)
    (by omega)
  have hi : (12 + (i.val : Int)) % 4 = i.val := by omega
  have h2' : (12 + (i.val : Int)) / 4 = 3 := by omega
  obtain ⟨s₁, hread, hview⟩ := rdC_run bd s (s.reg.R i.succ)
  have hreg : s₁.reg = s.reg := congrArg Prod.fst hview
  rw [hword, exec0f, hk, h2, h2', h10, hi, if_pos rfl, if_pos rfl, run_bind, reg_run, run_bind,
    ri_run, run_bind, hread, run_bind, setOVF_run, run_bind, setE_run, run_bind, setDR0_run,
    run_bind, hreg]
  exact leaves_skipIf bd _ k _

/-- The dividend in `R0` and `R1`. -/
theorem dividend {a b : Int} (ha : Within 0xffff a) (hb : Within 0xffff b) :
    ushr (lor (shl a 16) b) 0 = a * 65536 + b := by
  obtain ⟨x, rfl⟩ := ha.exists_word
  obtain ⟨y, rfl⟩ := hb.exists_word
  have hx := x.isLt
  have hy := y.isLt
  rw [WordOps.dividend_num, num, num, num, BitVec.toNat_or, BitVec.toNat_shiftLeft,
    BitVec.toNat_setWidth, BitVec.toNat_setWidth, Nat.mod_eq_of_lt (a := x.toNat) (by omega),
    Nat.mod_eq_of_lt (a := y.toNat) (by omega), Nat.shiftLeft_eq,
    Nat.mod_eq_of_lt (by omega), ← Nat.shiftLeft_eq, ← Nat.shiftLeft_add_eq_or_of_lt hy,
    Nat.shiftLeft_eq]
  omega

/-- M leaves the product. -/
theorem product_mul (ha : Within 0xffff (s.reg.R 0)) :
    Product (s.reg.R 0 * pointed s i) (after bd (mulWord i k) s).reg := by
  obtain ⟨ha0, ha1⟩ := ha
  obtain ⟨hm0, hm1⟩ := within_pointed s i
  obtain ⟨ic, hreg⟩ := leaves_mul bd s i k
  have h0 : 0 ≤ s.reg.R 0 * pointed s i := mul_nonneg ha0 hm0
  have hle : s.reg.R 0 * pointed s i ≤ 0xffff * 0xffff := mul_le_mul ha1 hm1 hm0 (by decide)
  have hSTR : (after bd (mulWord i k) s).reg.STR = ((s.reg.withV false).withE false).STR := by
    rw [hreg]
    rfl
  refine ⟨?_, ?_, ?_, ?_, ?_⟩
  · rw [hreg]
    exact doubleRegister_putDouble (r := (s.reg.withV false).withE false) h0 (by omega)
  · rw [hreg]
    exact within_land_word _
  · rw [hreg]
    exact within_land_word _
  · exact (E_of_STR hSTR).trans E_withE
  · exact (V_of_STR hSTR).trans (V_withE.trans V_withV)

/-- What D does to the registers when it divides. -/
def putQuotient (r : CPURegister) (n m : Int) : CPURegister :=
  let r := (r.withE false).withV false
  let R := Function.update r.R 0 (land (n / m) 0xffff)
  { r with R := Function.update R 1 (land (n % m) 0xffff) }

theorem leaves_div (hR : ∀ j, Within 0xffff (s.reg.R j)) :
    (pointed s i = 0 ∨ 0xffff < doubleRegister s.reg / pointed s i →
      (after bd (divWord i k) s).reg = (s.reg.withE false).withV true) ∧
    (¬ (pointed s i = 0 ∨ 0xffff < doubleRegister s.reg / pointed s i) →
      Leaves (after bd (divWord i k) s)
        (putQuotient s.reg (doubleRegister s.reg) (pointed s i))) := by
  have hword : after bd (divWord i k) s = _ :=
    congrArg (fun m => (m.run s).2) (execute_0e bd (by omega) (by omega))
  obtain ⟨hk, h2, h3, h10, h7, h4⟩ := low_fields (j := 12 + (i.val : Int)) (skip_range k)
    (by omega)
  have hi : (12 + (i.val : Int)) % 4 = i.val := by omega
  have h2' : (12 + (i.val : Int)) / 4 = 3 := by omega
  obtain ⟨s₁, hread, hview⟩ := rdC_run bd s (s.reg.R i.succ)
  have hreg : s₁.reg = s.reg := congrArg Prod.fst hview
  have hdividend : ushr (lor (shl (s.reg.R 0) 16) (s.reg.R 1)) 0 = doubleRegister s.reg :=
    dividend (hR 0) (hR 1)
  rw [hword, exec0e, hk, h2, h2', h10, hi, if_pos rfl, if_pos rfl, run_bind, ri_run, run_bind,
    hread, run_bind, setE_run, run_ite, hreg]
  dsimp only
  by_cases h0 : codeValue (view s) (s.reg.R i.succ) = 0
  · rw [if_pos h0, setOVF_run]
    exact ⟨fun _ => rfl, fun h => absurd (.inl h0) h⟩
  · rw [if_neg h0, run_bind, reg_run]
    dsimp only
    rw [run_ite]
    have hfits : ushr (lor (shl ((s.reg.withE false).R 0) 16) ((s.reg.withE false).R 1)) 0 =
      doubleRegister s.reg := hdividend
    rw [hfits]
    by_cases hq : doubleRegister s.reg / codeValue (view s) (s.reg.R i.succ) > 0xffff
    · rw [if_pos hq, setOVF_run]
      exact ⟨fun _ => rfl, fun h => absurd (.inr hq) h⟩
    · rw [if_neg hq, run_bind, setOVF_run, run_bind, setR_run, run_bind, setR_run, run_bind, reg_run]
      refine ⟨fun h => (h.elim h0 hq).elim, fun _ => ?_⟩
      exact leaves_skipIf bd _ k _

/-- D divides when the divisor is not 0 and the quotient is a word. -/
theorem quotient_div (hR : ∀ j, Within 0xffff (s.reg.R j)) (h0 : pointed s i ≠ 0)
    (hq : doubleRegister s.reg / pointed s i < 65536) :
    Quotient (doubleRegister s.reg) (pointed s i) (after bd (divWord i k) s).reg := by
  obtain ⟨hm0, hm1⟩ := within_pointed s i
  obtain ⟨hd0, hd1⟩ := within_double hR
  have hm : 0 < pointed s i := lt_of_le_of_ne hm0 h0.symm
  obtain ⟨ic, hreg⟩ := (leaves_div bd s i k hR).2 (by omega)
  have hquot0 := Int.ediv_nonneg hd0 hm0
  have hrem0 := Int.emod_nonneg (doubleRegister s.reg) h0
  have hrem := Int.emod_lt_of_pos (doubleRegister s.reg) hm
  have hR0 : (after bd (divWord i k) s).reg.R 0 = doubleRegister s.reg / pointed s i := by
    rw [hreg]
    change land (doubleRegister s.reg / pointed s i) 0xffff = _
    rw [land_ffff]
    omega
  have hR1 : (after bd (divWord i k) s).reg.R 1 = doubleRegister s.reg % pointed s i := by
    rw [hreg]
    change land (doubleRegister s.reg % pointed s i) 0xffff = _
    rw [land_ffff]
    omega
  refine ⟨?_, ?_, ?_, ?_⟩
  · rw [hR0, hR1]
    exact Int.ediv_mul_add_emod _ _
  · rw [hR0]
    exact ⟨hquot0, by omega⟩
  · rw [hR1]
    exact ⟨hrem0, hrem⟩
  · have hSTR : (after bd (divWord i k) s).reg.STR = ((s.reg.withE false).withV false).STR := by
      rw [hreg]
      rfl
    exact (V_of_STR hSTR).trans V_withV

/-- D sets V and nothing else otherwise. -/
theorem overflowed_div (hR : ∀ j, Within 0xffff (s.reg.R j))
    (h : ¬ (pointed s i ≠ 0 ∧ doubleRegister s.reg / pointed s i < 65536)) :
    Overflowed s.reg (after bd (divWord i k) s).reg := by
  rw [(leaves_div bd s i k hR).1 (by omega)]
  exact ⟨V_withV, rfl, rfl, rfl⟩

/-- M by `m` and then D by `m`, in a state with the same `R0` and `R1`. -/
theorem div_mul {j : Fin 4} {l : Fin 16} {u : Cpu σ} (hR : ∀ j, Within 0xffff (u.reg.R j))
    (ha : Within 0xffff (s.reg.R 0)) (h0 : pointed s i ≠ 0)
    (hR0 : u.reg.R 0 = (after bd (mulWord i k) s).reg.R 0)
    (hR1 : u.reg.R 1 = (after bd (mulWord i k) s).reg.R 1) (hm : pointed u j = pointed s i) :
    (after bd (divWord j l) u).reg.R 0 = s.reg.R 0 ∧ (after bd (divWord j l) u).reg.R 1 = 0 ∧
      (after bd (divWord j l) u).reg.V = false := by
  have hproduct := (product_mul bd s i k ha).exact
  rw [doubleRegister, ← hR0, ← hR1] at hproduct
  have hdouble : doubleRegister u.reg = s.reg.R 0 * pointed u j := by
    rw [hm]
    exact hproduct
  have hne : pointed u j ≠ 0 := by
    rw [hm]
    exact h0
  have hquot : doubleRegister u.reg / pointed u j = s.reg.R 0 := by
    rw [hdouble, Int.mul_ediv_cancel _ hne]
  obtain ⟨hexact, hword, hrem, hV⟩ :=
    quotient_div bd u j l hR hne (by rw [hquot]; exact Int.lt_add_one_of_le ha.2)
  have hlow : (after bd (divWord j l) u).reg.R 1 = 0 := by
    rw [hdouble] at hexact
    have hdvd : (after bd (divWord j l) u).reg.R 1 =
        (s.reg.R 0 - (after bd (divWord j l) u).reg.R 0) * pointed u j := by
      rw [sub_mul]
      omega
    have hmod := Int.emod_eq_of_lt hrem.1 hrem.2
    rw [hdvd, Int.mul_emod_left] at hmod
    rw [hdvd, ← hmod]
  refine ⟨?_, hlow, hV⟩
  rw [hlow, add_zero, hdouble] at hexact
  exact mul_right_cancel₀ hne hexact

end Execution

section Main

variable {σ : Type} (bd : Board σ)

/-- Multiply and divide, for registers that are words: M leaves the exact product; D leaves
the exact quotient and remainder when the divisor is not 0 and the quotient is a word, and
otherwise only sets V; and D by `m` restores what M by `m` multiplied. -/
theorem multiply_divide (s : Cpu σ) (hs : ∀ j, Within 0xffff (s.reg.R j)) (i : Fin 4)
    (k : Fin 16) :
    Product (s.reg.R 0 * pointed s i) (after bd (mulWord i k) s).reg ∧
      (pointed s i ≠ 0 ∧ doubleRegister s.reg / pointed s i < 65536 →
        Quotient (doubleRegister s.reg) (pointed s i) (after bd (divWord i k) s).reg) ∧
      (¬ (pointed s i ≠ 0 ∧ doubleRegister s.reg / pointed s i < 65536) →
        Overflowed s.reg (after bd (divWord i k) s).reg) ∧
      ∀ (u : Cpu σ) (j : Fin 4) (l : Fin 16), (∀ n, Within 0xffff (u.reg.R n)) →
        u.reg.R 0 = (after bd (mulWord i k) s).reg.R 0 →
        u.reg.R 1 = (after bd (mulWord i k) s).reg.R 1 →
        pointed u j = pointed s i → pointed s i ≠ 0 →
        (after bd (divWord j l) u).reg.R 0 = s.reg.R 0 ∧ (after bd (divWord j l) u).reg.R 1 = 0 ∧
          (after bd (divWord j l) u).reg.V = false := by
  refine ⟨product_mul bd s i k (hs 0), ?_, overflowed_div bd s i k hs, ?_⟩
  · rintro ⟨h0, hq⟩
    exact quotient_div bd s i k hs h0 hq
  · intro u j l hu hR0 hR1 hm h0
    exact div_mul bd s i k hu (hs 0) h0 hR0 hR1 hm

/-- 5 * 1, 5 / 1, and back. -/
theorem multiply_divide_five :
    Product 5 (after .default (mulWord 1 0) (sample 5 0)).reg ∧
      Quotient 5 1 (after .default (divWord 1 0) (sample 0 5)).reg ∧
      Overflowed (sample 0xffff 0).reg (after .default (divWord 1 0) (sample 0xffff 0)).reg ∧
      (after .default (divWord 1 0) (sample 0 5)).reg.R 0 = 5 := by
  have hfive : Within 0xffff 5 := ⟨by decide, by decide⟩
  have hzero : Within 0xffff 0 := ⟨by decide, by decide⟩
  have hmax : Within 0xffff 0xffff := ⟨by decide, by decide⟩
  have hmul := multiply_divide .default (sample 5 0) (sample_bounded hfive hzero).R 1 0
  have hdiv := multiply_divide .default (sample 0 5) (sample_bounded hzero hfive).R 1 0
  have hover := multiply_divide .default (sample 0xffff 0) (sample_bounded hmax hzero).R 1 0
  have hback := hmul.2.2.2 (sample 0 5) 1 0 (sample_bounded hzero hfive).R (by decide) (by decide)
    (by decide) (by decide)
  exact ⟨hmul.1, hdiv.2.1 ⟨by decide, by decide⟩, hover.2.2.1 (by decide), hback.1⟩

end Main

end Mn1613
end RetroCpu
