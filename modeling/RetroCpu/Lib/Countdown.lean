import Mathlib

/-!
# One-shot countdowns

A countdown that has signals left raises once, at the signal behind them.  Rounds that give one
or more signals each are compared with the rounds themselves: the countdown raises in the round
that the count names exactly when the rounds before it gave one signal each.
-/

namespace RetroCpu
namespace Countdown

/-- One signal; `none` is a countdown that is not armed. -/
def signal : Option Nat → Bool × Option Nat
  | none => (false, none)
  | some 0 => (true, none)
  | some (left + 1) => (false, some left)

/-- The signals of one round, and whether one of them raises. -/
def signals : Nat → Option Nat → Bool × Option Nat
  | 0, left => (false, left)
  | n + 1, left => ((signal left).1 || (signals n (signal left).2).1, (signals n (signal left).2).2)

/-- The rounds in which a countdown raises. -/
def flags : List Nat → Option Nat → List Bool
  | [], _ => []
  | n :: rounds, left => (signals n left).1 :: flags rounds (signals n left).2

theorem signals_none (n : Nat) : signals n none = (false, none) := by
  induction n with
  | zero => rfl
  | succ n ih =>
      rw [signals, signal, ih]
      rfl

theorem signals_some (n left : Nat) :
    signals n (some left) = if left < n then (true, none) else (false, some (left - n)) := by
  induction n generalizing left with
  | zero => rfl
  | succ n ih =>
      cases left with
      | zero =>
          rw [signals, signal, signals_none, if_pos (Nat.succ_pos n)]
          rfl
      | succ left =>
          rw [signals, signal, ih, Nat.add_sub_add_right]
          by_cases h : left < n
          · rw [if_pos h, if_pos (Nat.succ_lt_succ h)]
            rfl
          · rw [if_neg h, if_neg fun h' => h (Nat.lt_of_succ_lt_succ h')]
            rfl

theorem flags_length (rounds : List Nat) (left : Option Nat) :
    (flags rounds left).length = rounds.length := by
  induction rounds generalizing left with
  | nil => rfl
  | cons n rounds ih => exact congrArg Nat.succ (ih _)

theorem flags_none (rounds : List Nat) (i : Nat) : (flags rounds none)[i]? ≠ some true := by
  induction rounds generalizing i with
  | nil => simp [flags]
  | cons n rounds ih =>
      rw [flags, signals_none]
      cases i with
      | zero => exact fun h => Bool.noConfusion (Option.some.inj h)
      | succ i => exact ih i

/-- The round in which the signals behind those that are left begin. -/
theorem flags_some (rounds : List Nat) (left i : Nat) :
    (flags rounds (some left))[i]? = some true ↔
      (rounds.take i).sum ≤ left ∧ left < (rounds.take (i + 1)).sum := by
  induction rounds generalizing left i with
  | nil => simp [flags]
  | cons n rounds ih =>
      rw [flags, signals_some]
      by_cases h : left < n
      · rw [if_pos h]
        cases i with
        | zero => simpa using h
        | succ i =>
            refine iff_of_false (flags_none rounds i) fun hsum => ?_
            simp only [List.take_succ_cons, List.sum_cons] at hsum
            omega
      · rw [if_neg h]
        cases i with
        | zero => simpa using h
        | succ i =>
            simp only [List.getElem?_cons_succ, ih, List.take_succ_cons, List.sum_cons]
            omega

section Rounds

variable {rounds : List Nat}

theorem sum_take_mono (rounds : List Nat) {i j : Nat} (h : i ≤ j) : (rounds.take i).sum ≤ (rounds.take j).sum := by
  induction rounds generalizing i j with
  | nil => simp
  | cons n rounds ih =>
      cases i with
      | zero => simp
      | succ i =>
          cases j with
          | zero => omega
          | succ j =>
              simp only [List.take_succ_cons, List.sum_cons]
              have hmono := ih (Nat.le_of_succ_le_succ h)
              omega

/-- Rounds with a signal each give at least as many signals as there are rounds. -/
theorem le_sum_take (hpos : ∀ n ∈ rounds, 0 < n) {i : Nat} (hi : i ≤ rounds.length) :
    i ≤ (rounds.take i).sum := by
  induction rounds generalizing i with
  | nil => simpa using hi
  | cons n rounds ih =>
      cases i with
      | zero => exact Nat.zero_le _
      | succ i =>
          have hn := hpos n List.mem_cons_self
          have hrest := ih (fun m hm => hpos m (List.mem_cons_of_mem n hm)) (Nat.le_of_succ_le_succ hi)
          simp only [List.take_succ_cons, List.sum_cons]
          omega

/-- The round in which a number of signals is passed. -/
theorem exists_passing (rounds : List Nat) {left k : Nat} (h : left < (rounds.take k).sum) :
    ∃ i, i < k ∧ (rounds.take i).sum ≤ left ∧ left < (rounds.take (i + 1)).sum := by
  induction k with
  | zero => simp at h
  | succ k ih =>
      by_cases hk : left < (rounds.take k).sum
      · obtain ⟨i, hi, hpass⟩ := ih hk
        exact ⟨i, Nat.lt_succ_of_lt hi, hpass⟩
      · exact ⟨k, Nat.lt_succ_self k, Nat.le_of_not_lt hk, h⟩

/-- The countdown raises in round `k` and in no other. -/
def RaisesAt (flags : List Bool) (k : Nat) : Prop :=
  ∀ i, flags[i]? = some true ↔ i = k ∧ k < flags.length

/-- With `k` signals left the countdown raises in round `k` exactly when the rounds before it
give `k` signals at most. -/
theorem raisesAt_left (hpos : ∀ n ∈ rounds, 0 < n) (k : Nat) :
    RaisesAt (flags rounds (some k)) k ↔ (rounds.take k).sum ≤ k := by
  constructor
  · intro h
    by_contra hover
    obtain ⟨i, hi, hpass⟩ := exists_passing rounds (Nat.lt_of_not_le hover)
    have hik := ((h i).mp ((flags_some rounds k i).mpr hpass)).1
    omega
  · intro hsum i
    rw [flags_some, flags_length]
    constructor
    · rintro ⟨hle, hlt⟩
      have hki : k ≤ i := by
        by_contra hik
        have hmono := sum_take_mono rounds (show i + 1 ≤ k by omega)
        omega
      have hlen : i < rounds.length := by
        by_contra hlen
        have hall : rounds.take (i + 1) = rounds.take i := by
          rw [List.take_of_length_le (by omega), List.take_of_length_le (by omega)]
        rw [hall] at hlt
        omega
      have hmin := le_sum_take hpos (Nat.le_of_lt hlen)
      omega
    · rintro ⟨rfl, hlen⟩
      exact ⟨hsum, le_sum_take hpos hlen⟩

/-- With one signal left the countdown does not raise in a late round unless there are hardly
any rounds. -/
theorem raisesAt_one (hpos : ∀ n ∈ rounds, 0 < n) {k : Nat} (hk : 1 < k) :
    RaisesAt (flags rounds (some 1)) k ↔ rounds.sum ≤ 1 := by
  constructor
  · intro h
    by_contra hover
    have hall : 1 < (rounds.take rounds.length).sum := by
      rw [List.take_length]
      omega
    obtain ⟨i, hi, hpass⟩ := exists_passing rounds hall
    have hik := ((h i).mp ((flags_some rounds 1 i).mpr hpass)).1
    have hmin := le_sum_take hpos (Nat.le_of_lt hi)
    omega
  · intro hsum i
    rw [flags_some, flags_length]
    have hlen : rounds.length ≤ rounds.sum := by
      have hmin := le_sum_take hpos (Nat.le_refl rounds.length)
      rwa [List.take_length] at hmin
    have htotal : (rounds.take (i + 1)).sum ≤ rounds.sum := by
      rcases Nat.le_total rounds.length (i + 1) with h | h
      · rw [List.take_of_length_le h]
      · have hmono := sum_take_mono rounds h
        rwa [List.take_length] at hmono
    constructor
    · rintro ⟨-, hlt⟩
      omega
    · rintro ⟨rfl, hlt⟩
      omega

end Rounds

end Countdown
end RetroCpu
