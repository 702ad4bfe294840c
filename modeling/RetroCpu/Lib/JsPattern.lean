import RetroCpu.Lib.JsString

/-!
# What a pattern matches

A repeated class takes as much as it can, and less only where the items behind it fail.
-/

namespace RetroCpu
namespace Js

section Repetition

variable {p : Char → Bool} {items : List Item}

/-- The first success, counted from the upper end. -/
theorem findSome_longest {β : Type} {f : Nat → Option β} {lo m n : Nat} {b : β} (hlo : lo ≤ m)
    (hmn : m ≤ n) (hf : f m = some b) (hlonger : ∀ k, m < k → k ≤ n → f k = none) :
    (List.range' lo (n + 1 - lo)).reverse.findSome? f = some b := by
  have hsplit : List.range' lo (n + 1 - lo) =
      List.range' lo (m - lo) ++ (m :: List.range' (m + 1) (n - m)) := by
    rw [← List.range'_succ]
    have happend : List.range' lo (m - lo) 1 ++ List.range' (lo + 1 * (m - lo)) (n - m + 1) 1 = _ :=
      List.range'_append
    rw [Nat.one_mul, Nat.add_sub_cancel' hlo, show m - lo + (n - m + 1) = n + 1 - lo by omega]
      at happend
    exact happend.symm
  have hnone : (List.range' (m + 1) (n - m)).reverse.findSome? f = none := by
    rw [List.findSome?_eq_none_iff]
    intro k hk
    rw [List.mem_reverse, List.mem_range'_1] at hk
    exact hlonger k (by omega) (by omega)
  rw [hsplit, List.reverse_append, List.reverse_cons, List.findSome?_append, List.findSome?_append,
    hnone, List.findSome?_singleton, hf]
  rfl

theorem takeWhile_append_stop {seg rest : List Char} (hp : ∀ c ∈ seg, p c = true)
    (hrest : ∀ c ∈ rest.head?, p c = false) : (seg ++ rest).takeWhile p = seg := by
  rw [List.takeWhile_append_of_pos hp]
  cases rest with
  | nil => rw [List.takeWhile_nil, List.append_nil]
  | cons c rest =>
      rw [List.takeWhile_cons_of_neg (by simp [hrest c rfl]), List.append_nil]

/-- What a repeated class takes, when it need not give anything back. -/
theorem matchPrefix_run {lo : Nat} {seg rest : List Char} {r : List (List Char) × List Char}
    (hp : ∀ c ∈ seg, p c = true) (hrest : ∀ c ∈ rest.head?, p c = false) (hlo : lo ≤ seg.length)
    (hmatch : matchPrefix items rest = some r) :
    matchPrefix (.run p lo none :: items) (seg ++ rest) = some (seg :: r.1, r.2) := by
  rw [matchPrefix, Item.splits]
  rw [takeWhile_append_stop hp hrest, Option.map_none, Option.getD_none, List.findSome?_map]
  refine findSome_longest hlo (Nat.le_refl _) ?_ fun k hk hle => absurd hk (Nat.not_lt.mpr hle)
  rw [Function.comp_apply, List.take_left, List.drop_left, hmatch]
  rfl

theorem matchPrefix_star {seg rest : List Char} {r : List (List Char) × List Char}
    (hp : ∀ c ∈ seg, p c = true) (hrest : ∀ c ∈ rest.head?, p c = false)
    (hmatch : matchPrefix items rest = some r) :
    matchPrefix (.star p :: items) (seg ++ rest) = some (seg :: r.1, r.2) :=
  matchPrefix_run hp hrest (Nat.zero_le _) hmatch

theorem matchPrefix_plus {seg rest : List Char} {r : List (List Char) × List Char}
    (hne : seg ≠ []) (hp : ∀ c ∈ seg, p c = true) (hrest : ∀ c ∈ rest.head?, p c = false)
    (hmatch : matchPrefix items rest = some r) :
    matchPrefix (.plus p :: items) (seg ++ rest) = some (seg :: r.1, r.2) :=
  matchPrefix_run hp hrest (List.length_pos_iff.mpr hne) hmatch

theorem matchAll_run {lo : Nat} {seg rest : List Char} {r : List (List Char)}
    (hp : ∀ c ∈ seg, p c = true) (hrest : ∀ c ∈ rest.head?, p c = false) (hlo : lo ≤ seg.length)
    (hmatch : matchAll items rest = some r) :
    matchAll (.run p lo none :: items) (seg ++ rest) = some (seg :: r) := by
  rw [matchAll, Item.splits]
  rw [takeWhile_append_stop hp hrest, Option.map_none, Option.getD_none, List.findSome?_map]
  refine findSome_longest hlo (Nat.le_refl _) ?_ fun k hk hle => absurd hk (Nat.not_lt.mpr hle)
  rw [Function.comp_apply, List.take_left, List.drop_left, hmatch]
  rfl

/-- One character of a class. -/
theorem splits_one (c : Char) (cs : List Char) :
    (Item.one p).splits (c :: cs) = if p c then [([c], cs)] else [] := by
  rw [Item.one, Item.splits]
  by_cases h : p c = true
  · have hmin : min (c :: cs.takeWhile p).length 1 = 1 := by
      rw [List.length_cons]
      omega
    rw [List.takeWhile_cons_of_pos h, if_pos h, Option.map_some, Option.getD_some, hmin]
    rfl
  · rw [List.takeWhile_cons_of_neg h, if_neg h]
    rfl

theorem matchPrefix_one {c : Char} {cs : List Char} (h : p c = true) :
    matchPrefix (.one p :: items) (c :: cs) =
      (matchPrefix items cs).map fun r => ([c] :: r.1, r.2) := by
  rw [matchPrefix, splits_one, if_pos h, List.findSome?_singleton]

theorem matchPrefix_one_none {c : Char} {cs : List Char} (h : p c = false) :
    matchPrefix (.one p :: items) (c :: cs) = none := by
  rw [matchPrefix, splits_one, h]
  rfl

theorem matchAll_one {c : Char} {cs : List Char} (h : p c = true) :
    matchAll (.one p :: items) (c :: cs) = (matchAll items cs).map fun r => [c] :: r := by
  rw [matchAll, splits_one, if_pos h, List.findSome?_singleton]

theorem matchAll_one_none {c : Char} {cs : List Char} (h : p c = false) :
    matchAll (.one p :: items) (c :: cs) = none := by
  rw [matchAll, splits_one, h]
  rfl

/-- A repeated class gives back just what the items behind it need. -/
theorem matchAll_plus {seg tail : List Char} {r : List (List Char)}
    (hp : ∀ c ∈ seg ++ tail, p c = true) (hne : seg ≠ []) (hmatch : matchAll items tail = some r)
    (hlonger : ∀ k, 0 < k → k ≤ tail.length → matchAll items (tail.drop k) = none) :
    matchAll (.plus p :: items) (seg ++ tail) = some (seg :: r) := by
  have htake : (seg ++ tail).takeWhile p = seg ++ tail := by
    have hnil : ∀ c ∈ ([] : List Char).head?, p c = false := fun c hc => by cases hc
    have happend := takeWhile_append_stop hp hnil
    rwa [List.append_nil] at happend
  rw [matchAll, Item.plus, Item.splits]
  rw [htake, Option.map_none, Option.getD_none, List.findSome?_map]
  refine findSome_longest (List.length_pos_iff.mpr hne) (m := seg.length) ?_ ?_ ?_
  · rw [List.length_append]
    omega
  · rw [Function.comp_apply, List.take_left, List.drop_left, hmatch]
    rfl
  · intro k hk hle
    rw [List.length_append] at hle
    have hdrop : (seg ++ tail).drop k = tail.drop (k - seg.length) := by
      rw [List.drop_append, List.drop_eq_nil_of_le (by omega), List.nil_append]
    rw [Function.comp_apply, hdrop, hlonger _ (by omega) (by omega)]
    rfl

end Repetition

section Absence

/-- No part of the input can be taken by the item. -/
def Item.Absent (item : Item) (cs : List Char) : Prop :=
  ∀ rest, rest <:+ cs → item.splits rest = []

theorem absent_char {c : Char} {cs : List Char} (h : c ∉ cs) : (Item.char c).Absent cs := by
  intro rest hrest
  rw [List.eq_nil_iff_forall_not_mem]
  intro split hsplit
  obtain ⟨happend, hall, hlen⟩ := mem_splits_run hsplit
  cases hseg : split.1 with
  | nil =>
      rw [hseg] at hlen
      exact absurd hlen (by decide)
  | cons d ds =>
      have hd := hall d (by rw [hseg]; exact List.mem_cons_self)
      refine h (hrest.subset ?_)
      rw [happend, hseg, ← eq_of_beq hd]
      exact List.mem_cons_self

theorem absent_word {ws : List String} {cs : List Char}
    (h : ∀ w ∈ ws, ∃ d ∈ w.toList, ∀ c ∈ cs, c.toLower ≠ d.toLower) :
    (Item.word ws).Absent cs := by
  intro rest hrest
  rw [List.eq_nil_iff_forall_not_mem]
  intro split hsplit
  obtain ⟨w, hw, -⟩ := List.mem_map.mp hsplit
  obtain ⟨hw, hsame⟩ := List.mem_filter.mp hw
  obtain ⟨d, hd, hnone⟩ := h w hw
  have hlower : d.toLower ∈ (rest.take w.length).map Char.toLower := by
    rw [← eq_of_beq hsame]
    exact List.mem_map_of_mem hd
  obtain ⟨c, hc, heq⟩ := List.mem_map.mp hlower
  exact hnone c (hrest.subset (List.mem_of_mem_take hc)) heq

variable {item : Item} {items : List Item} {cs : List Char}

theorem Item.Absent.suffix {rest : List Char} (h : item.Absent cs) (hrest : rest <:+ cs) :
    item.Absent rest :=
  fun rest' hrest' => h rest' (hrest'.trans hrest)

theorem suffix_of_mem_splits {item : Item} {split : List Char × List Char}
    (h : split ∈ item.splits cs) : split.2 <:+ cs := ⟨split.1, (mem_splits h).symm⟩

theorem matchAll_absent (hmem : item ∈ items) (h : item.Absent cs) : matchAll items cs = none := by
  induction items generalizing cs with
  | nil => exact absurd hmem List.not_mem_nil
  | cons first items ih =>
      rw [matchAll, List.findSome?_eq_none_iff]
      intro split hsplit
      rcases List.mem_cons.mp hmem with rfl | hmem
      · rw [h cs (List.suffix_refl _)] at hsplit
        exact absurd hsplit List.not_mem_nil
      · rw [ih hmem (h.suffix (suffix_of_mem_splits hsplit))]
        rfl

theorem matchPrefix_absent (hmem : item ∈ items) (h : item.Absent cs) :
    matchPrefix items cs = none := by
  induction items generalizing cs with
  | nil => exact absurd hmem List.not_mem_nil
  | cons first items ih =>
      rw [matchPrefix, List.findSome?_eq_none_iff]
      intro split hsplit
      rcases List.mem_cons.mp hmem with rfl | hmem
      · rw [h cs (List.suffix_refl _)] at hsplit
        exact absurd hsplit List.not_mem_nil
      · rw [ih hmem (h.suffix (suffix_of_mem_splits hsplit))]
        rfl

end Absence

end Js
end RetroCpu
