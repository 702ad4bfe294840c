import Mathlib.Data.Finset.Card
import Mathlib.Data.List.Nodup
import Mathlib.Logic.Relation
import Mathlib.Order.WellFounded

/-!
# Texts that are put into other texts

A text has places where other texts are put in, and so on.  The expansion keeps the names of the
texts that it is in on a stack, and fails where it finds one of them again.
-/

namespace RetroCpu
namespace Inlining

open Relation

section Expansion

/-- A line of a text, a place for another text, or a place where nothing can be put in. -/
inductive Piece (ν α : Type)
  | line (a : α)
  | insert (n : ν)
  | missing

variable {ν α : Type}

/-- The pieces one after the other.  There is no result where one of them has none, and
`some none` is a failure. -/
def collect (f : ν → Option (Option (List α))) : List (Piece ν α) → Option (Option (List α))
  | [] => some (some [])
  | .line a :: ps => (collect f ps).map (Option.map (a :: ·))
  | .insert n :: ps =>
      match f n with
      | none => none
      | some none => some none
      | some (some as) => (collect f ps).map (Option.map (as ++ ·))
  | .missing :: _ => some none

/-- The text of a name with everything put in; `fuel` bounds the depth. -/
def expand [DecidableEq ν] (text : ν → Option (List (Piece ν α))) :
    Nat → List ν → ν → Option (Option (List α))
  | 0, _, _ => none
  | fuel + 1, stack, n =>
      if n ∈ stack then some none
      else
        match text n with
        | none => some none
        | some ps => collect (expand text fuel (stack ++ [n])) ps

/-- One text is put into another. -/
def Includes (text : ν → Option (List (Piece ν α))) (m n : ν) : Prop :=
  ∃ ps, text m = some ps ∧ .insert n ∈ ps

/-- Every text that is reached is there, with nothing missing, and none of them reaches itself. -/
def Whole (text : ν → Option (List (Piece ν α))) (n : ν) : Prop :=
  ∀ m, ReflTransGen (Includes text) n m →
    (∃ ps, text m = some ps ∧ .missing ∉ ps) ∧ ¬ TransGen (Includes text) m m

/-- The lines of some pieces when everything is put in. -/
inductive Yields (text : ν → Option (List (Piece ν α))) : List (Piece ν α) → List α → Prop
  | nil : Yields text [] []
  | line {a : α} {ps : List (Piece ν α)} {as : List α} (hrest : Yields text ps as) :
      Yields text (.line a :: ps) (a :: as)
  | insert {n : ν} {qs ps : List (Piece ν α)} {bs as : List α} (hread : text n = some qs)
      (hinner : Yields text qs bs) (hrest : Yields text ps as) :
      Yields text (.insert n :: ps) (bs ++ as)

end Expansion

section Lemmas

variable {ν α : Type} {text : ν → Option (List (Piece ν α))} {ps : List (Piece ν α)}
  {as bs : List α} {n : ν} {f : ν → Option (Option (List α))}

theorem collect_congr {g : ν → Option (Option (List α))} (h : ∀ n, .insert n ∈ ps → f n = g n) :
    collect f ps = collect g ps := by
  induction ps with
  | nil => rfl
  | cons p ps ih =>
      have hrest := ih fun n hn => h n (List.mem_cons_of_mem _ hn)
      cases p with
      | line a => rw [collect, collect, hrest]
      | insert n => rw [collect, collect, h n List.mem_cons_self, hrest]
      | missing => rfl

/-- Only the texts that are reached count. -/
theorem expand_congr [DecidableEq ν] {text' : ν → Option (List (Piece ν α))} {fuel : Nat}
    {stack : List ν} (h : ∀ m, ReflTransGen (Includes text) n m → text m = text' m) :
    expand text fuel stack n = expand text' fuel stack n := by
  induction fuel generalizing stack n with
  | zero => rfl
  | succ fuel ih =>
      rw [expand, expand, ← h n .refl]
      cases hread : text n with
      | none => rfl
      | some ps =>
          have hinner : collect (expand text fuel (stack ++ [n])) ps =
              collect (expand text' fuel (stack ++ [n])) ps :=
            collect_congr fun m hm => ih fun k hk => h k (.head ⟨ps, hread, hm⟩ hk)
          dsimp only
          rw [hinner]

theorem collect_ne_none (h : ∀ n, .insert n ∈ ps → f n ≠ none) : collect f ps ≠ none := by
  induction ps with
  | nil => exact nofun
  | cons p ps ih =>
      have hrest := ih fun n hn => h n (List.mem_cons_of_mem _ hn)
      cases p with
      | line a =>
          rw [collect]
          exact mt Option.map_eq_none_iff.mp hrest
      | insert n =>
          have hn := h n List.mem_cons_self
          rw [collect]
          cases hf : f n with
          | none => exact absurd hf hn
          | some r =>
              cases r with
              | none => exact nofun
              | some as => exact mt Option.map_eq_none_iff.mp hrest
      | missing => exact nofun

/-- Where the pieces have lines, these are the lines when everything is put in. -/
theorem collect_yields (hf : ∀ n bs, f n = some (some bs) → ∃ qs, text n = some qs ∧
    Yields text qs bs) (h : collect f ps = some (some as)) : Yields text ps as := by
  induction ps generalizing as with
  | nil =>
      cases h
      exact .nil
  | cons p ps ih =>
      cases p with
      | line a =>
          rw [collect] at h
          obtain ⟨r, hr, hmap⟩ := Option.map_eq_some_iff.mp h
          obtain ⟨cs, rfl, rfl⟩ := Option.map_eq_some_iff.mp hmap
          exact .line (ih hr)
      | insert n =>
          rw [collect] at h
          cases hn : f n with
          | none => rw [hn] at h; cases h
          | some r =>
              cases r with
              | none => rw [hn] at h; cases h
              | some bs =>
                  rw [hn] at h
                  obtain ⟨r, hr, hmap⟩ := Option.map_eq_some_iff.mp h
                  obtain ⟨cs, rfl, rfl⟩ := Option.map_eq_some_iff.mp hmap
                  obtain ⟨qs, hread, hinner⟩ := hf n bs hn
                  exact .insert hread hinner (ih hr)
      | missing => cases h

theorem collect_fails (h : collect f ps = some none) :
    .missing ∈ ps ∨ ∃ n, .insert n ∈ ps ∧ f n = some none := by
  induction ps with
  | nil => cases h
  | cons p ps ih =>
      have hlater (hrest : collect f ps = some none) :
          .missing ∈ p :: ps ∨ ∃ n, .insert n ∈ p :: ps ∧ f n = some none := by
        rcases ih hrest with hmissing | ⟨n, hn, hfails⟩
        · exact .inl (List.mem_cons_of_mem _ hmissing)
        · exact .inr ⟨n, List.mem_cons_of_mem _ hn, hfails⟩
      cases p with
      | line a =>
          rw [collect] at h
          obtain ⟨r, hr, hmap⟩ := Option.map_eq_some_iff.mp h
          rw [Option.map_eq_none_iff] at hmap
          exact hlater (hmap ▸ hr)
      | insert n =>
          rw [collect] at h
          cases hn : f n with
          | none => rw [hn] at h; cases h
          | some r =>
              cases r with
              | none => exact .inr ⟨n, List.mem_cons_self, hn⟩
              | some bs =>
                  rw [hn] at h
                  obtain ⟨r, hr, hmap⟩ := Option.map_eq_some_iff.mp h
                  rw [Option.map_eq_none_iff] at hmap
                  exact hlater (hmap ▸ hr)
      | missing => exact .inl List.mem_cons_self

theorem Yields.unique (h : Yields text ps as) (h' : Yields text ps bs) : as = bs := by
  induction h generalizing bs with
  | nil =>
      cases h'
      rfl
  | line hrest ih =>
      cases h' with
      | line hrest' => rw [ih hrest']
  | insert hread hinner hrest ihInner ih =>
      cases h' with
      | insert hread' hinner' hrest' =>
          rw [hread] at hread'
          cases hread'
          rw [ihInner hinner', ih hrest']

/-- Nothing is missing, and what is put in has lines itself. -/
theorem Yields.pieces (h : Yields text ps as) : .missing ∉ ps ∧
    ∀ n, .insert n ∈ ps → ∃ qs bs, text n = some qs ∧ Yields text qs bs := by
  induction h with
  | nil => exact ⟨nofun, nofun⟩
  | line hrest ih =>
      refine ⟨fun hmem => ?_, fun n hn => ?_⟩
      · rcases List.mem_cons.mp hmem with heq | hmem
        · cases heq
        · exact ih.1 hmem
      · rcases List.mem_cons.mp hn with heq | hn
        · cases heq
        · exact ih.2 n hn
  | insert hread hinner hrest _ ih =>
      refine ⟨fun hmem => ?_, fun n hn => ?_⟩
      · rcases List.mem_cons.mp hmem with heq | hmem
        · cases heq
        · exact ih.1 hmem
      · rcases List.mem_cons.mp hn with heq | hn
        · cases heq
          exact ⟨_, _, hread, hinner⟩
        · exact ih.2 n hn

/-- Texts put in one into the other have an end. -/
theorem Yields.acc (h : Yields text ps as) (hn : .insert n ∈ ps) :
    Acc (fun k m => Includes text m k) n := by
  induction h generalizing n with
  | nil => cases hn
  | line _ ih =>
      rcases List.mem_cons.mp hn with heq | hn
      · cases heq
      · exact ih hn
  | insert hread _ _ ihInner ih =>
      rcases List.mem_cons.mp hn with heq | hn
      · cases heq
        refine ⟨_, fun k hk => ?_⟩
        obtain ⟨qs', hread', hmem⟩ := hk
        rw [hread] at hread'
        cases hread'
        exact ihInner hmem
      · exact ih hn

theorem not_self_of_acc {r : ν → ν → Prop} (h : Acc r n) : ¬ r n n := by
  induction h with
  | intro n _ ih => exact fun hself => ih n hself hself

theorem whole_of_yields (hread : text n = some ps) (h : Yields text ps as) : Whole text n := by
  intro m hm
  have hreached : ∃ qs bs, text m = some qs ∧ Yields text qs bs := by
    induction hm with
    | refl => exact ⟨ps, as, hread, h⟩
    | tail _ hstep ih =>
        obtain ⟨qs, bs, hqs, hyields⟩ := ih
        obtain ⟨qs', hqs', hmem⟩ := hstep
        rw [hqs] at hqs'
        cases hqs'
        exact hyields.pieces.2 _ hmem
  obtain ⟨qs, bs, hqs, hyields⟩ := hreached
  refine ⟨⟨qs, hqs, hyields.pieces.1⟩, fun hcycle => ?_⟩
  have hacc : Acc (fun k m => Includes text m k) m := by
    refine ⟨_, fun k hk => ?_⟩
    obtain ⟨qs', hqs', hmem⟩ := hk
    rw [hqs] at hqs'
    cases hqs'
    exact hyields.acc hmem
  exact not_self_of_acc (acc_transGen_iff.mpr hacc) (transGen_swap.mp hcycle)

variable [DecidableEq ν]

theorem expand_yields {fuel : Nat} {stack : List ν}
    (h : expand text fuel stack n = some (some as)) :
    ∃ ps, text n = some ps ∧ Yields text ps as := by
  induction fuel generalizing stack n as with
  | zero => cases h
  | succ fuel ih =>
      rw [expand] at h
      split at h
      · cases h
      · cases hread : text n with
        | none => rw [hread] at h; cases h
        | some ps =>
            rw [hread] at h
            exact ⟨ps, rfl, collect_yields (fun k bs hk => ih hk) h⟩

/-- Every name on the stack reaches the text, so that one found again is on a cycle. -/
theorem expand_fails {fuel : Nat} {stack : List ν} (h : expand text fuel stack n = some none)
    (hstack : ∀ m ∈ stack, TransGen (Includes text) m n) : ¬ Whole text n := by
  induction fuel generalizing stack n with
  | zero => cases h
  | succ fuel ih =>
      intro hwhole
      obtain ⟨⟨ps, hread, hmissing⟩, hcycle⟩ := hwhole n .refl
      rw [expand, hread] at h
      split at h
      next hmem => exact hcycle (hstack n hmem)
      rcases collect_fails h with hmem | ⟨k, hk, hfails⟩
      · exact hmissing hmem
      · have hstep : Includes text n k := ⟨ps, hread, hk⟩
        refine ih hfails (fun m hm => ?_) fun m hm => hwhole m (.head hstep hm)
        rcases List.mem_append.mp hm with hm | hm
        · exact (hstack m hm).tail hstep
        · rw [List.mem_singleton.mp hm]
          exact .single hstep

/-- The names on the stack are different ones that can be read, so that there is an end. -/
theorem expand_ne_none {names : List ν} (hnames : ∀ n, (text n).isSome → n ∈ names) {fuel : Nat}
    {stack : List ν} (hnodup : stack.Nodup) (hsubset : stack ⊆ names)
    (hfuel : names.length < fuel + stack.length) : expand text fuel stack n ≠ none := by
  induction fuel generalizing stack n with
  | zero =>
      have hle := (List.subperm_of_subset hnodup hsubset).length_le
      omega
  | succ fuel ih =>
      rw [expand]
      split
      · exact nofun
      next hmem =>
        cases hread : text n with
        | none => exact nofun
        | some ps =>
            refine collect_ne_none fun k _ => ih ?_ ?_ ?_
            · exact List.nodup_append.mpr ⟨hnodup, List.nodup_singleton n, fun a ha b hb hab =>
                hmem (List.mem_singleton.mp hb ▸ hab ▸ ha)⟩
            · exact List.append_subset.mpr ⟨hsubset, List.cons_subset.mpr
                ⟨hnames n (hread ▸ rfl), List.nil_subset _⟩⟩
            · rw [List.length_append, List.length_singleton]
              omega

/-- The expansion has an end, and succeeds exactly for whole texts, with everything put in. -/
theorem expand_spec (names : List ν) (hnames : ∀ n, (text n).isSome → n ∈ names) {fuel : Nat}
    (hfuel : names.length < fuel) (n : ν) : ∃ r, expand text fuel [] n = some r ∧
      (r.isSome ↔ Whole text n) ∧
      ∀ as, r = some as ↔ ∃ ps, text n = some ps ∧ Yields text ps as := by
  obtain ⟨r, hr⟩ := Option.ne_none_iff_exists'.mp
    (expand_ne_none (n := n) hnames List.nodup_nil (List.nil_subset _) hfuel)
  refine ⟨r, hr, ?_⟩
  cases r with
  | none =>
      have hbroken := expand_fails hr nofun
      refine ⟨iff_of_false Bool.false_ne_true hbroken, fun as => iff_of_false nofun ?_⟩
      rintro ⟨ps, hread, hyields⟩
      exact hbroken (whole_of_yields hread hyields)
  | some as =>
      obtain ⟨ps, hread, hyields⟩ := expand_yields hr
      refine ⟨iff_of_true rfl (whole_of_yields hread hyields), fun bs => ⟨?_, ?_⟩⟩
      · rintro ⟨⟩
        exact ⟨ps, hread, hyields⟩
      · rintro ⟨qs, hread', hyields'⟩
        rw [hread] at hread'
        cases hread'
        rw [hyields.unique hyields']

end Lemmas

end Inlining
end RetroCpu
