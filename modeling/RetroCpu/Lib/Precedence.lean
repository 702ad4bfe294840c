import Mathlib.Data.List.Forall2
import RetroCpu.Lib.Checked

/-!
# Expressions by recursive descent

An expression is read from a list of tokens: operands, prefix operators, brackets, and
levels of binary operators that associate to the left, the tightest level first.  The
values and the errors belong to an `Algebra`, so that one parser serves several evaluators.

`Derives` is the grammar and `Tree` its parse trees.  A successful run of the parser has
read a derivable list of tokens and returns the value of its tree, and every derivable list
whose tree has a value is read.
-/

namespace RetroCpu
namespace Precedence

open Checked

variable {ε α : Type}

section Parser

/-- A parsing function: the value, and the tokens that are left. -/
abbrev Parse (ε α : Type) := List String → Except ε (α × List String)

/-- A binary operator. -/
abbrev Operator (ε α : Type) := α → α → Except ε α

/-- What operands and operators mean. -/
structure Algebra (ε α : Type) where
  /-- The value of an operand. -/
  atom : String → Except ε α
  unary : String → Option (α → Except ε α)
  /-- The binary operators, the tightest level first. -/
  levels : List (String → Option (Operator ε α))
  noOperand : ε
  noBracket : ε

/-- Further operands of a level, joined from the left. -/
def chainLoop (next : Parse ε α) (operator : String → Option (Operator ε α)) :
    Nat → α → Parse ε α
  | 0, v, ts => .ok (v, ts)
  | _ + 1, v, [] => .ok (v, [])
  | fuel + 1, v, t :: ts =>
      match operator t with
      | none => .ok (v, t :: ts)
      | some f => do
          let (r, ts) ← next ts
          chainLoop next operator fuel (← f v r) ts

attribute [grind =] chainLoop

/-- A level: operands of the next level, joined from the left. -/
def chain (next : Parse ε α) (operator : String → Option (Operator ε α)) : Parse ε α :=
  fun ts => do
    let (v, ts) ← next ts
    chainLoop next operator ts.length v ts

/-- The bracket that closes an expression. -/
def closeBracket (noBracket : ε) (v : α) : Parse ε α
  | [] => .error noBracket
  | t :: ts => if t = ")" then .ok (v, ts) else .error noBracket

/-- Brackets, prefix operators and operands; `inner` reads what stands in brackets. -/
def primary (A : Algebra ε α) (inner : Parse ε α) : Parse ε α
  | [] => .error A.noOperand
  | t :: ts =>
      if t = "(" then do
        let (v, ts) ← inner ts
        closeBracket A.noBracket v ts
      else
        match A.unary t with
        | some f => do
            let (v, ts) ← primary A inner ts
            return (← f v, ts)
        | none => do return (← A.atom t, ts)

attribute [grind =] primary

/-- The levels above the operands. -/
def climb (first : Parse ε α) (levels : List (String → Option (Operator ε α))) : Parse ε α :=
  levels.foldl chain first

/-- A whole expression; every nested call has consumed a bracket. -/
def expression (A : Algebra ε α) : Nat → Parse ε α
  | 0 => fun _ => .error A.noOperand
  | fuel + 1 => climb (primary A (expression A fuel)) A.levels

end Parser

section Grammar

/-- Parse trees; a binary node names its level. -/
inductive Tree
  | atom (t : String)
  | unary (t : String) (e : Tree)
  | binary (level : Nat) (t : String) (l r : Tree)
deriving DecidableEq, Repr

variable (A : Algebra ε α)

/-- An operator of a level. -/
def Algebra.binary (level : Nat) (t : String) : Option (Operator ε α) :=
  A.levels[level]?.bind fun table => table t

/-- The value of a tree. -/
def eval : Tree → Except ε α
  | .atom t => A.atom t
  | .unary t e => do
      let v ← eval e
      match A.unary t with
      | some f => f v
      | none => .error A.noOperand
  | .binary level t l r => do
      let v ← eval l
      let w ← eval r
      match A.binary level t with
      | some f => f v w
      | none => .error A.noOperand

attribute [grind =] eval

/-- The grammar: `level` binary levels have been climbed. -/
inductive Derives : Nat → List String → Tree → Prop
  | atom {t : String} (hb : t ≠ "(") (hu : A.unary t = none) : Derives 0 [t] (.atom t)
  | bracket {ts : List String} {e : Tree} (h : Derives A.levels.length ts e) :
      Derives 0 ("(" :: (ts ++ [")"])) e
  | unary {t : String} {ts : List String} {e : Tree} (hb : t ≠ "(")
      (hu : (A.unary t).isSome) (h : Derives 0 ts e) : Derives 0 (t :: ts) (.unary t e)
  | up {level : Nat} {ts : List String} {e : Tree} (h : Derives level ts e) :
      Derives (level + 1) ts e
  | binary {level : Nat} {ts us : List String} {l r : Tree} {t : String}
      (hl : Derives (level + 1) ts l) (ht : (A.binary level t).isSome)
      (hr : Derives level us r) :
      Derives (level + 1) (ts ++ t :: us) (.binary level t l r)

end Grammar

section Soundness

variable {A : Algebra ε α}

/-- What `p` reads is derivable at a level, and its value is that of the tree. -/
def Sound (A : Algebra ε α) (level : Nat) (p : Parse ε α) : Prop :=
  ∀ ts v rest, p ts = .ok (v, rest) →
    ∃ us e, ts = us ++ rest ∧ Derives A level us e ∧ eval A e = .ok v

theorem chainLoop_sound {level : Nat} {next : Parse ε α}
    {operator : String → Option (Operator ε α)} (hop : ∀ t, A.binary level t = operator t)
    (hnext : Sound A level next) (fuel : Nat) :
    ∀ (v : α) (ts : List String) (w : α) (rest us : List String) (e : Tree),
      chainLoop next operator fuel v ts = .ok (w, rest) →
      Derives A (level + 1) us e → eval A e = .ok v →
      ∃ us' e', us ++ ts = us' ++ rest ∧ Derives A (level + 1) us' e' ∧ eval A e' = .ok w := by
  induction fuel with
  | zero =>
      intro v ts w rest us e h hd he
      obtain ⟨rfl, rfl⟩ : v = w ∧ ts = rest := by simpa [chainLoop] using h
      exact ⟨us, e, rfl, hd, he⟩
  | succ fuel ih =>
      intro v ts w rest us e h hd he
      cases ts with
      | nil =>
          obtain ⟨rfl, rfl⟩ : v = w ∧ [] = rest := by simpa [chainLoop] using h
          exact ⟨us, e, rfl, hd, he⟩
      | cons t ts =>
          cases hf : operator t with
          | none =>
              obtain ⟨rfl, rfl⟩ : v = w ∧ t :: ts = rest := by simpa [chainLoop, hf] using h
              exact ⟨us, e, rfl, hd, he⟩
          | some f =>
              simp only [chainLoop, hf, bind_eq_ok] at h
              obtain ⟨⟨r, ts'⟩, hr, x, hx, hrest⟩ := h
              obtain ⟨vs, d, rfl, hdd, hed⟩ := hnext _ _ _ hr
              have hb : A.binary level t = some f := by rw [hop, hf]
              have hd' : Derives A (level + 1) (us ++ t :: vs) (.binary level t e d) :=
                .binary hd (by simp [hb]) hdd
              have he' : eval A (.binary level t e d) = .ok x := by
                simp [eval, he, hed, hb, hx, bind, Except.bind]
              obtain ⟨us', e', heq, hd'', he''⟩ := ih x ts' w rest _ _ hrest hd' he'
              exact ⟨us', e', by simpa using heq, hd'', he''⟩

theorem chain_sound {level : Nat} {next : Parse ε α}
    {operator : String → Option (Operator ε α)} (hop : ∀ t, A.binary level t = operator t)
    (hnext : Sound A level next) : Sound A (level + 1) (chain next operator) := by
  intro ts v rest h
  simp only [chain, bind_eq_ok] at h
  obtain ⟨⟨x, ts'⟩, hx, hrest⟩ := h
  obtain ⟨us, e, rfl, hd, he⟩ := hnext _ _ _ hx
  exact chainLoop_sound hop hnext _ x ts' v rest us e hrest hd.up he

theorem climb_sound {first : Parse ε α} (levels : List (String → Option (Operator ε α))) :
    ∀ level, (∀ i t, A.binary (level + i) t = levels[i]?.bind fun table => table t) →
      Sound A level first → Sound A (level + levels.length) (climb first levels) := by
  induction levels generalizing first with
  | nil =>
      intro level _ hfirst
      exact hfirst
  | cons table levels ih =>
      intro level hop hfirst
      have hchain : Sound A (level + 1) (chain first table) :=
        chain_sound (fun t => by simpa using hop 0 t) hfirst
      have hrest := ih (level + 1) (fun i t => by
        have := hop (i + 1) t
        rw [show level + 1 + i = level + (i + 1) by omega]
        simpa using this) hchain
      rw [List.length_cons, show level + (levels.length + 1) = level + 1 + levels.length by omega]
      exact hrest

theorem closeBracket_eq_ok {e : ε} {v w : α} {ts rest : List String} :
    closeBracket e v ts = .ok (w, rest) ↔ v = w ∧ ts = ")" :: rest := by
  cases ts with
  | nil => simp [closeBracket]
  | cons t ts =>
      by_cases ht : t = ")"
      · simp [closeBracket, ht]
      · simp [closeBracket, ht]

theorem primary_sound {inner : Parse ε α} (hinner : Sound A A.levels.length inner) :
    Sound A 0 (primary A inner) := by
  intro ts
  induction ts with
  | nil =>
      intro v rest h
      cases h
  | cons t ts ih =>
      intro v rest h
      by_cases hb : t = "("
      · simp only [primary, if_pos hb, bind_eq_ok] at h
        obtain ⟨⟨x, ts'⟩, hx, hclose⟩ := h
        obtain ⟨rfl, rfl⟩ := closeBracket_eq_ok.mp hclose
        obtain ⟨us, e, rfl, hd, he⟩ := hinner _ _ _ hx
        subst hb
        exact ⟨"(" :: (us ++ [")"]), e, by simp, .bracket hd, he⟩
      · cases hu : A.unary t with
        | some f =>
            simp only [primary, if_neg hb, hu, bind_eq_ok, pure_eq_ok] at h
            obtain ⟨⟨x, ts'⟩, hx, y, hy, heq⟩ := h
            obtain ⟨rfl, rfl⟩ := Prod.mk.inj heq
            obtain ⟨us, e, rfl, hd, he⟩ := ih _ _ hx
            refine ⟨t :: us, .unary t e, by simp, .unary hb (by simp [hu]) hd, ?_⟩
            simp [eval, he, hu, hy, bind, Except.bind]
        | none =>
            simp only [primary, if_neg hb, hu, bind_eq_ok, pure_eq_ok] at h
            obtain ⟨x, hx, heq⟩ := h
            obtain ⟨rfl, rfl⟩ := Prod.mk.inj heq
            exact ⟨[t], .atom t, rfl, .atom hb hu, hx⟩

theorem expression_sound (fuel : Nat) : Sound A A.levels.length (expression A fuel) := by
  induction fuel with
  | zero =>
      intro ts v rest h
      cases h
  | succ fuel ih =>
      have h := climb_sound (A := A) A.levels 0 (fun i t => by simp [Algebra.binary])
        (primary_sound ih)
      rw [Nat.zero_add] at h
      exact h

end Soundness

section Operands

variable {A : Algebra ε α}

/-- What the first level reads to the end, the levels above pass on. -/
theorem climb_all {first : Parse ε α} {ts : List String} {v : α} (h : first ts = .ok (v, []))
    (levels : List (String → Option (Operator ε α))) : climb first levels ts = .ok (v, []) := by
  induction levels generalizing first with
  | nil => exact h
  | cons table levels ih =>
      refine ih ?_
      rw [chain, h]
      cases ts with
      | nil => rfl
      | cons t ts => rfl

/-- An operand alone is an expression. -/
theorem expression_atom {t : String} {v : α} (hb : t ≠ "(") (hu : A.unary t = none)
    (hv : A.atom t = .ok v) (fuel : Nat) : expression A (fuel + 1) [t] = .ok (v, []) := by
  refine climb_all ?_ A.levels
  rw [primary, if_neg hb, hu, hv]
  rfl

/-- An operand with a prefix operator is an expression. -/
theorem expression_unary {s t : String} {f : α → Except ε α} {v w : α} (hs : s ≠ "(")
    (hf : A.unary s = some f) (hb : t ≠ "(") (hu : A.unary t = none) (hv : A.atom t = .ok v)
    (hw : f v = .ok w) (fuel : Nat) : expression A (fuel + 1) [s, t] = .ok (w, []) := by
  refine climb_all ?_ A.levels
  rw [primary, if_neg hs, hf, primary, if_neg hb, hu, hv]
  change (f v >>= fun x => pure (x, [])) = _
  rw [hw]
  rfl

end Operands

section Completeness

variable {A : Algebra ε α}

/-- A token is an operator of one level at most, and a closing bracket of none. -/
structure Proper (A : Algebra ε α) : Prop where
  disjoint : ∀ {i j : Nat} {t : String}, (A.binary i t).isSome → (A.binary j t).isSome → i = j
  close : ∀ i, A.binary i ")" = none

/-- No operator of the first levels follows. -/
def Stops (A : Algebra ε α) (level : Nat) (rest : List String) : Prop :=
  ∀ t ∈ rest.head?, ∀ i < level, A.binary i t = none

/-- `p` reads every derivable list of at most `m` tokens. -/
def Complete (A : Algebra ε α) (m level : Nat) (p : Parse ε α) : Prop :=
  ∀ us e v rest, us.length ≤ m → Derives A level us e → eval A e = .ok v →
    Stops A level rest → p (us ++ rest) = .ok (v, rest)

theorem Derives.ne_nil {level : Nat} {us : List String} {e : Tree} (h : Derives A level us e) :
    us ≠ [] := by
  induction h with
  | atom => simp
  | bracket => simp
  | unary => simp
  | up _ ih => exact ih
  | binary => simp

theorem Stops.mono {level n : Nat} {rest : List String} (h : Stops A n rest) (hn : level ≤ n) :
    Stops A level rest :=
  fun t ht i hi => h t ht i (by omega)

theorem chainLoop_stop {level : Nat} {next : Parse ε α}
    {operator : String → Option (Operator ε α)} (hop : ∀ t, A.binary level t = operator t)
    {rest : List String} (h : Stops A (level + 1) rest) (fuel : Nat) (v : α) :
    chainLoop next operator fuel v rest = .ok (v, rest) := by
  cases fuel with
  | zero => rfl
  | succ fuel =>
      cases rest with
      | nil => rfl
      | cons t ts =>
          have ht : operator t = none := by rw [← hop, h t rfl level (by omega)]
          simp [chainLoop, ht]

/-- Behind a derivable prefix the loop of its level goes on. -/
theorem chain_prefix (hA : Proper A) {m level : Nat} {next : Parse ε α}
    {operator : String → Option (Operator ε α)} (hop : ∀ t, A.binary level t = operator t)
    (hnext : Complete A m level next) {us : List String} {e : Tree}
    (h : Derives A (level + 1) us e) :
    ∀ v rest, us.length ≤ m → eval A e = .ok v → Stops A level rest →
      ∃ fuel, rest.length ≤ fuel ∧
        chain next operator (us ++ rest) = chainLoop next operator fuel v rest := by
  generalize hn : level + 1 = n at h
  induction h with
  | atom => simp at hn
  | bracket => simp at hn
  | unary => simp at hn
  | @up k ts e hd _ =>
      intro v rest hm he hstop
      obtain rfl : level = k := by omega
      refine ⟨rest.length, Nat.le_refl _, ?_⟩
      simp [chain, hnext ts e v rest hm hd he hstop, bind, Except.bind]
  | @binary k ts us l r t hl ht hr ihl _ =>
      intro v rest hm he hstop
      obtain rfl : level = k := by omega
      obtain ⟨f, hf⟩ := Option.isSome_iff_exists.mp ht
      simp only [eval, hf, bind_eq_ok] at he
      obtain ⟨x, hx, y, hy, hv⟩ := he
      rw [List.length_append, List.length_cons] at hm
      have hstop' : Stops A level (t :: (us ++ rest)) := by
        rintro t' ⟨⟩ i hi
        cases hi' : A.binary i t with
        | none => rfl
        | some g =>
            have := hA.disjoint (i := i) (j := level) (t := t) (by simp [hi']) ht
            omega
      obtain ⟨fuel, hfuel, hchain⟩ := ihl rfl x (t :: (us ++ rest)) (by omega) hx hstop'
      rw [List.length_cons, List.length_append] at hfuel
      obtain ⟨fuel, rfl⟩ : ∃ k, fuel = k + 1 := ⟨fuel - 1, by omega⟩
      refine ⟨fuel, by omega, ?_⟩
      rw [List.append_assoc, List.cons_append, hchain]
      have hright := hnext us r y rest (by omega) hr hy hstop
      simp [chainLoop, ← hop, hf, hright, hv, bind, Except.bind]

theorem chain_complete (hA : Proper A) {m level : Nat} {next : Parse ε α}
    {operator : String → Option (Operator ε α)} (hop : ∀ t, A.binary level t = operator t)
    (hnext : Complete A m level next) : Complete A m (level + 1) (chain next operator) := by
  intro us e v rest hm hd he hstop
  obtain ⟨fuel, _, hchain⟩ :=
    chain_prefix hA hop hnext hd v rest hm he (hstop.mono (by omega))
  rw [hchain, chainLoop_stop hop hstop]

theorem climb_complete (hA : Proper A) {m : Nat} {first : Parse ε α}
    (levels : List (String → Option (Operator ε α))) :
    ∀ level, (∀ i t, A.binary (level + i) t = levels[i]?.bind fun table => table t) →
      Complete A m level first → Complete A m (level + levels.length) (climb first levels) := by
  induction levels generalizing first with
  | nil =>
      intro level _ hfirst
      exact hfirst
  | cons table levels ih =>
      intro level hop hfirst
      have hchain : Complete A m (level + 1) (chain first table) :=
        chain_complete hA (fun t => by simpa using hop 0 t) hfirst
      have hrest := ih (level + 1) (fun i t => by
        have := hop (i + 1) t
        rw [show level + 1 + i = level + (i + 1) by omega]
        simpa using this) hchain
      rw [List.length_cons, show level + (levels.length + 1) = level + 1 + levels.length by omega]
      exact hrest

theorem primary_complete (hA : Proper A) {m : Nat} {inner : Parse ε α}
    (hinner : Complete A m A.levels.length inner) : Complete A (m + 1) 0 (primary A inner) := by
  intro us e v rest hm hd he hstop
  generalize hn : 0 = n at hd
  induction hd generalizing v with
  | @atom t hb hu =>
      have ht : A.atom t = .ok v := he
      simp [primary, hb, hu, ht, bind, Except.bind, pure, Except.pure]
  | @bracket ts e hd _ =>
      rw [List.length_cons, List.length_append] at hm
      have hclose : Stops A A.levels.length (")" :: rest) := by
        rintro t ⟨⟩ i _
        exact hA.close i
      have hin := hinner ts e v (")" :: rest) (by omega) hd he hclose
      simp [primary, hin, closeBracket, bind, Except.bind]
  | @unary t ts e hb hu hd ih =>
      obtain ⟨f, hf⟩ := Option.isSome_iff_exists.mp hu
      simp only [eval, hf, bind_eq_ok] at he
      obtain ⟨x, hx, hv⟩ := he
      rw [List.length_cons] at hm
      have hrest := ih x (by omega) hx rfl
      simp [primary, hb, hf, hrest, hv, bind, Except.bind, pure, Except.pure]
  | up => simp at hn
  | binary => simp at hn

theorem expression_complete (hA : Proper A) (fuel : Nat) :
    Complete A fuel A.levels.length (expression A fuel) := by
  induction fuel with
  | zero =>
      intro us e v rest hm hd he hstop
      exact absurd (List.eq_nil_of_length_eq_zero (by omega)) hd.ne_nil
  | succ fuel ih =>
      have h := climb_complete (A := A) hA A.levels 0 (fun i t => by simp [Algebra.binary])
        (primary_complete hA ih)
      rw [Nat.zero_add] at h
      exact h

/-- The parser reads a whole list of tokens exactly when it is derivable, with that value. -/
theorem expression_iff (hA : Proper A) {fuel : Nat} {ts : List String} (hfuel : ts.length ≤ fuel)
    (v : α) :
    expression A fuel ts = .ok (v, []) ↔
      ∃ e, Derives A A.levels.length ts e ∧ eval A e = .ok v := by
  constructor
  · intro h
    obtain ⟨us, e, heq, hd, he⟩ := expression_sound fuel ts v [] h
    rw [List.append_nil] at heq
    subst heq
    exact ⟨e, hd, he⟩
  · rintro ⟨e, hd, he⟩
    have h := expression_complete hA fuel ts e v [] hfuel hd he (by
      intro t ht
      cases ht)
    rwa [List.append_nil] at h

end Completeness

section Simulation

variable {δ β : Type}

def errorOf {γ : Type} : Except ε γ → Option ε
  | .ok _ => none
  | .error e => some e

/-- `x` follows `y`: a value of `y` is met by a related one, an error `d` by an outcome that
`E` allows. -/
inductive Follows {α β : Type} (R : α → β → Prop) (E : Option ε → δ → Prop) :
    Except ε α → Except δ β → Prop
  | ok {a : α} {b : β} (h : R a b) : Follows R E (.ok a) (.ok b)
  | error {x : Except ε α} {d : δ} (h : E (errorOf x) d) : Follows R E x (.error d)

/-- An error that allows success allows everything. -/
def Lax (E : Option ε → δ → Prop) : Prop := ∀ d, E none d → ∀ o, E o d

theorem Follows.bind {α' β' : Type} {R : α → β → Prop} {R' : α' → β' → Prop}
    {E : Option ε → δ → Prop} (hE : Lax E) {x : Except ε α} {y : Except δ β}
    {f : α → Except ε α'} {g : β → Except δ β'} (h : Follows R E x y)
    (hf : ∀ a b, R a b → Follows R' E (f a) (g b)) : Follows R' E (x >>= f) (y >>= g) := by
  cases h with
  | ok h => exact hf _ _ h
  | @error x d h =>
      refine .error ?_
      cases x with
      | ok a => exact hE d h _
      | error e => exact h

/-- Values are related, and the same tokens are left. -/
def SameRest (R : α → β → Prop) (x : α × List String) (y : β × List String) : Prop :=
  R x.1 y.1 ∧ x.2 = y.2

/-- One parser follows another. -/
def ParseFollows (R : α → β → Prop) (E : Option ε → δ → Prop) (p : Parse ε α)
    (q : Parse δ β) : Prop :=
  ∀ ts, Follows (SameRest R) E (p ts) (q ts)

/-- The same tokens are operators, with operations that follow each other. -/
inductive SameOperator (R : α → β → Prop) (E : Option ε → δ → Prop) :
    Option (Operator ε α) → Option (Operator δ β) → Prop
  | none : SameOperator R E none none
  | some {f : Operator ε α} {g : Operator δ β}
      (h : ∀ a b a' b', R a b → R a' b' → Follows R E (f a a') (g b b')) :
      SameOperator R E (some f) (some g)

/-- The same for prefix operators. -/
inductive SamePrefix (R : α → β → Prop) (E : Option ε → δ → Prop) :
    Option (α → Except ε α) → Option (β → Except δ β) → Prop
  | none : SamePrefix R E none none
  | some {f : α → Except ε α} {g : β → Except δ β}
      (h : ∀ a b, R a b → Follows R E (f a) (g b)) : SamePrefix R E (some f) (some g)

/-- One algebra follows another, operation by operation. -/
structure Simulates (R : α → β → Prop) (E : Option ε → δ → Prop) (A : Algebra ε α)
    (B : Algebra δ β) : Prop where
  lax : Lax E
  atom : ∀ t, Follows R E (A.atom t) (B.atom t)
  unary : ∀ t, SamePrefix R E (A.unary t) (B.unary t)
  levels : List.Forall₂ (fun f g => ∀ t, SameOperator R E (f t) (g t)) A.levels B.levels
  noOperand : E (some A.noOperand) B.noOperand
  noBracket : E (some A.noBracket) B.noBracket

variable {R : α → β → Prop} {E : Option ε → δ → Prop}

theorem chainLoop_follows (hE : Lax E) {p : Parse ε α} {q : Parse δ β}
    (hp : ParseFollows R E p q) {f : String → Option (Operator ε α)}
    {g : String → Option (Operator δ β)} (hop : ∀ t, SameOperator R E (f t) (g t))
    (fuel : Nat) :
    ∀ a b ts, R a b →
      Follows (SameRest R) E (chainLoop p f fuel a ts) (chainLoop q g fuel b ts) := by
  induction fuel with
  | zero =>
      intro a b ts h
      exact .ok ⟨h, rfl⟩
  | succ fuel ih =>
      intro a b ts h
      cases ts with
      | nil => exact .ok ⟨h, rfl⟩
      | cons t ts =>
          have ht := hop t
          simp only [chainLoop]
          cases hf : f t with
          | none =>
              rw [hf] at ht
              cases hg : g t with
              | none => exact .ok ⟨h, rfl⟩
              | some g' =>
                  rw [hg] at ht
                  cases ht
          | some f' =>
              rw [hf] at ht
              cases hg : g t with
              | none =>
                  rw [hg] at ht
                  cases ht
              | some g' =>
                  rw [hg] at ht
                  cases ht with
                  | some hfg =>
                      refine (hp ts).bind hE ?_
                      rintro ⟨a', ts'⟩ ⟨b', _⟩ ⟨h', rfl⟩
                      refine (hfg a b a' b' h h').bind hE ?_
                      intro x y hxy
                      exact ih x y ts' hxy

theorem climb_follows (hE : Lax E) {fs : List (String → Option (Operator ε α))}
    {gs : List (String → Option (Operator δ β))}
    (hlevels : List.Forall₂ (fun f g => ∀ t, SameOperator R E (f t) (g t)) fs gs) :
    ∀ {p : Parse ε α} {q : Parse δ β}, ParseFollows R E p q →
      ParseFollows R E (climb p fs) (climb q gs) := by
  induction hlevels with
  | nil =>
      intro p q hp
      exact hp
  | @cons f g fs gs hfg _ ih =>
      intro p q hp
      refine ih ?_
      intro ts
      refine (hp ts).bind hE ?_
      rintro ⟨a, ts'⟩ ⟨b, _⟩ ⟨h, rfl⟩
      exact chainLoop_follows hE hp hfg _ a b ts' h

theorem closeBracket_follows {e : ε} {d : δ} (hed : E (some e) d) {a : α} {b : β} (h : R a b)
    (ts : List String) :
    Follows (SameRest R) E (closeBracket e a ts) (closeBracket d b ts) := by
  cases ts with
  | nil => exact .error hed
  | cons t ts =>
      by_cases ht : t = ")"
      · simp only [closeBracket, if_pos ht]
        exact .ok ⟨h, rfl⟩
      · simp only [closeBracket, if_neg ht]
        exact .error hed

theorem primary_follows {A : Algebra ε α} {B : Algebra δ β} (h : Simulates R E A B)
    {p : Parse ε α} {q : Parse δ β} (hp : ParseFollows R E p q) :
    ParseFollows R E (primary A p) (primary B q) := by
  intro ts
  induction ts with
  | nil => exact .error h.noOperand
  | cons t ts ih =>
      by_cases hb : t = "("
      · simp only [primary, if_pos hb]
        refine (hp ts).bind h.lax ?_
        rintro ⟨a, ts'⟩ ⟨b, _⟩ ⟨hab, rfl⟩
        exact closeBracket_follows h.noBracket hab ts'
      · have ht := h.unary t
        simp only [primary, if_neg hb]
        cases hf : A.unary t with
        | none =>
            rw [hf] at ht
            cases hg : B.unary t with
            | none =>
                refine (h.atom t).bind h.lax ?_
                intro a b hab
                exact .ok ⟨hab, rfl⟩
            | some g =>
                rw [hg] at ht
                cases ht
        | some f =>
            rw [hf] at ht
            cases hg : B.unary t with
            | none =>
                rw [hg] at ht
                cases ht
            | some g =>
                rw [hg] at ht
                cases ht with
                | some hfg =>
                    refine ih.bind h.lax ?_
                    rintro ⟨a, ts'⟩ ⟨b, _⟩ ⟨hab, rfl⟩
                    refine (hfg a b hab).bind h.lax ?_
                    intro x y hxy
                    exact .ok ⟨hxy, rfl⟩

/-- Where one algebra follows another, so do the parsers. -/
theorem expression_follows {A : Algebra ε α} {B : Algebra δ β} (h : Simulates R E A B)
    (fuel : Nat) : ParseFollows R E (expression A fuel) (expression B fuel) := by
  induction fuel with
  | zero =>
      intro ts
      exact .error h.noOperand
  | succ fuel ih => exact climb_follows h.lax h.levels (primary_follows h ih)

end Simulation

section Extension

/-- `A` has the operators of `B`, and knows what `B` knows. -/
structure Extends (A B : Algebra ε α) : Prop where
  atom : ∀ t v, B.atom t = .ok v → A.atom t = .ok v
  unary : A.unary = B.unary
  levels : A.levels = B.levels

theorem Follows.same (x : Except ε α) : Follows Eq (fun _ _ => True) x x := by
  cases x with
  | ok v => exact .ok rfl
  | error e => exact .error trivial

theorem Extends.simulates {A B : Algebra ε α} (h : Extends A B) :
    Simulates Eq (fun _ _ => True) A B := by
  constructor
  · exact fun _ h _ => h
  · intro t
    cases ht : B.atom t with
    | ok v =>
        rw [h.atom t v ht]
        exact .ok rfl
    | error e => exact .error trivial
  · intro t
    rw [h.unary]
    cases B.unary t with
    | none => exact .none
    | some f =>
        refine .some ?_
        rintro a _ rfl
        exact Follows.same (f a)
  · rw [h.levels, List.forall₂_same]
    intro f _ t
    cases f t with
    | none => exact .none
    | some f =>
        refine .some ?_
        rintro a _ a' _ rfl rfl
        exact Follows.same (f a a')
  · trivial
  · trivial

/-- A value stays when more operands are known. -/
theorem Extends.expression {A B : Algebra ε α} (h : Extends A B) {fuel : Nat}
    {ts rest : List String} {v : α} (hB : expression B fuel ts = .ok (v, rest)) :
    expression A fuel ts = .ok (v, rest) := by
  have hfollows := expression_follows h.simulates fuel ts
  rw [hB] at hfollows
  generalize hA : Precedence.expression A fuel ts = x at hfollows ⊢
  cases hfollows with
  | @ok a _ hab =>
      obtain ⟨w, us⟩ := a
      obtain ⟨rfl, rfl⟩ := hab
      rfl

end Extension

end Precedence
end RetroCpu
