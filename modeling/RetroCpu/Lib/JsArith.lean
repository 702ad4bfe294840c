import RetroCpu.Lib.JsNumber

/-!
# Arithmetic on JavaScript numbers without fractions

The numbers that arise from integers by `+`, `-`, `*`, `Math.trunc(x / y)` and `%`: the
integers that a double represents, the infinities and `NaN`.  A result that needs more than
53 bits is rounded to the nearest representable integer, ties to even.
-/

namespace RetroCpu
namespace Js

/-- A JavaScript number without a fraction. -/
inductive Number
  | int (n : Int)
  | infinity (negative : Bool)
  | nan
deriving DecidableEq, Repr

namespace Number

/-- `n / d` rounded to an integer, ties to even. -/
def roundQuotient (n d : Nat) : Nat :=
  let q := n / d
  let r := n % d
  if 2 * r > d ∨ (2 * r = d ∧ q % 2 = 1) then q + 1 else q

/-- The nearest integer of 53 significant bits, for `n` of at least that length. -/
def roundNat (n : Nat) : Nat :=
  let unit := 2 ^ (n.log2 - 52)
  roundQuotient n unit * unit

/-- The double nearest to `n`. -/
def ofInt (n : Int) : Number :=
  if n.natAbs < 2 ^ 53 then int n
  else
    let a := roundNat n.natAbs
    if a.log2 ≥ 1024 then infinity (n < 0) else int (n.sign * (a : Int))

def isNegative : Number → Bool
  | int n => n < 0
  | infinity negative => negative
  | nan => false

/-- `x < k` for an integer `k` -/
def ltInt (x : Number) (k : Int) : Bool :=
  match x with
  | int n => n < k
  | infinity negative => negative
  | nan => false

/-- `x > k` for an integer `k` -/
def gtInt (x : Number) (k : Int) : Bool :=
  match x with
  | int n => n > k
  | infinity negative => !negative
  | nan => false

/-- `Number.isInteger(x)` -/
def isInteger : Number → Bool
  | int _ => true
  | _ => false

/-- The operand of a bitwise operator: what is not finite counts as 0. -/
def bits : Number → Int
  | int n => n
  | _ => 0

/-- `String(x)` of the numbers below `10 ^ 21` in magnitude -/
def toString : Number → String
  | int n => Int.repr n
  | infinity true => "-Infinity"
  | infinity false => "Infinity"
  | nan => "NaN"

def neg : Number → Number
  | int n => int (-n)
  | infinity negative => infinity (!negative)
  | nan => nan

def add : Number → Number → Number
  | int m, int n => ofInt (m + n)
  | infinity s, infinity t => if s = t then infinity s else nan
  | infinity s, int _ => infinity s
  | int _, infinity t => infinity t
  | nan, _ => nan
  | _, nan => nan

def sub (x y : Number) : Number := add x (neg y)

def mul : Number → Number → Number
  | int m, int n => ofInt (m * n)
  | nan, _ => nan
  | _, nan => nan
  | x, y => if x = int 0 ∨ y = int 0 then nan else infinity (x.isNegative != y.isNegative)

/-- `Math.trunc(n / d)` of natural numbers, with the rounding of the quotient. -/
def truncQuotient (n d : Nat) : Nat :=
  let q := n / d
  if n < 2 ^ 53 ∨ q = 0 then q
  else if q < 2 ^ 53 then
    let scale := 2 ^ (52 - q.log2)
    roundQuotient (n * scale) d / scale
  else
    let unit := 2 ^ (q.log2 - 52)
    roundQuotient n (d * unit) * unit

/-- `Math.trunc(x / y)`, for `y` other than 0 -/
def divTrunc : Number → Number → Number
  | int m, int n => ofInt (m.sign * n.sign * (truncQuotient m.natAbs n.natAbs : Int))
  | infinity s, int n => infinity (s != decide (n < 0))
  | int _, infinity _ => int 0
  | _, _ => nan

/-- `x % y`, for `y` other than 0 -/
def rem : Number → Number → Number
  | int m, int n => int (m.tmod n)
  | int m, infinity _ => int m
  | _, _ => nan

@[simp] theorem ofInt_of_small {n : Int} (h : n.natAbs < 2 ^ 53) : ofInt n = int n :=
  if_pos h

end Number

end Js
end RetroCpu
