import RetroCpu.EmuTs.Mn1613

/-!
# The TypeScript MN1613 core: IBM hexadecimal floating point

A JavaScript number that is not known to be an integer is a double, here `Float`.
The registers receive only the words built by the final integer operations of
`fpToWords`, so whatever the arithmetic on doubles yields, two words are written.
-/

namespace RetroCpu
namespace EmuTs
namespace Mn1613

open Js Prog RetroCpu.Mn1613

/-- A number that holds an integer, as a double. -/
def toDouble (x : Int) : Float := Float.ofInt x

/-- An integral double of moderate size, as a number. -/
def ofDouble (x : Float) : Int := x.toInt64.toInt

/-- `_fpFromWords` -/
def fpFromWords (w0 w1 : Int) : Float :=
  if lor w0 w1 = 0 then 0
  else
    let sign := ushr w0 15
    let exp := land (ushr w0 8) 0x7f
    let mant := lor (shl (land w0 0xff) 16) (land w1 0xffff)
    let val := toDouble mant * Float.pow 16 (toDouble (exp - 70))
    if sign ≠ 0 then -val else val

/-- Result of `_fpToWords`. -/
structure FpWords where
  w0 : Int
  w1 : Int
  overflow : Bool

/-- `while (mant < 0x100000 && exp > 0) { mant *= 16; exp--; }`; `exp` decreases
to zero at most. -/
def fpScaleUp : Nat → Float → Int → Float × Int
  | 0, mant, exp => (mant, exp)
  | n + 1, mant, exp =>
      if mant < 0x100000 ∧ exp > 0 then fpScaleUp n (mant * 16) (exp - 1) else (mant, exp)

/-- `while (mant >= 0x1000000 && exp < 127) { mant = Math.floor(mant / 16); exp++; }` -/
def fpScaleDown : Nat → Float → Int → Float × Int
  | 0, mant, exp => (mant, exp)
  | n + 1, mant, exp =>
      if mant ≥ 0x1000000 ∧ exp < 127 then
        fpScaleDown n (Float.floor (mant / 16)) (exp + 1)
      else (mant, exp)

/-- The two words of a sign, an exponent and a mantissa. -/
def fpPack (sign exp mant : Int) : FpWords :=
  let mant := land mant 0xffffff
  { w0 := lor (lor (shl sign 15) (shl (land exp 0x7f) 8)) (land (ushr mant 16) 0xff)
    w1 := land mant 0xffff
    overflow := false }

/-- `_fpToWords` -/
def fpToWords (v : Float) : FpWords :=
  if v == 0 then ⟨0, 0, false⟩
  else if ¬ v.isFinite then ⟨0, 0, true⟩
  else
    let sign : Int := if v < 0 then 1 else 0
    let abs := Float.abs v
    let e := Float.floor (Float.log abs / Float.log 16) + 65
    if ¬ e.isFinite then ⟨0, 0, true⟩
    else
      let exp := ofDouble e
      let mant := Float.round (abs * Float.pow 16 (toDouble (70 - exp)))
      let (mant, exp) := fpScaleUp exp.toNat mant exp
      let (mant, exp) := fpScaleDown (127 - exp).toNat mant exp
      if exp < 0 ∨ mant < 0x100000 then ⟨0, 0, false⟩
      else if exp > 127 ∨ mant ≥ 0x1000000 then ⟨0, 0, true⟩
      else fpPack sign exp (ofDouble mant)

variable {σ : Type}

/-- `_fpDecode` -/
def fpDecode : M σ Float := reg fun r => fpFromWords (r.R 0) (r.R 1)

/-- `_fpEncode` -/
def fpEncode (v : Float) : M σ Unit := do
  let enc := fpToWords v
  setR 0 enc.w0
  setR 1 enc.w1
  setOVF enc.overflow

variable (bd : Board σ)

/-- `_fpDecodeAt` -/
def fpDecodeAt (ea : Int) : M σ Float := do
  let w0 ← rdC bd ea
  let w1 ← rdC bd (land (ea + 1) 0xffff)
  return fpFromWords w0 w1

/-- The value that a double-word operation hands to the skip test. -/
def dr0 : M σ Int := reg fun r => lor (r.R 0) (r.R 1)

/-- `_fpFinish` -/
def fpFinish (kkkk : Int) : M σ Unit := do
  setE false
  skipIf bd kkkk (← dr0)

/-- `Math.trunc` -/
def trunc (x : Float) : Float := if x < 0 then Float.ceil x else Float.floor x

end Mn1613
end EmuTs
end RetroCpu
