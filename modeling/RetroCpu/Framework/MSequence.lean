import RetroCpu.BootMonitor.Mn1613Random
import RetroCpu.Lib.JsNumber

/-!
# The memory of a test before it starts (`m_sequence.ts`, `m_sequence.rs`)

Both test frameworks fill the memory with the numbers of a Galois register.  The register is the
one of the routine `g_get_rnd_` of the monitor: from the same seed, the words of the memory are
what calls of the routine answer one after the other.
-/

namespace RetroCpu
namespace Framework

open Js XorLinear BootMonitor.Mn1613Random

namespace MSequenceTs

def MEM_MSEQ_TAP : Int := 0xb400

/-- `mseqStep` -/
def mseqStep (seed : Int) : Int :=
  let x := land seed 0xffff
  let x := if x = 0 then 1 else x
  let lsb := land x 1
  let x := ushr x 1
  let x := if lsb ≠ 0 then lxor x MEM_MSEQ_TAP else x
  land x 0xffff

/-- `normalizeSeed` -/
def normalizeSeed (seed : Int) : Int :=
  let x := land seed 0xffff
  if x = 0 then 1 else x

/-- The loop of `fillMemoryMSequence` over the rest of the bytes. -/
def fillLoop : Nat → Int → List Int → List Int
  | 0, _, bytes => bytes
  | words + 1, x, bytes =>
      let x := mseqStep x
      land (ushr x 8) 0xff :: land x 0xff :: fillLoop words x (bytes.drop 2)

/-- `fillMemoryMSequence`, with the seed that the time gives. -/
def fillMemoryMSequence (memMseqSeedFromTime : Int) (buf : List Int) (seed : Option Int) :
    List Int × Int :=
  let start := normalizeSeed (seed.getD memMseqSeedFromTime)
  (fillLoop (buf.length / 2) start buf, start)

end MSequenceTs

namespace MSequenceRs

abbrev U8 := BitVec 8
abbrev U16 := BitVec 16

def MEM_MSEQ_TAP : U16 := 0xb400

/-- `mseq_step` -/
def mseqStep (seed : U16) : U16 :=
  let x := if seed = 0 then 1 else seed
  let lsb := x &&& 1
  let x := x >>> 1
  if lsb ≠ 0 then x ^^^ MEM_MSEQ_TAP else x

/-- `normalize_seed` -/
def normalizeSeed (seed : U16) : U16 := if seed = 0 then 1 else seed

/-- The loop of `fill_memory_m_sequence` over the rest of the bytes. -/
def fillLoop : Nat → U16 → List U8 → List U8
  | 0, _, bytes => bytes
  | words + 1, x, bytes =>
      let x := mseqStep x
      (x >>> 8).setWidth 8 :: (x &&& 0xff).setWidth 8 :: fillLoop words x (bytes.drop 2)

/-- `fill_memory_m_sequence`, with the seed that the time gives. -/
def fillMemoryMSequence (memMseqSeedFromTime : U16) (buf : List U8) (seed : Option U16) :
    Except String (List U8 × U16) :=
  if buf.length &&& 1 ≠ 0 then
    .error ("buffer length must be even (got " ++ Nat.repr buf.length ++ ")")
  else
    let start := normalizeSeed (seed.getD memMseqSeedFromTime)
    .ok (fillLoop (buf.length / 2) start buf, start)

end MSequenceRs

section Register

/-- The bytes of a word, the high one first. -/
def wordBytes (x : MSequenceRs.U16) : List MSequenceRs.U8 :=
  [(x >>> 8).setWidth 8, (x &&& 0xff).setWidth 8]

/-- The bytes of the numbers that the register gives behind `x`. -/
def registerBytes : Nat → MSequenceRs.U16 → List MSequenceRs.U8
  | 0, _ => []
  | words + 1, x =>
      wordBytes (galois GL_RND_TAP x) ++ registerBytes words (galois GL_RND_TAP x)

theorem mseqStepRs_eq (seed : MSequenceRs.U16) :
    MSequenceRs.mseqStep seed = galois GL_RND_TAP (started seed) := by
  have hbit := low_bit (started seed)
  rw [MSequenceRs.mseqStep, galois, ← hbit]
  simp only [decide_eq_true_eq]
  rfl

theorem normalizeSeedTs_eq (seed : Int) :
    MSequenceTs.normalizeSeed seed = num (started (BitVec.ofInt 16 seed)) := by
  have hzero (x : MSequenceRs.U16) : num x = 0 ↔ x = 0 := num_eq_ofNat x 0 (by decide)
  rw [MSequenceTs.normalizeSeed, land_word, started]
  simp only [hzero]
  split <;> rfl

theorem num_ite (c : Prop) [Decidable c] (x y : MSequenceRs.U16) :
    (if c then num x else num y) = num (if c then x else y) := by
  split <;> rfl

theorem mseqStepTs_eq (seed : Int) :
    MSequenceTs.mseqStep seed = num (galois GL_RND_TAP (started (BitVec.ofInt 16 seed))) := by
  have hstart : (if land seed 0xffff = 0 then 1 else land seed 0xffff) =
      num (started (BitVec.ofInt 16 seed)) := normalizeSeedTs_eq seed
  generalize started (BitVec.ofInt 16 seed) = x at hstart
  have hone : land (num x) 1 = num (x &&& 1) := land_ofNat x 1 (by decide) (by decide) (by decide)
  have hshift : ushr (num x) 1 = num (x >>> 1) := ushr_ofNat x 1 (by decide) (by decide)
  have htap : lxor (num (x >>> 1)) MSequenceTs.MEM_MSEQ_TAP = num (x >>> 1 ^^^ GL_RND_TAP) :=
    lxor_num (x >>> 1) GL_RND_TAP (by decide)
  have hzero : num (x &&& 1) ≠ 0 ↔ x.getLsbD 0 = true := by
    rw [Ne, num_eq_ofNat _ 0 (by decide), ← low_bit, decide_eq_true_eq]
    rfl
  have hstep : MSequenceTs.mseqStep seed =
      land (if num (x &&& 1) ≠ 0 then num (x >>> 1 ^^^ GL_RND_TAP) else num (x >>> 1)) 0xffff := by
    rw [MSequenceTs.mseqStep, ← hone, ← htap, ← hshift, ← hstart]
  rw [hstep, num_ite, land_ffff_num, galois]
  simp only [hzero]

theorem registerBytes_length (words : Nat) (x : MSequenceRs.U16) :
    (registerBytes words x).length = 2 * words := by
  induction words generalizing x with
  | zero => rfl
  | succ words ih =>
      rw [registerBytes, List.length_append, ih]
      exact Nat.add_comm 2 (2 * words)

theorem registerBytes_eq (words : Nat) (x : MSequenceRs.U16) : registerBytes words x =
    (List.range words).flatMap fun i => wordBytes ((galois GL_RND_TAP)^[i + 1] x) := by
  induction words generalizing x with
  | zero => rfl
  | succ words ih =>
      rw [registerBytes, ih, List.range_succ_eq_map, List.flatMap_cons, List.flatMap_map]
      rfl

/-- A register that has left 0 is not started again. -/
theorem started_step {x : MSequenceRs.U16} (hx : x ≠ 0) :
    started (galois GL_RND_TAP x) = galois GL_RND_TAP x :=
  if_neg (register_fullCycle.iterate_ne_zero hx 1)

theorem started_started (x : MSequenceRs.U16) : started (started x) = started x :=
  if_neg (started_ne_zero x)

theorem fillLoopRs_eq (words : Nat) (x : MSequenceRs.U16) (bytes : List MSequenceRs.U8) :
    MSequenceRs.fillLoop words x bytes =
      registerBytes words (started x) ++ bytes.drop (2 * words) := by
  induction words generalizing x bytes with
  | zero => rfl
  | succ words ih =>
      rw [MSequenceRs.fillLoop, ih, mseqStepRs_eq, started_step (started_ne_zero x),
        registerBytes, List.drop_drop, Nat.add_comm 2]
      rfl

theorem wordBytes_num (x : MSequenceRs.U16) :
    (wordBytes x).map num = [land (ushr (num x) 8) 0xff, land (num x) 0xff] := by
  have hlow : (x &&& 0xff).setWidth 8 = x.setWidth 8 := by
    rw [BitVec.setWidth_and]
    exact BitVec.and_allOnes
  have hshift : ushr (num x) 8 = num (x >>> 8) := ushr_ofNat x 8 (by decide) (by decide)
  have hbyte (y : MSequenceRs.U16) : land (num y) 0xff = num (y.setWidth 8) := by
    rw [land_ff, num, num, BitVec.toNat_setWidth]
    exact (Int.natCast_emod _ _).symm
  rw [wordBytes, hlow, hshift, hbyte, hbyte]
  rfl

theorem fillLoopTs_eq (words : Nat) (x : MSequenceRs.U16) (bytes : List Int) :
    MSequenceTs.fillLoop words (num x) bytes =
      (registerBytes words (started x)).map num ++ bytes.drop (2 * words) := by
  induction words generalizing x bytes with
  | zero => rfl
  | succ words ih =>
      have hstep : MSequenceTs.mseqStep (num x) = num (galois GL_RND_TAP (started x)) := by
        rw [mseqStepTs_eq, ofInt_num]
      rw [MSequenceTs.fillLoop]
      simp only [hstep]
      rw [ih, started_step (started_ne_zero x), registerBytes, List.map_append, wordBytes_num,
        List.drop_drop, Nat.add_comm 2]
      rfl

/-- `fill_memory_m_sequence` leaves no byte of the memory as it was. -/
theorem fillMemoryRs_eq (time : MSequenceRs.U16) (buf : List MSequenceRs.U8)
    (seed : Option MSequenceRs.U16) :
    MSequenceRs.fillMemoryMSequence time buf seed =
      if buf.length % 2 = 0 then
        .ok (registerBytes (buf.length / 2) (started (seed.getD time)), started (seed.getD time))
      else .error ("buffer length must be even (got " ++ Nat.repr buf.length ++ ")") := by
  have hparity : buf.length &&& 1 = buf.length % 2 := Nat.and_one_is_mod buf.length
  have hstart (x : MSequenceRs.U16) : MSequenceRs.normalizeSeed x = started x := rfl
  rw [MSequenceRs.fillMemoryMSequence, hparity]
  by_cases heven : buf.length % 2 = 0
  · have hall : 2 * (buf.length / 2) = buf.length := by omega
    rw [if_neg (not_not.mpr heven), if_pos heven]
    simp only [hstart]
    rw [fillLoopRs_eq, started_started, hall, List.drop_length, List.append_nil]
  · rw [if_pos heven, if_neg heven]

/-- `fillMemoryMSequence` leaves the last byte of an odd length as it was. -/
theorem fillMemoryTs_eq (time : MSequenceRs.U16) (buf : List MSequenceRs.U8) (seed : Option Int) :
    MSequenceTs.fillMemoryMSequence (num time) (buf.map num) seed =
      ((registerBytes (buf.length / 2) (started (BitVec.ofInt 16 (seed.getD (num time)))) ++
        buf.drop (2 * (buf.length / 2))).map num,
      num (started (BitVec.ofInt 16 (seed.getD (num time))))) := by
  rw [MSequenceTs.fillMemoryMSequence, normalizeSeedTs_eq, List.length_map]
  simp only [fillLoopTs_eq, started_started, List.map_append, List.map_drop]

end Register

section Calls

variable {σ : Type} {io : EmuRs.Mn1613.Io σ} {cell : MSequenceRs.U8}
  {entry : Nat → EmuRs.Mn1613.Core σ}

/-- The numbers that the first calls of the routine answer, as bytes. -/
def numberBytes (io : EmuRs.Mn1613.Io σ) (cell : MSequenceRs.U8)
    (entry : Nat → EmuRs.Mn1613.Core σ) (words : Nat) : List MSequenceRs.U8 :=
  (List.range words).flatMap fun i => wordBytes (number io cell entry i)

/-- Both frameworks fill the memory with the numbers that the routine of the monitor answers from
the same seed.  For an odd length one stops with an error and the other leaves the last byte. -/
theorem memory_numbers (h : Calls io cell entry) (time : MSequenceRs.U16)
    (buf : List MSequenceRs.U8) (seed : Option Int)
    (hseed : started (BitVec.ofInt 16 (seed.getD (num time))) =
      started (GL_RND_SEED cell (entry 0))) :
    MSequenceTs.fillMemoryMSequence (num time) (buf.map num) seed =
      ((numberBytes io cell entry (buf.length / 2) ++ buf.drop (2 * (buf.length / 2))).map num,
        num (started (GL_RND_SEED cell (entry 0)))) ∧
    MSequenceRs.fillMemoryMSequence time buf (seed.map (BitVec.ofInt 16)) =
      if buf.length % 2 = 0 then
        .ok (numberBytes io cell entry (buf.length / 2), started (GL_RND_SEED cell (entry 0)))
      else .error ("buffer length must be even (got " ++ Nat.repr buf.length ++ ")") := by
  have hbytes : registerBytes (buf.length / 2) (started (GL_RND_SEED cell (entry 0))) =
      numberBytes io cell entry (buf.length / 2) := by
    rw [registerBytes_eq, numberBytes]
    simp only [number_eq h]
  have hsame : (seed.map (BitVec.ofInt 16)).getD time = BitVec.ofInt 16 (seed.getD (num time)) := by
    cases seed with
    | none => exact (ofInt_num time).symm
    | some seed => rfl
  rw [fillMemoryTs_eq, fillMemoryRs_eq, hsame, hseed, hbytes]
  exact ⟨rfl, rfl⟩

theorem memory_numbers_sample :
    MSequenceTs.fillMemoryMSequence (num (7 : MSequenceRs.U16))
        (([1, 2, 3] : List MSequenceRs.U8).map num) (some 65537) =
      ((numberBytes sampleIo 0x10 sampleCalls 1 ++ [3]).map num, 1) ∧
    MSequenceRs.fillMemoryMSequence 7 [1, 2, 3] (some 1) =
      .error "buffer length must be even (got 3)" :=
  memory_numbers ⟨sampleCalls_call, fun _ => rfl⟩ 7 [1, 2, 3] (some 65537) (by decide +kernel)

end Calls

end Framework
end RetroCpu
