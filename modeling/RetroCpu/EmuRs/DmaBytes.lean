import RetroCpu.EmuRs.Mn1613
import RetroCpu.Lib.BitField

/-!
# Byte DMA into word memory (`cpu_core/bus.rs`)

`dma_write_bytes` writes whole words where it can and keeps the other half of the first and the
last word.  It does what a write of one byte after the other does.  The address of a word is cut to
18 bits, so a write that goes past byte 0x7ffff goes on at byte 0.
-/

namespace RetroCpu
namespace EmuRs
namespace Mn1613Ram

open EmuRs.Mn1613 (U8 U16 U32 PHYS_MASK)

section Source

/-- `Mn1613Ram::read_phys` -/
def readPhys (words : List U16) (physAddr : U32) : U16 :=
  words[(physAddr &&& PHYS_MASK).toNat]?.getD 0xffff

/-- `Mn1613Ram::write_phys` -/
def writePhys (words : List U16) (physAddr : U32) (val : U16) : List U16 :=
  words.set (physAddr &&& PHYS_MASK).toNat val

/-- `dma_write_bytes`, from byte address `ba` on with the rest of `data` -/
def dmaWriteBytes (ba : U32) (data : List U8) (words : List U16) : List U16 :=
  let wordIdx := (ba / 2) &&& PHYS_MASK
  match data with
  | [] => words
  | b :: rest =>
      if ba % 2 = 0 then
        match rest with
        | c :: rest =>
            let w := (b.setWidth 16 <<< 8) ||| c.setWidth 16
            dmaWriteBytes (ba + 2) rest (writePhys words wordIdx w)
        | [] =>
            let old := readPhys words wordIdx
            writePhys words wordIdx ((b.setWidth 16 <<< 8) ||| (old &&& 0x00ff))
      else
        let old := readPhys words wordIdx
        dmaWriteBytes (ba + 1) rest
          (writePhys words wordIdx ((old &&& 0xff00) ||| b.setWidth 16))
termination_by data.length

end Source

section Reference

/-- Byte `a` of the memory, the high byte of a word first -/
def byteAt (words : List U16) (a : Nat) : U8 :=
  let w := words[a / 2]?.getD 0xffff
  if a % 2 = 0 then (w >>> 8).setWidth 8 else w.setWidth 8

/-- Half of a word replaced -/
def withByte (a : Nat) (b : U8) (w : U16) : U16 :=
  if a % 2 = 0 then (b.setWidth 16 <<< 8) ||| (w &&& 0x00ff) else (w &&& 0xff00) ||| b.setWidth 16

/-- One byte written; outside the memory nothing is -/
def storeByte (words : List U16) (a : Nat) (b : U8) : List U16 := words.modify (a / 2) (withByte a b)

/-- The byte that a byte address means when the word address has 18 bits -/
def target (ba : U32) : Nat := ba.toNat % 2 ^ 19

/-- The reference: one byte after the other -/
def byteAtATime (ba : U32) : List U8 → List U16 → List U16
  | [], words => words
  | b :: data, words => byteAtATime (ba + 1) data (storeByte words (target ba) b)

theorem length_storeByte (words : List U16) (a : Nat) (b : U8) :
    (storeByte words a b).length = words.length := List.length_modify _ _ _

theorem mask_bits : ∀ i < 8,
    (0x00ff : U16).getLsbD i = true ∧ (0x00ff : U16).getLsbD (8 + i) = false ∧
      (0xff00 : U16).getLsbD i = false ∧ (0xff00 : U16).getLsbD (8 + i) = true := by
  decide

/-- The halves of a word whose high byte is replaced -/
theorem halves_high (b : U8) (w : U16) :
    (((b.setWidth 16 <<< 8) ||| (w &&& 0x00ff)) >>> 8).setWidth 8 = b ∧
      ((b.setWidth 16 <<< 8) ||| (w &&& 0x00ff)).setWidth 8 = w.setWidth 8 := by
  constructor
  · refine BitVec.eq_of_getLsbD_eq fun i hi => ?_
    obtain ⟨-, hmask, -, -⟩ := mask_bits i hi
    simp only [BitVec.getLsbD_setWidth, BitVec.getLsbD_ushiftRight, BitVec.getLsbD_or,
      BitVec.getLsbD_and, BitVec.getLsbD_shiftLeft, hmask, hi,
      Nat.add_sub_cancel_left]
    have hlow : i < 16 := Nat.lt_trans hi (by decide)
    have hhigh : 8 + i < 16 := Nat.add_lt_add_left hi 8
    simp [hi, hlow, hhigh]
  · refine BitVec.eq_of_getLsbD_eq fun i hi => ?_
    obtain ⟨hmask, -, -, -⟩ := mask_bits i hi
    simp only [BitVec.getLsbD_setWidth, BitVec.getLsbD_or, BitVec.getLsbD_and,
      BitVec.getLsbD_shiftLeft, hmask, hi]
    simp

/-- The halves of a word whose low byte is replaced -/
theorem halves_low (b : U8) (w : U16) :
    (((w &&& 0xff00) ||| b.setWidth 16) >>> 8).setWidth 8 = ((w >>> 8).setWidth 8 : U8) ∧
      ((w &&& 0xff00) ||| b.setWidth 16).setWidth 8 = b := by
  constructor
  · refine BitVec.eq_of_getLsbD_eq fun i hi => ?_
    obtain ⟨-, -, -, hmask⟩ := mask_bits i hi
    simp only [BitVec.getLsbD_setWidth, BitVec.getLsbD_ushiftRight, BitVec.getLsbD_or,
      BitVec.getLsbD_and, hmask, hi]
    simp [BitVec.getLsbD_of_ge]
  · refine BitVec.eq_of_getLsbD_eq fun i hi => ?_
    obtain ⟨-, -, hmask, -⟩ := mask_bits i hi
    simp only [BitVec.getLsbD_setWidth, BitVec.getLsbD_or, BitVec.getLsbD_and,
      hmask, hi]
    have hlow : i < 16 := Nat.lt_trans hi (by decide)
    simp [hi, hlow]

/-- Both halves replaced, the high one first -/
theorem halves_both (b c : U8) (w : U16) :
    (((b.setWidth 16 <<< 8) ||| (w &&& (0x00ff : U16))) &&& (0xff00 : U16)) ||| c.setWidth 16 =
      (b.setWidth 16 <<< 8) ||| c.setWidth 16 := by
  refine BitVec.eq_of_getLsbD_eq fun i hi => ?_
  by_cases h : i < 8
  · obtain ⟨-, -, hhigh, -⟩ := mask_bits i h
    simp only [BitVec.getLsbD_or, BitVec.getLsbD_and, BitVec.getLsbD_shiftLeft, hhigh]
    simp [h]
  · obtain ⟨j, rfl⟩ : ∃ j, i = 8 + j := ⟨i - 8, by omega⟩
    obtain ⟨-, hlow, -, hhigh⟩ := mask_bits j (by omega)
    simp only [BitVec.getLsbD_or, BitVec.getLsbD_and, BitVec.getLsbD_shiftLeft, hlow, hhigh]
    simp

/-- One byte written changes that byte and no other. -/
theorem byteAt_storeByte {words : List U16} {a a' : Nat} (ha : a' < 2 * words.length) (b : U8) :
    byteAt (storeByte words a b) a' = if a' = a then b else byteAt words a' := by
  have hidx : a' / 2 < words.length := by omega
  unfold byteAt storeByte
  rw [List.getElem?_modify]
  by_cases hword : a / 2 = a' / 2
  · have hget : words[a' / 2]? = some words[a' / 2] := List.getElem?_eq_getElem hidx
    simp only [hword, if_true, hget, Option.map_eq_map, Option.map_some, Option.getD_some, withByte]
    by_cases hparity : a % 2 = 0
    · rw [if_pos hparity]
      by_cases hparity' : a' % 2 = 0
      · have hsame : a' = a := by omega
        rw [if_pos hparity', if_pos hsame]
        exact (halves_high b _).1
      · have hother : a' ≠ a := by omega
        rw [if_neg hparity', if_neg hother, if_neg hparity']
        exact (halves_high b _).2
    · rw [if_neg hparity]
      by_cases hparity' : a' % 2 = 0
      · have hother : a' ≠ a := by omega
        rw [if_pos hparity', if_neg hother, if_pos hparity']
        exact (halves_low b _).1
      · have hsame : a' = a := by omega
        rw [if_neg hparity', if_pos hsame]
        exact (halves_low b _).2
  · have hother : a' ≠ a := by
      rintro rfl
      exact hword rfl
    simp only [hword, if_false, hother, Option.map_eq_map, Option.map_id']

end Reference

section Agreement

variable {words : List U16} {ba : U32}

theorem set_eq_modify (p : Nat) (f : U16 → U16) :
    words.set p (f (words[p]?.getD 0xffff)) = words.modify p f := by
  refine List.ext_getElem? fun i => ?_
  rw [List.getElem?_set, List.getElem?_modify]
  by_cases hp : p = i
  · subst hp
    by_cases hlt : p < words.length
    · simp [hlt]
    · simp [hlt]
  · simp [hp]

/-- The word of a byte address -/
theorem wordIdx_toNat (ba : U32) :
    (((ba / 2) &&& PHYS_MASK) &&& PHYS_MASK).toNat = target ba / 2 := by
  have hmask : ((ba / 2) &&& PHYS_MASK).toNat = (ba / 2).toNat % 2 ^ 18 :=
    BitField.toNat_and_mask _ 18 (by decide)
  have htwice : (((ba / 2) &&& PHYS_MASK) &&& PHYS_MASK).toNat =
      ((ba / 2) &&& PHYS_MASK).toNat % 2 ^ 18 := BitField.toNat_and_mask _ 18 (by decide)
  have hhalf : (ba / 2).toNat = ba.toNat / 2 := BitVec.toNat_udiv
  rw [htwice, hmask, hhalf, target]
  omega

theorem even_iff (ba : U32) : ba % 2 = 0 ↔ target ba % 2 = 0 := by
  have hmod : (ba % 2).toNat = ba.toNat % 2 := BitVec.toNat_umod
  have hzero : ba % 2 = 0 ↔ (ba % 2).toNat = 0 := BitVec.toNat_inj.symm
  rw [hzero, hmod, target]
  omega

theorem target_succ (h : target ba % 2 = 0) : target (ba + 1) = target ba + 1 := by
  have hsum : (ba + 1).toNat = (ba.toNat + 1) % 2 ^ 32 := BitVec.toNat_add ba 1
  rw [target] at h
  rw [target, target, hsum]
  omega

/-- Two bytes of one word are written at once. -/
theorem write_pair (h : ba % 2 = 0) (b c : U8) :
    writePhys words ((ba / 2) &&& PHYS_MASK) ((b.setWidth 16 <<< 8) ||| c.setWidth 16) =
      storeByte (storeByte words (target ba) b) (target (ba + 1)) c := by
  have heven := (even_iff ba).mp h
  have hodd : ¬ (target ba + 1) % 2 = 0 := by omega
  have hword : (target ba + 1) / 2 = target ba / 2 := by omega
  rw [target_succ heven, storeByte, storeByte, hword, List.modify_modify_eq, writePhys,
    wordIdx_toNat, ← set_eq_modify]
  refine congrArg (words.set (target ba / 2)) ?_
  rw [Function.comp_apply, withByte, withByte, if_neg hodd, if_pos heven]
  exact (halves_both b c _).symm

theorem write_high (h : ba % 2 = 0) (b : U8) :
    writePhys words ((ba / 2) &&& PHYS_MASK)
      ((b.setWidth 16 <<< 8) ||| (readPhys words ((ba / 2) &&& PHYS_MASK) &&& 0x00ff)) =
      storeByte words (target ba) b := by
  rw [storeByte, writePhys, readPhys, wordIdx_toNat, ← set_eq_modify, withByte,
    if_pos ((even_iff ba).mp h)]

theorem write_low (h : ¬ ba % 2 = 0) (b : U8) :
    writePhys words ((ba / 2) &&& PHYS_MASK)
      ((readPhys words ((ba / 2) &&& PHYS_MASK) &&& 0xff00) ||| b.setWidth 16) =
      storeByte words (target ba) b := by
  rw [storeByte, writePhys, readPhys, wordIdx_toNat, ← set_eq_modify, withByte,
    if_neg (fun heven => h ((even_iff ba).mpr heven))]

/-- Whole words in the middle, halves at the ends: the bytes one after the other. -/
theorem dmaWriteBytes_eq (ba : U32) (data : List U8) (words : List U16) :
    dmaWriteBytes ba data words = byteAtATime ba data words := by
  fun_induction dmaWriteBytes ba data words with
  | case1 ba words => rfl
  | case2 ba words wordIdx b heven c rest w ih =>
      rw [ih, write_pair heven, byteAtATime, byteAtATime, BitVec.add_assoc]
      rfl
  | case3 ba words wordIdx b heven old => exact write_high heven b
  | case4 ba words wordIdx b rest hodd old ih => rw [ih, write_low hodd, byteAtATime]

theorem length_byteAtATime (ba : U32) (data : List U8) (words : List U16) :
    (byteAtATime ba data words).length = words.length := by
  induction data generalizing ba words with
  | nil => rfl
  | cons b data ih => rw [byteAtATime, ih, length_storeByte]

/-- A write that stays below byte 2^19 -/
theorem byteAt_byteAtATime {ba : U32} {data : List U8} {words : List U16} {a : Nat}
    (hend : ba.toNat + data.length ≤ 2 ^ 19) (ha : a < 2 * words.length) :
    byteAt (byteAtATime ba data words) a =
      if ba.toNat ≤ a ∧ a < ba.toNat + data.length then data.getD (a - ba.toNat) 0
      else byteAt words a := by
  induction data generalizing ba words with
  | nil =>
      rw [List.length_nil, if_neg (by omega)]
      rfl
  | cons b data ih =>
      rw [List.length_cons] at hend
      have htarget : target ba = ba.toNat := Nat.mod_eq_of_lt (by omega)
      rw [byteAtATime, htarget]
      by_cases hlast : data.length = 0
      · rw [List.length_eq_zero_iff.mp hlast, byteAtATime, byteAt_storeByte ha, List.length_singleton]
        by_cases hsame : a = ba.toNat
        · rw [if_pos hsame, if_pos (by omega), hsame, Nat.sub_self]
          rfl
        · rw [if_neg hsame, if_neg (by omega)]
      · have hsum : (ba + 1).toNat = (ba.toNat + 1) % 2 ^ 32 := BitVec.toNat_add ba 1
        have hnext : (ba + 1).toNat = ba.toNat + 1 := by omega
        rw [ih (by omega) (by rwa [length_storeByte]), hnext, List.length_cons,
          byteAt_storeByte ha]
        by_cases hlow : ba.toNat + 1 ≤ a ∧ a < ba.toNat + 1 + data.length
        · have hsub : a - ba.toNat = (a - (ba.toNat + 1)) + 1 := by omega
          rw [if_pos hlow, if_pos (by omega), hsub, List.getD_cons_succ]
        · rw [if_neg hlow]
          by_cases hsame : a = ba.toNat
          · rw [if_pos hsame, if_pos (by omega), hsame, Nat.sub_self]
            rfl
          · rw [if_neg hsame, if_neg (by omega)]

/-- Byte `i` of the data goes to byte `ba + i` and no other byte changes. -/
def StoresBytes (ba : U32) (data : List U8) (words : List U16) : Prop :=
  (dmaWriteBytes ba data words).length = words.length ∧
    ∀ a < 2 * words.length, byteAt (dmaWriteBytes ba data words) a =
      if ba.toNat ≤ a ∧ a < ba.toNat + data.length then data.getD (a - ba.toNat) 0
      else byteAt words a

theorem dma_write_exact (ba : U32) (data : List U8) (words : List U16) :
    dmaWriteBytes ba data words = byteAtATime ba data words ∧
      (ba.toNat + data.length ≤ 2 ^ 19 → StoresBytes ba data words) := by
  refine ⟨dmaWriteBytes_eq ba data words, fun hend => ⟨?_, fun a ha => ?_⟩⟩
  · rw [dmaWriteBytes_eq, length_byteAtATime]
  · rw [dmaWriteBytes_eq]
    exact byteAt_byteAtATime hend ha

/-- From the last byte of the 256K words, two bytes: the second one goes to byte 0. -/
theorem dma_write_wraps : ¬ ∀ (ba : U32) (data : List U8) (words : List U16),
    StoresBytes ba data words := by
  intro h
  obtain ⟨words, hlength⟩ : ∃ words : List U16, words.length = 2 ^ 18 :=
    ⟨List.replicate (2 ^ 18) 0, List.length_replicate⟩
  have hinside : 0 < 2 * words.length := by omega
  have hbefore := (h 0x7ffff [1, 2] words).2 0 hinside
  have hafter := (h 0x7ffff [1, 3] words).2 0 hinside
  rw [dmaWriteBytes_eq, byteAtATime, byteAtATime, byteAtATime,
    byteAt_storeByte (by rwa [length_storeByte]), if_pos (by decide), if_neg (by decide)]
    at hbefore hafter
  exact absurd (hbefore.trans hafter.symm) (by decide)

end Agreement

end Mn1613Ram
end EmuRs
end RetroCpu
