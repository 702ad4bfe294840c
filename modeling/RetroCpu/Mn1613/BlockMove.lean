import RetroCpu.Lib.ForwardCopy
import RetroCpu.Mn1613.Operands
import RetroCpu.Mn1613.StepEquiv

/-!
# The block move of the MN1613

BLK copies `R0` words from `TSR0:R1` on to `TSR1:R2` on.  The logical addresses wrap at 64K
inside their segments, and the loop counts `R0` down to 0.
-/

namespace RetroCpu
namespace Mn1613

open Js Prog ForwardCopy
open EmuTs.Mn1613

/-- BLK -/
def blkWord : Int := fieldWord 0x07 7 0x17

/-- The memory word from which BLK copies in round `i`. -/
def sourceCell (r : CPURegister) (i : Nat) : BitVec 18 :=
  BitVec.ofInt 18 (EmuTs.Mn1613.phys (r.R 1 + i) r.TSR0)

/-- The memory word to which BLK copies in round `i`. -/
def destinationCell (r : CPURegister) (i : Nat) : BitVec 18 :=
  BitVec.ofInt 18 (EmuTs.Mn1613.phys (r.R 2 + i) r.TSR1)

/-- The number of words that BLK copies. -/
def wordCount (c : View) : Nat := (c.1.R 0).toNat

/-- No word of the source is one of the destination. -/
def Separate (c : View) : Prop :=
  ∀ i < wordCount c, ∀ j < wordCount c, sourceCell c.1 i ≠ destinationCell c.1 j

/-- The registers and the memory after the words have been copied one by one. -/
structure Moved (c c' : View) : Prop where
  count : c'.1.R 0 = 0
  source : c'.1.R 1 = (c.1.R 1 + wordCount c) % 65536
  destination : c'.1.R 2 = (c.1.R 2 + wordCount c) % 65536
  others : c'.1 = { c.1 with R := c'.1.R } ∧ c'.1.R 3 = c.1.R 3 ∧ c'.1.R 4 = c.1.R 4
  memory : c'.2 = copyForward (sourceCell c.1) (destinationCell c.1) (wordCount c) c.2

/-- What BLK leaves of the view `c`; when the source and the destination are separate, the
destination holds the words of the source and no other word changes. -/
structure BlockMoved (c c' : View) : Prop extends Moved c c' where
  copied : Separate c → ∀ i < wordCount c, c'.2 (destinationCell c.1 i) = c.2 (sourceCell c.1 i)
  frame : Separate c → ∀ a, (∀ i < wordCount c, a ≠ destinationCell c.1 i) → c'.2 a = c.2 a

section Rounds

variable {σ : Type} (bd : Board σ) (s : Cpu σ)

/-- One round of BLK. -/
def moveWord (c : View) : View :=
  let R := Function.update c.1.R 1 (land (c.1.R 1 + 1) 0xffff)
  let R := Function.update R 2 (land (R 2 + 1) 0xffff)
  let R := Function.update R 0 (land (R 0 - 1) 0xffff)
  ({ c.1 with R := R },
    Function.update c.2 (BitVec.ofInt 18 (EmuTs.Mn1613.phys (c.1.R 2) c.1.TSR1))
      (c.2 (BitVec.ofInt 18 (EmuTs.Mn1613.phys (c.1.R 1) c.1.TSR0))))

/-- The body of the loop. -/
def blkRound : M σ Unit := do
  let src ← rdB bd (← reg fun r => r.R 1) (← reg CPURegister.TSR0)
  wrB bd (← reg fun r => r.R 2) src (← reg CPURegister.TSR1)
  setReg fun r => { r with R := Function.update r.R 1 (land (r.R 1 + 1) 0xffff) }
  setReg fun r => { r with R := Function.update r.R 2 (land (r.R 2 + 1) 0xffff) }
  setReg fun r => { r with R := Function.update r.R 0 (land (r.R 0 - 1) 0xffff) }

theorem blkLoop_succ (n : Nat) :
    (blkLoop bd (n + 1)).run s =
      if s.reg.R 0 ≠ 0 then (blkLoop bd n).run ((blkRound bd).run s).2 else ((), s) := by
  rw [blkLoop, run_bind, reg_run, run_ite]
  rfl

theorem view_blkRound : view ((blkRound bd).run s).2 = moveWord (view s) := by
  have hread : ((rdB bd (s.reg.R 1) s.reg.TSR0).run s).1 =
      num (s.mem (BitVec.ofInt 18 (EmuTs.Mn1613.phys (s.reg.R 1) s.reg.TSR0))) := by
    rw [← getUint16_phys]
    rfl
  have hmem : ((blkRound bd).run s).2.mem =
      setUint16 s.mem (land (EmuTs.Mn1613.phys (s.reg.R 2) s.reg.TSR1) 0x3ffff)
        (land ((rdB bd (s.reg.R 1) s.reg.TSR0).run s).1 0xffff) := rfl
  rw [hread, setUint16_phys, ofInt_num] at hmem
  exact Prod.ext rfl hmem

end Rounds

section Moves

/-- The pointers of the rounds after the first. -/
theorem phys_succ (x seg : Int) (i : Nat) :
    EmuTs.Mn1613.phys (land (x + 1) 0xffff + i) seg =
      EmuTs.Mn1613.phys (x + ((i + 1 : Nat) : Int)) seg := by
  rw [Simulation.phys_eq, Simulation.phys_eq, land_ffff]
  omega

theorem sourceCell_moveWord (c : View) :
    sourceCell (moveWord c).1 = fun i => sourceCell c.1 (i + 1) := by
  funext i
  exact congrArg (BitVec.ofInt 18) (phys_succ (c.1.R 1) c.1.TSR0 i)

theorem destinationCell_moveWord (c : View) :
    destinationCell (moveWord c).1 = fun i => destinationCell c.1 (i + 1) := by
  funext i
  exact congrArg (BitVec.ofInt 18) (phys_succ (c.1.R 2) c.1.TSR1 i)

/-- The first round of a copy, and the others. -/
theorem copy_moveWord (c : View) (n : Nat) :
    copyForward (sourceCell (moveWord c).1) (destinationCell (moveWord c).1) n (moveWord c).2 =
      copyForward (sourceCell c.1) (destinationCell c.1) (n + 1) c.2 := by
  rw [copyForward_succ_left, sourceCell_moveWord, destinationCell_moveWord]
  have hzero (x seg : Int) : EmuTs.Mn1613.phys (x + ((0 : Nat) : Int)) seg =
      EmuTs.Mn1613.phys x seg := by
    rw [Int.natCast_zero, add_zero]
  rw [sourceCell, destinationCell, hzero, hzero]
  rfl

/-- Different rounds write different words. -/
theorem destinationCell_injective (r : CPURegister) {i j : Nat} (hi : i < 65536) (hj : j < 65536)
    (h : destinationCell r i = destinationCell r j) : i = j := by
  have hnum := congrArg num h
  have hphys (la : Int) : num (BitVec.ofInt 18 (EmuTs.Mn1613.phys la r.TSR1)) =
      EmuTs.Mn1613.phys la r.TSR1 := by
    rw [Simulation.phys_eq]
    exact num_ofInt (by omega) (by omega)
  rw [destinationCell, destinationCell, hphys, hphys, Simulation.phys_eq, Simulation.phys_eq] at hnum
  omega

theorem wordCount_eq {c : View} (h : 0 ≤ c.1.R 0) : (wordCount c : Int) = c.1.R 0 :=
  Int.toNat_of_nonneg h

/-- Nothing is left to copy. -/
theorem Moved.refl {c : View} (hR : ∀ j, Within 0xffff (c.1.R j)) (h : c.1.R 0 = 0) :
    Moved c c := by
  have hcount : wordCount c = 0 := by
    rw [wordCount, h]
    rfl
  obtain ⟨h10, h11⟩ := hR 1
  obtain ⟨h20, h21⟩ := hR 2
  refine ⟨h, ?_, ?_, ⟨rfl, rfl, rfl⟩, ?_⟩
  · rw [hcount]
    omega
  · rw [hcount]
    omega
  · rw [hcount]
    rfl

/-- The registers after a round. -/
theorem moveWord_R (c : View) :
    (moveWord c).1.R 0 = land (c.1.R 0 - 1) 0xffff ∧ (moveWord c).1.R 1 = land (c.1.R 1 + 1) 0xffff ∧
      (moveWord c).1.R 2 = land (c.1.R 2 + 1) 0xffff := ⟨rfl, rfl, rfl⟩

theorem wordCount_moveWord {c : View} (hR : Within 0xffff (c.1.R 0)) (h : c.1.R 0 ≠ 0) :
    wordCount c = wordCount (moveWord c) + 1 := by
  obtain ⟨h0, h1⟩ := hR
  rw [wordCount, wordCount, (moveWord_R c).1, land_ffff]
  omega

/-- One round before the others. -/
theorem Moved.step {c c' : View} (hR : Within 0xffff (c.1.R 0)) (h : c.1.R 0 ≠ 0)
    (hmoved : Moved (moveWord c) c') : Moved c c' := by
  have hcount := wordCount_moveWord hR h
  obtain ⟨-, h1, h2⟩ := moveWord_R c
  obtain ⟨hzero, hsource, hdestination, ⟨hrest, h3, h4⟩, hmemory⟩ := hmoved
  refine ⟨hzero, ?_, ?_, ⟨hrest, h3, h4⟩, ?_⟩
  · rw [hsource, h1, hcount, land_ffff]
    omega
  · rw [hdestination, h2, hcount, land_ffff]
    omega
  · rw [hmemory, hcount, copy_moveWord]

theorem within_moveWord {c : View} (hR : ∀ j, Within 0xffff (c.1.R j)) (j : Fin 5) :
    Within 0xffff ((moveWord c).1.R j) :=
  within_update (within_update (within_update hR 1 (within_land_word _)) 2 (within_land_word _)) 0
    (within_land_word _) j

variable {σ : Type} (bd : Board σ)

/-- The loop ends with `R0` at 0, whatever the bound on its rounds. -/
theorem blkLoop_moved (n : Nat) (s : Cpu σ) (hR : ∀ j, Within 0xffff (s.reg.R j))
    (hn : wordCount (view s) ≤ n) : Moved (view s) (view ((blkLoop bd n).run s).2) := by
  induction n generalizing s with
  | zero =>
      have hzero : s.reg.R 0 = 0 := by
        have hcount := wordCount_eq (c := view s) (hR 0).1
        rw [Nat.le_zero.mp hn] at hcount
        exact hcount.symm
      exact Moved.refl hR hzero
  | succ n ih =>
      rw [blkLoop_succ]
      by_cases hzero : s.reg.R 0 ≠ 0
      · rw [if_pos hzero]
        have hview := view_blkRound bd s
        have hcount := wordCount_moveWord (c := view s) (hR 0) hzero
        have hreg : ((blkRound bd).run s).2.reg = (moveWord (view s)).1 := congrArg Prod.fst hview
        have hrest := ih ((blkRound bd).run s).2
          (by rw [hreg]; exact within_moveWord (c := view s) hR) (by rw [hview]; omega)
        rw [hview] at hrest
        exact Moved.step (hR 0) hzero hrest
      · rw [if_neg hzero]
        exact Moved.refl hR (not_not.mp hzero)

/-- Words copied one by one are copied as a block when source and destination are separate. -/
theorem Moved.block {c c' : View} (hR : Within 0xffff (c.1.R 0)) (h : Moved c c') :
    BlockMoved c c' := by
  have hlt : wordCount c < 65536 := by
    obtain ⟨h0, h1⟩ := hR
    rw [wordCount]
    omega
  refine ⟨h, ?_, ?_⟩
  · intro hseparate
    rw [h.memory]
    refine copyForward_copied (fun i hi j hj => ?_) hseparate
    exact destinationCell_injective c.1 (hi.trans hlt) (hj.trans hlt)
  · intro _ a ha
    rw [h.memory]
    exact copyForward_of_forall_ne ha

end Moves

section Main

variable {σ τ : Type} (bd : Board σ) (io : EmuRs.Mn1613.Io τ)

theorem execute_blk : execute bd blkWord = blkLoop bd BLK_ROUNDS := by
  rw [blkWord, execute_07 bd (by decide) (by decide)]
  rfl

theorem wordCount_le {c : View} (hR : Within 0xffff (c.1.R 0)) : wordCount c ≤ BLK_ROUNDS := by
  obtain ⟨h0, h1⟩ := hR
  rw [wordCount, BLK_ROUNDS]
  omega

/-- The loop of the Rust core. -/
theorem blkLoop_moved_rs (n : Nat) (t : EmuRs.Mn1613.Core τ) (hn : wordCount (viewRs t) ≤ n) :
    Moved (viewRs t) (viewRs ((EmuRs.Mn1613.blkLoop n).run t).2) := by
  let d : Device τ := { read := fun s _ => (0xffff, s), write := fun s _ _ => s }
  have hmoved := blkLoop_moved d.board n (fromRs t) (fun j => within_num _) hn
  have hR := (Simulation.blkLoop_sim d n (fromRs t) t (rel_fromRs t)).2
  have hview : view ((blkLoop d.board n).run (fromRs t)).2 =
      viewRs ((EmuRs.Mn1613.blkLoop n).run t).2 := Prod.ext hR.reg hR.mem
  rw [hview] at hmoved
  exact hmoved

theorem execute_blk_rs : EmuRs.Mn1613.execute io (BitVec.ofInt 16 blkWord) =
    EmuRs.Mn1613.blkLoop EmuRs.Mn1613.BLK_ROUNDS := by
  have hword : BitVec.ofInt 16 blkWord = 0x3f17#16 := by decide
  rw [hword]
  rfl

/-- Block move, on both cores and from every state: BLK, and its loop with any bound that is
enough, ends with `R0` at 0, with the pointers advanced, and with the memory copied word by
word; and that is a block copy when the source and the destination are separate. -/
theorem block_move :
    (∀ s : Cpu σ, (∀ j, Within 0xffff (s.reg.R j)) →
      BlockMoved (view s) (view (after bd blkWord s)) ∧
        ∀ n, wordCount (view s) ≤ n → BlockMoved (view s) (view ((blkLoop bd n).run s).2)) ∧
      ∀ t : EmuRs.Mn1613.Core τ,
        BlockMoved (viewRs t)
            (viewRs ((EmuRs.Mn1613.execute io (BitVec.ofInt 16 blkWord)).run t).2) ∧
          ∀ n, wordCount (viewRs t) ≤ n →
            BlockMoved (viewRs t) (viewRs ((EmuRs.Mn1613.blkLoop n).run t).2) := by
  constructor
  · intro s hR
    have hloop (n : Nat) (hn : wordCount (view s) ≤ n) :=
      (blkLoop_moved bd n s hR hn).block (hR 0)
    refine ⟨?_, hloop⟩
    rw [after, execute_blk]
    exact hloop _ (wordCount_le (hR 0))
  · intro t
    have hR : Within 0xffff ((viewRs t).1.R 0) := within_num _
    have hloop (n : Nat) (hn : wordCount (viewRs t) ≤ n) := (blkLoop_moved_rs n t hn).block hR
    refine ⟨?_, hloop⟩
    rw [execute_blk_rs]
    exact hloop _ (wordCount_le hR)

/-- A core about to move the word at 1 to 0. -/
def blockSample : Cpu Unit :=
  { sample 1 1 with mem := Function.update (fun _ => 0#16) 1 7#16 }

theorem block_move_one :
    BlockMoved (view blockSample) (view (after .default blkWord blockSample)) :=
  ((block_move (.default : Board Unit) Device.silent.io).1 blockSample
    (sample_bounded ⟨by decide, by decide⟩ ⟨by decide, by decide⟩).R).1

end Main

end Mn1613
end RetroCpu
