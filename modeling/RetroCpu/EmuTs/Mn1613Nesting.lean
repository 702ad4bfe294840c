import Mathlib.Data.Fin.SuccPred
import RetroCpu.EmuTs.Mn1613Irq

/-!
# Interrupt handlers of the TypeScript MN1613 core

Accepting level `lv` saves `STR` and `IC` in the physical words `2 * lv` and `2 * lv + 1`
and `CSBR` in `OSR[lv]`; `LPSW lv` loads them again.  A handler may run any number of
instructions and may be interrupted by the levels that are not open.  As long as it leaves
the save area of its level alone, its return restores the program it has interrupted, and
so do the returns of the handlers nested in it.
-/

namespace RetroCpu
namespace EmuTs
namespace Mn1613

open Js Prog RetroCpu.Mn1613

variable {σ : Type}

/-- The program status: what an interrupt saves and `LPSW` loads. -/
@[ext] structure Psw where
  STR : Int
  IC : Int
  CSBR : Int
deriving DecidableEq

def Cpu.psw (s : Cpu σ) : Psw := ⟨s.reg.STR, s.reg.IC, s.reg.CSBR⟩

/-- The status in the save area of level `lv`. -/
def Cpu.saved (s : Cpu σ) (lv : Level) : Psw where
  STR := getUint16 s.mem ((lv.val : Int) * 2)
  IC := getUint16 s.mem ((lv.val : Int) * 2 + 1)
  CSBR := land (s.reg.OSR lv.castSucc) 0xf

/-- The instruction word `LPSW lv`. -/
def lpsw (lv : Level) : Int := 0x2004 + (lv.val : Int)

section Handler

variable (bd : Board σ)

/-- The state after `_acceptIrq(lv)`. -/
def accept (lv : Level) (s : Cpu σ) : Cpu σ := ((acceptIrq bd lv).run s).2

/-- The next instruction word, and the state in which it is executed. -/
def fetchInstruction (s : Cpu σ) : Int × Cpu σ :=
  (do let ir ← fetch bd; onInstructionFetch bd ir; return ir : M σ Int).run s

/-- A step without its interrupt check. -/
def advance (s : Cpu σ) : Cpu σ := ((execute bd (fetchInstruction bd s).1).run (fetchInstruction bd s).2).2

/-- `HandlerRun bd checked open s t log`: from `s` the handlers of the levels `open`,
innermost first, run until the innermost one has returned in state `t`.  `checked` says
that the interrupt check of the next step has been made.  `log` lists the states before
and after every interrupt that was accepted and returned from on the way. -/
inductive HandlerRun : Bool → List Level → Cpu σ → Cpu σ → List (Cpu σ × Cpu σ) → Prop
  /-- The innermost handler returns. -/
  | ret {checked : Bool} {lv : Level} {outer : List Level} {s : Cpu σ} :
      (checked = true ∨ irqLevel s = none) →
      (fetchInstruction bd s).1 = lpsw lv →
      HandlerRun checked (lv :: outer) s (advance bd s) []
  /-- An instruction that leaves the save areas of the open levels alone. -/
  | insn {checked : Bool} {levels : List Level} {s t : Cpu σ} {log : List (Cpu σ × Cpu σ)} :
      (checked = true ∨ irqLevel s = none) →
      (∀ lv ∈ levels, (advance bd s).saved lv = s.saved lv) →
      HandlerRun false levels (advance bd s) t log →
      HandlerRun checked levels s t log
  /-- A change between two steps: requests, devices, and memory outside the save areas. -/
  | external {levels : List Level} {s s' t : Cpu σ} {log : List (Cpu σ × Cpu σ)} :
      s'.reg = s.reg →
      (∀ lv ∈ levels, s'.saved lv = s.saved lv) →
      HandlerRun false levels s' t log →
      HandlerRun false levels s t log
  /-- An interrupt of a level that is not open, up to the return of its handler. -/
  | nest {levels : List Level} {lv : Level} {s s' t : Cpu σ} {log log' : List (Cpu σ × Cpu σ)} :
      irqLevel s = some lv →
      lv ∉ levels →
      HandlerRun true (lv :: levels) (accept bd lv s) s' log →
      HandlerRun false levels s' t log' →
      HandlerRun false levels s t ((s, s') :: log ++ log')

/-- A step of the core, when its check accepts nothing. -/
theorem stepOne_advance {s : Cpu σ} (h : irqLevel s = none) : stepOne bd s = advance bd s := by
  have hinstr : instruction bd s = fetchInstruction bd s := by
    rw [instruction, run_bind, checkIRQ_none bd h]
    rfl
  rw [stepOne_eq, hinstr, advance]

/-- A step of the core, when its check accepts an interrupt. -/
theorem stepOne_accept {s : Cpu σ} {lv : Level} (h : irqLevel s = some lv) :
    stepOne bd s = advance bd (accept bd lv s) := by
  have hinstr : instruction bd s = fetchInstruction bd (accept bd lv s) := by
    rw [instruction, run_bind, checkIRQ_accept bd h]
    rfl
  rw [stepOne_eq, hinstr, advance]

end Handler

section Save

variable (bd : Board σ)

theorem land_word_of_within {x : Int} (h : Within 0xffff x) : land x 0xffff = x := by
  obtain ⟨w, rfl⟩ := h.exists_word
  exact land_ffff_num w

theorem land_nibble_of_within {x : Int} (h : Within 0xf x) : land x 0xf = x := by
  have hlow := h.1
  have hhigh := h.2
  rw [land_f]
  omega

/-- The save area of an accepted level holds the status of the interrupted program. -/
theorem saved_accept {s : Cpu σ} {lv : Level} (hacc : irqLevel s = some lv)
    (hs : Bounded 0xffff 0xffff s.reg) : (accept bd lv s).saved lv = s.psw := by
  have hlevel := accepted_of_irqLevel bd hacc
  have hstr := hlevel.savedSTR
  have hic := hlevel.savedIC
  have hcsbr := hlevel.savedCSBR
  rw [checkIRQ_accept bd hacc] at hstr hic hcsbr
  have hnibble : land (land s.reg.CSBR 0xf) 0xf = s.reg.CSBR := by
    rw [land_nibble_of_within hs.CSBR, land_nibble_of_within hs.CSBR]
  ext
  · exact hstr.trans (land_word_of_within hs.STR)
  · exact hic.trans (land_word_of_within hs.IC)
  · exact (congrArg (land · 0xf) hcsbr).trans hnibble

/-- Accepting a level leaves the save areas of the other levels alone. -/
theorem saved_accept_ne (s : Cpu σ) {lv lv' : Level} (hne : lv' ≠ lv) :
    (accept bd lv s).saved lv' = s.saved lv' := by
  have hval : (lv'.val : Int) ≠ (lv.val : Int) := by
    intro h
    exact hne (Fin.ext (Int.ofNat_inj.mp h))
  obtain ⟨hstr, hic⟩ := within_save lv
  obtain ⟨hstr', hic'⟩ := within_save lv'
  have hosr : lv'.castSucc ≠ lv.castSucc := fun h => hne (Fin.castSucc_injective 3 h)
  ext
  · simp only [Cpu.saved, accept]
    rw [acceptIrq_mem, getUint16_setUint16_ne _ hic hstr' (by omega),
      getUint16_setUint16_ne _ hstr hstr' (by omega)]
  · simp only [Cpu.saved, accept]
    rw [acceptIrq_mem, getUint16_setUint16_ne _ hic hic' (by omega),
      getUint16_setUint16_ne _ hstr hic' (by omega)]
  · simp only [Cpu.saved, accept]
    rw [acceptIrq_OSR, Function.update_of_ne hosr]

theorem lpsw_fields : ∀ lv : Level,
    land (ushr (lpsw lv) 11) 0x1f = 0x04 ∧ land (ushr (lpsw lv) 8) 0x7 = 0 ∧
      land (lpsw lv) 0xff = 0x04 + (lv.val : Int) ∧
      land (0x04 + (lv.val : Int)) 3 = (lv.val : Int) := by
  decide

theorem execute_lpsw (lv : Level) : execute bd (lpsw lv) = execLpsw bd (lv.val : Int) := by
  obtain ⟨hop, hrrr, hlo, hll⟩ := lpsw_fields lv
  have hlv : (lv.val : Int) < 3 := Int.ofNat_lt.mpr lv.isLt
  have hexecute : execute bd (lpsw lv) = exec04 bd 0 (0x04 + (lv.val : Int)) := by
    rw [execute, hop, hrrr, hlo]
    rfl
  rw [hexecute, exec04, if_neg (by omega), if_neg (by omega), if_pos (by omega), hll]

theorem save_slot : ∀ lv : Level, Fin.ofNat 4 ((lv.val : Int)).toNat = lv.castSucc := by decide

/-- A return loads the status from the save area, and changes no save area. -/
theorem ret_saved {s : Cpu σ} {lv : Level} (h : (fetchInstruction bd s).1 = lpsw lv) :
    (advance bd s).psw = s.saved lv ∧ ∀ lv', (advance bd s).saved lv' = s.saved lv' := by
  obtain ⟨hstr, hic⟩ := save_address lv
  have hrun : ((execLpsw bd (lv.val : Int)).run (fetchInstruction bd s).2).2.reg =
      { (fetchInstruction bd s).2.reg with
        STR := getUint16 s.mem (land (phys ((lv.val : Int) * 2) 0) 0x3ffff)
        IC := getUint16 s.mem (land (phys ((lv.val : Int) * 2 + 1) 0) 0x3ffff)
        CSBR := land (s.reg.OSR (Fin.ofNat 4 ((lv.val : Int)).toNat)) 0xf } := rfl
  rw [hstr, hic, save_slot] at hrun
  have hadvance : advance bd s = ((execLpsw bd (lv.val : Int)).run (fetchInstruction bd s).2).2 := by
    rw [advance, h, execute_lpsw]
  constructor
  · rw [hadvance, Cpu.psw, hrun]
    rfl
  · intro lv'
    rw [hadvance]
    rfl

end Save

section Transparent

variable (bd : Board σ)

theorem advance_bounded {s : Cpu σ} (h : Bounded 0xffff 0xffff s.reg) :
    Bounded 0xffff 0xffff (advance bd s).reg := by
  have hfetch := (fetchInstruction_moves bd (W := Scope.plain bd fun _ => False) s).2.2 ⟨h, trivial⟩
  exact ((execute_moves bd (W := Scope.plain bd fun _ => False) _ (fun h => False.elim h) _).2.2
    hfetch).1

theorem accept_bounded {s : Cpu σ} (lv : Level) (h : Bounded 0xffff 0xffff s.reg) :
    Bounded 0xffff 0xffff (accept bd lv s).reg :=
  ((acceptIrq_moves bd (W := Scope.plain bd fun _ => False) (fun h => h) s).2.2 ⟨h, trivial⟩).1

/-- What a run of handlers keeps, and where its return goes to. -/
theorem handlerRun_saved {checked : Bool} {levels : List Level} {s t : Cpu σ}
    {log : List (Cpu σ × Cpu σ)} (hrun : HandlerRun bd checked levels s t log)
    (hs : Bounded 0xffff 0xffff s.reg) :
    Bounded 0xffff 0xffff t.reg ∧
      (∀ lv ∈ levels, t.saved lv = s.saved lv) ∧
      (∀ lv ∈ levels.head?, t.psw = s.saved lv) ∧
      ∀ entry ∈ log, entry.2.psw = entry.1.psw := by
  induction hrun with
  | ret hready hword =>
      obtain ⟨hpsw, hsaved⟩ := ret_saved bd hword
      refine ⟨advance_bounded bd hs, fun lv' _ => hsaved lv', ?_, ?_⟩
      · rintro lv' ⟨⟩
        exact hpsw
      · rintro entry ⟨⟩
  | insn hready hkeep hrest ih =>
      obtain ⟨ht, hsaved, hret, hlog⟩ := ih (advance_bounded bd hs)
      refine ⟨ht, fun lv hlv => ?_, fun lv hlv => ?_, hlog⟩
      · rw [hsaved lv hlv, hkeep lv hlv]
      · rw [hret lv hlv, hkeep lv (List.mem_of_mem_head? hlv)]
  | external hreg hkeep hrest ih =>
      obtain ⟨ht, hsaved, hret, hlog⟩ := ih (by rw [hreg]; exact hs)
      refine ⟨ht, fun lv hlv => ?_, fun lv hlv => ?_, hlog⟩
      · rw [hsaved lv hlv, hkeep lv hlv]
      · rw [hret lv hlv, hkeep lv (List.mem_of_mem_head? hlv)]
  | @nest levels lv s s' t log log' hacc hnew hinner hrest ih ih' =>
      obtain ⟨hs', hsaved, hret, hlog⟩ := ih (accept_bounded bd lv hs)
      obtain ⟨ht, hsaved', hret', hlog'⟩ := ih' hs'
      have hkeep : ∀ lv' ∈ levels, s'.saved lv' = s.saved lv' := by
        intro lv' hlv'
        have hne : lv' ≠ lv := fun h => hnew (h ▸ hlv')
        rw [hsaved lv' (List.mem_cons_of_mem _ hlv'), saved_accept_ne bd s hne]
      refine ⟨ht, fun lv' hlv' => ?_, fun lv' hlv' => ?_, fun entry hentry => ?_⟩
      · rw [hsaved' lv' hlv', hkeep lv' hlv']
      · rw [hret' lv' hlv', hkeep lv' (List.mem_of_mem_head? hlv')]
      · rcases List.mem_append.mp hentry with hin | hin
        · rcases List.mem_cons.mp hin with rfl | hin'
          · exact (hret lv rfl).trans (saved_accept bd hacc hs)
          · exact hlog entry hin'
        · exact hlog' entry hin

end Transparent

end Mn1613
end EmuTs
end RetroCpu
