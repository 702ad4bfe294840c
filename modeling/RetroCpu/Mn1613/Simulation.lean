import RetroCpu.EmuTs.Mn1613Exec
import RetroCpu.EmuRs.Mn1613Exec

/-!
# Relating the two MN1613 cores

`Rel` is the correspondence between a state of the TypeScript core and a state of
the Rust core: every register of the one is the value of the same register of the
other, and memory, pending requests, execution status and board agree.  This module
shows that the bus, register, flag, stack and interrupt primitives of the two cores
simulate each other; the fixed widths of the Rust side are what the TypeScript side
restores with its masks.
-/

namespace RetroCpu
namespace Mn1613

open Js Prog

/-- A device on the I/O bus, as both cores see it: the value read is any number,
of which the Rust callback receives the low 16 bits. -/
structure Device (σ : Type) where
  read : σ → Int → Int × σ
  write : σ → Int → Int → σ

variable {σ : Type}

/-- The board of the TypeScript core with comparators, breakpoints and step unit off. -/
def Device.board (d : Device σ) : EmuTs.Mn1613.Board σ where
  ioRead s port := ((d.read s port).1, ⟨[], (d.read s port).2⟩)
  ioWrite s port val := ⟨[], d.write s port val⟩
  probe s _ := ⟨[], s⟩
  onInstructionFetch s _ := ⟨[], s⟩

/-- The I/O callbacks of the Rust core. -/
def Device.io (d : Device σ) : EmuRs.Mn1613.Io σ where
  ioRead s port := (BitVec.ofInt 16 (d.read s (num port)).1, (d.read s (num port)).2)
  ioWrite s port val := d.write s (num port) (num val)

/-- The device that also records the I/O writes it receives. -/
def Device.logged (d : Device σ) : Device (σ × List (Int × Int)) where
  read s port := ((d.read s.1 port).1, ((d.read s.1 port).2, s.2))
  write s port val := (d.write s.1 port val, s.2 ++ [(port, val)])

/-- A device that answers every read with all bits set, like the default callbacks. -/
def Device.silent : Device Unit where
  read s _ := (0xffff, s)
  write s _ _ := s

/-- The registers of the Rust core as JavaScript numbers. -/
def embedReg (r : EmuRs.Mn1613.CpuRegister) : EmuTs.Mn1613.CPURegister where
  R := fun i => num (r.r i)
  SP := num r.sp
  STR := num r.str
  IC := num r.ic
  CSBR := num r.csbr
  SSBR := num r.ssbr
  TSR0 := num r.tsr0
  TSR1 := num r.tsr1
  OSR := fun i => num (r.osr i)
  NPP := num r.npp
  IISR := num r.iisr
  SBRB := num r.sbrb
  ICB := num r.icb

/-- The execution status of the Rust core, in the TypeScript enumeration. -/
def embedStatus : EmuRs.Mn1613.ExecStatus → EmuTs.Mn1613.ExecStatus
  | .idle => .idle
  | .running => .running
  | .step => .step
  | .brk => .brk
  | .halted => .halted

/-- The two cores are in the same state. -/
structure Rel (s : EmuTs.Mn1613.Cpu σ) (t : EmuRs.Mn1613.Core σ) : Prop where
  reg : s.reg = embedReg t.regs
  mem : s.mem = t.ram
  execStatus : s.execStatus = embedStatus t.execStatus
  stepMode : s.stepMode = t.stepMode
  pendingIRQ : s.pendingIRQ = num t.pendingIrq
  board : s.board = t.io
  fetches : s.fetches = t.fetches

/-- The declared width of every register. -/
structure InWidth (r : EmuTs.Mn1613.CPURegister) : Prop where
  R : ∀ i, 0 ≤ r.R i ∧ r.R i ≤ 65535
  SP : 0 ≤ r.SP ∧ r.SP ≤ 65535
  STR : 0 ≤ r.STR ∧ r.STR ≤ 65535
  IC : 0 ≤ r.IC ∧ r.IC ≤ 65535
  CSBR : 0 ≤ r.CSBR ∧ r.CSBR ≤ 15
  SSBR : 0 ≤ r.SSBR ∧ r.SSBR ≤ 15
  TSR0 : 0 ≤ r.TSR0 ∧ r.TSR0 ≤ 15
  TSR1 : 0 ≤ r.TSR1 ∧ r.TSR1 ≤ 15
  OSR : ∀ i, 0 ≤ r.OSR i ∧ r.OSR i ≤ 15
  NPP : 0 ≤ r.NPP ∧ r.NPP ≤ 255
  IISR : 0 ≤ r.IISR ∧ r.IISR ≤ 65535
  SBRB : 0 ≤ r.SBRB ∧ r.SBRB ≤ 255
  ICB : 0 ≤ r.ICB ∧ r.ICB ≤ 65535

theorem inWidth_initial : InWidth EmuTs.Mn1613.CPURegister.initial := by
  constructor <;> simp [EmuTs.Mn1613.CPURegister.initial]

/-- The registers as machine words. -/
def wordReg (r : EmuTs.Mn1613.CPURegister) : EmuRs.Mn1613.CpuRegister where
  r := fun i => BitVec.ofInt 16 (r.R i)
  sp := BitVec.ofInt 16 r.SP
  str := BitVec.ofInt 16 r.STR
  ic := BitVec.ofInt 16 r.IC
  csbr := BitVec.ofInt 8 r.CSBR
  ssbr := BitVec.ofInt 8 r.SSBR
  tsr0 := BitVec.ofInt 8 r.TSR0
  tsr1 := BitVec.ofInt 8 r.TSR1
  osr := fun i => BitVec.ofInt 8 (r.OSR i)
  npp := BitVec.ofInt 8 r.NPP
  iisr := BitVec.ofInt 16 r.IISR
  sbrb := BitVec.ofInt 16 r.SBRB
  icb := BitVec.ofInt 16 r.ICB

/-- The execution status of the TypeScript core, in the Rust enumeration. -/
def wordStatus : EmuTs.Mn1613.ExecStatus → EmuRs.Mn1613.ExecStatus
  | .idle => .idle
  | .running => .running
  | .step => .step
  | .brk => .brk
  | .halted => .halted

/-- The state of the Rust core that holds what a state of the TypeScript core holds. -/
def toRs (s : EmuTs.Mn1613.Cpu σ) : EmuRs.Mn1613.Core σ where
  regs := wordReg s.reg
  ram := s.mem
  execStatus := wordStatus s.execStatus
  stepMode := s.stepMode
  pendingIrq := BitVec.ofInt 8 s.pendingIRQ
  io := s.board
  fetches := s.fetches

theorem embedReg_wordReg {r : EmuTs.Mn1613.CPURegister} (hw : InWidth r) :
    embedReg (wordReg r) = r := by
  have hword {x : Int} (h : 0 ≤ x ∧ x ≤ 65535) : num (BitVec.ofInt 16 x) = x :=
    num_ofInt h.1 (by omega)
  have hbyte {x : Int} (h : 0 ≤ x ∧ x ≤ 255) : num (BitVec.ofInt 8 x) = x :=
    num_ofInt h.1 (by omega)
  have hnibble {x : Int} (h : 0 ≤ x ∧ x ≤ 15) : num (BitVec.ofInt 8 x) = x :=
    num_ofInt h.1 (by omega)
  have hsbrb : num (BitVec.ofInt 16 r.SBRB) = r.SBRB := num_ofInt hw.SBRB.1 (by have := hw.SBRB; omega)
  simp only [embedReg, wordReg, hword (hw.R _), hword hw.SP, hword hw.STR, hword hw.IC,
    hnibble hw.CSBR, hnibble hw.SSBR, hnibble hw.TSR0, hnibble hw.TSR1, hnibble (hw.OSR _),
    hbyte hw.NPP, hword hw.IISR, hsbrb, hword hw.ICB]

theorem rel_toRs {s : EmuTs.Mn1613.Cpu σ} (hw : InWidth s.reg)
    (hp : 0 ≤ s.pendingIRQ ∧ s.pendingIRQ < 8) : Rel s (toRs s) where
  reg := (embedReg_wordReg hw).symm
  mem := rfl
  execStatus := by
    show s.execStatus = embedStatus (wordStatus s.execStatus)
    cases s.execStatus <;> rfl
  stepMode := rfl
  pendingIRQ := (num_ofInt hp.1 (by omega)).symm
  board := rfl
  fetches := rfl

/-- The state of the TypeScript core that holds what a state of the Rust core holds. -/
def fromRs (t : EmuRs.Mn1613.Core σ) : EmuTs.Mn1613.Cpu σ where
  reg := embedReg t.regs
  mem := t.ram
  execStatus := embedStatus t.execStatus
  stepMode := t.stepMode
  pendingIRQ := num t.pendingIrq
  ioLastWrite := fun _ => none
  board := t.io
  fetches := t.fetches

theorem rel_fromRs (t : EmuRs.Mn1613.Core σ) : Rel (fromRs t) t :=
  ⟨rfl, rfl, rfl, rfl, rfl, rfl, rfl⟩

/-- The device behind the I/O callbacks of the Rust core. -/
def Device.ofIo (io : EmuRs.Mn1613.Io σ) : Device σ where
  read s port := (num (io.ioRead s (BitVec.ofInt 16 port)).1, (io.ioRead s (BitVec.ofInt 16 port)).2)
  write s port val := io.ioWrite s (BitVec.ofInt 16 port) (BitVec.ofInt 16 val)

theorem Device.io_ofIo (io : EmuRs.Mn1613.Io σ) : (Device.ofIo io).io = io := by
  cases io
  simp [Device.io, Device.ofIo, ofInt_num]

namespace Simulation

open EmuTs.Mn1613 (CPURegister Board)
open EmuRs.Mn1613 (CpuRegister Io U8 U16 U32)

/-- Lockstep of a TypeScript program with a Rust program. -/
abbrev Sim' {α β : Type} (f : β → α) (m : EmuTs.Mn1613.M σ α) (n : EmuRs.Mn1613.M σ β) : Prop :=
  Sim Rel f m n

section Registers

theorem reg_sim {α β : Type} {f : β → α} {g : CPURegister → α} {h : CpuRegister → β}
    (hgh : ∀ r, g (embedReg r) = f (h r)) :
    Sim' (σ := σ) f (EmuTs.Mn1613.reg g) (EmuRs.Mn1613.reg h) := by
  intro s t hR
  refine ⟨?_, hR⟩
  show g s.reg = f (h t.regs)
  rw [hR.reg, hgh]

theorem setReg_sim {g : CPURegister → CPURegister} {h : CpuRegister → CpuRegister}
    (hgh : ∀ r, g (embedReg r) = embedReg (h r)) :
    Sim' (σ := σ) id (EmuTs.Mn1613.setReg g) (EmuRs.Mn1613.setReg h) := by
  intro s t hR
  refine ⟨rfl, ?_, hR.mem, hR.execStatus, hR.stepMode, hR.pendingIRQ, hR.board, hR.fetches⟩
  show g s.reg = embedReg (h t.regs)
  rw [hR.reg, hgh]

/-- Two register updates in a row are one. -/
theorem setReg_setReg {α : Type} (g h : CPURegister → CPURegister) (k : EmuTs.Mn1613.M σ α) :
    (do EmuTs.Mn1613.setReg g; EmuTs.Mn1613.setReg h; k) =
      (do EmuTs.Mn1613.setReg fun r => h (g r)
          k) := rfl

theorem ite_sim {α β : Type} {f : β → α} {c d : Prop} [Decidable c] [Decidable d]
    {m m' : EmuTs.Mn1613.M σ α} {n n' : EmuRs.Mn1613.M σ β} (hcd : c ↔ d)
    (hm : Sim' f m n) (hn : Sim' f m' n') :
    Sim' f (if c then m else m') (if d then n else n') :=
  Sim.ite hcd (fun _ => hm) (fun _ => hn)

theorem skip_sim : Sim' (σ := σ) id (pure ()) (pure ()) := Sim.pure rfl

/-- Writing one element of a register array commutes with reading it as numbers. -/
theorem update_num {n w : Nat} (f : Fin n → BitVec w) (i : Fin n) (v : BitVec w) :
    Function.update (fun j => num (f j)) i (num v) = fun j => num (Function.update f i v j) := by
  funext j
  by_cases hj : j = i
  · subst hj
    simp
  · simp [hj]

theorem setR_sim {i : Fin 5} {v : Int} {v' : U16} (hv : v = num v') :
    Sim' (σ := σ) id (EmuTs.Mn1613.setR i v) (EmuRs.Mn1613.setR i v') := by
  subst hv
  refine setReg_sim fun r => ?_
  simp only [embedReg, update_num]

theorem setOSR_sim {i : Fin 4} {v : Int} {v' : U8} (hv : v = num v') :
    Sim' (σ := σ) id (EmuTs.Mn1613.setOSR i v) (EmuRs.Mn1613.setOsr i v') := by
  subst hv
  refine setReg_sim fun r => ?_
  simp only [embedReg, update_num]

/-- A register field selects the same arm of the two register tables. -/
theorem land_seven (k : U16) : (land (num k) 7).toNat = (k &&& 7).toNat := by simp

theorem land_three (k : U16) : (land (num k) 3).toNat = (k &&& 3).toNat := by simp

theorem gr_sim {k : Int} {k' : U16} (hk : k = num k') :
    Sim' (σ := σ) num (EmuTs.Mn1613.gr k) (EmuRs.Mn1613.gr k') := by
  subst hk
  refine reg_sim fun r => ?_
  simp only [land_seven]
  generalize (k' &&& 7).toNat = n
  rcases n with _ | _ | _ | _ | _ | _ | _ | n <;> rfl

theorem sw_sim {k v : Int} {k' v' : U16} (hk : k = num k') (hv : v = num v') :
    Sim' (σ := σ) id (EmuTs.Mn1613.sw k v) (EmuRs.Mn1613.sw k' v') := by
  subst hk hv
  have hmask : land (num v') 0xffff = num (v' &&& 0xffff) := by simp
  unfold EmuTs.Mn1613.sw EmuRs.Mn1613.sw
  simp only [land_seven, hmask]
  generalize (k' &&& 7).toNat = n
  rcases n with _ | _ | _ | _ | _ | _ | _ | n
  · exact setR_sim rfl
  · exact setR_sim rfl
  · exact setR_sim rfl
  · exact setR_sim rfl
  · exact setR_sim rfl
  · exact setReg_sim fun r => rfl
  · exact setReg_sim fun r => rfl
  · exact setReg_sim fun r => rfl

theorem riIndex_num (k : U16) : EmuTs.Mn1613.riIndex (num k) = EmuRs.Mn1613.riIndex k := by
  simp [EmuTs.Mn1613.riIndex, EmuRs.Mn1613.riIndex]

theorem ri_sim {k : Int} {k' : U16} (hk : k = num k') :
    Sim' (σ := σ) num (EmuTs.Mn1613.ri k) (EmuRs.Mn1613.ri k') := by
  subst hk
  refine reg_sim fun r => ?_
  rw [riIndex_num]
  rfl

theorem riSet_sim {k v : Int} {k' v' : U16} (hk : k = num k') (hv : v = num v') :
    Sim' (σ := σ) id (EmuTs.Mn1613.riSet k v) (EmuRs.Mn1613.riSet k' v') := by
  subst hk hv
  unfold EmuTs.Mn1613.riSet EmuRs.Mn1613.riSet
  rw [riIndex_num]
  exact setR_sim (by simp)

theorem seg_sim {k : Int} {k' : U16} (hk : k = num k') :
    Sim' (σ := σ) num (EmuTs.Mn1613.seg k) (EmuRs.Mn1613.seg k') := by
  subst hk
  refine reg_sim fun r => ?_
  simp only [land_three]
  generalize (k' &&& 3).toNat = n
  rcases n with _ | _ | _ | n <;> rfl

theorem getSegReg_sim {k : Int} {k' : U16} (hk : k = num k') :
    Sim' (σ := σ) num (EmuTs.Mn1613.getSegReg k) (EmuRs.Mn1613.getSegReg k') := by
  subst hk
  refine reg_sim fun r => ?_
  simp only [land_seven]
  generalize (k' &&& 7).toNat = n
  rcases n with _ | _ | _ | _ | _ | _ | _ | n <;>
    exact (num_setWidth _ (by decide)).symm

/-- Only the low bits of a value reach a narrower register. -/
theorem land_narrow (v : U16) (m : Nat) (hm : m < 2 ^ 8) :
    land (num v) (OfNat.ofNat m) = num ((v &&& BitVec.ofNat 16 m).setWidth 8) := by
  have hle : v.toNat &&& m ≤ m := Nat.and_le_right
  rw [land_ofNat v m (by decide) (by omega) (by omega)]
  simp only [num, BitVec.toNat_setWidth, BitVec.toNat_and, BitVec.toNat_ofNat,
    Nat.mod_eq_of_lt (show m < 2 ^ 16 by omega),
    Nat.mod_eq_of_lt (show v.toNat &&& m < 2 ^ 8 by omega)]

theorem setSegReg_sim {k v : Int} {k' v' : U16} (hk : k = num k') (hv : v = num v') :
    Sim' (σ := σ) id (EmuTs.Mn1613.setSegReg k v) (EmuRs.Mn1613.setSegReg k' v') := by
  subst hk hv
  have hmask : land (num v') 0xf = num ((v' &&& 0xf).setWidth 8) :=
    land_narrow v' 15 (by decide)
  unfold EmuTs.Mn1613.setSegReg EmuRs.Mn1613.setSegReg
  simp only [land_seven, hmask]
  generalize (k' &&& 7).toNat = n
  rcases n with _ | _ | _ | _ | _ | _ | _ | _ | n
  · exact skip_sim
  · exact setReg_sim fun r => rfl
  · exact setReg_sim fun r => rfl
  · exact setReg_sim fun r => rfl
  · exact setOSR_sim rfl
  · exact setOSR_sim rfl
  · exact setOSR_sim rfl
  · exact setOSR_sim rfl
  · exact skip_sim

theorem getSpecReg_sim {k : Int} {k' : U16} (hk : k = num k') :
    Sim' (σ := σ) num (EmuTs.Mn1613.getSpecReg k) (EmuRs.Mn1613.getSpecReg k') := by
  subst hk
  refine reg_sim fun r => ?_
  simp only [land_seven]
  generalize (k' &&& 7).toNat = n
  rcases n with _ | _ | _ | n
  · rfl
  · rfl
  · exact (num_setWidth _ (by decide)).symm
  · rfl

theorem setSpecReg_sim {k v : Int} {k' v' : U16} (hk : k = num k') (hv : v = num v') :
    Sim' (σ := σ) id (EmuTs.Mn1613.setSpecReg k v) (EmuRs.Mn1613.setSpecReg k' v') := by
  subst hk hv
  have hff : land (num v') 0xff = num (v' &&& 0xff) := by simp
  have hffff : land (num v') 0xffff = num (v' &&& 0xffff) := by simp
  have hnpp : land (num v') 0xff = num ((v' &&& 0xff).setWidth 8) :=
    land_narrow v' 255 (by decide)
  unfold EmuTs.Mn1613.setSpecReg EmuRs.Mn1613.setSpecReg
  simp only [land_seven]
  generalize (k' &&& 7).toNat = n
  rcases n with _ | _ | _ | n
  · exact setReg_sim fun r => by rw [hff]; rfl
  · exact setReg_sim fun r => by rw [hffff]; rfl
  · exact setReg_sim fun r => by rw [hnpp]; rfl
  · exact skip_sim

theorem getHWReg_sim {k : Int} {k' : U16} (hk : k = num k') :
    Sim' (σ := σ) num (EmuTs.Mn1613.getHWReg k) (EmuRs.Mn1613.getHwReg k') := by
  subst hk
  refine reg_sim fun r => ?_
  by_cases h : k' = 6#16
  · simp [h, embedReg]
  · simp [h]

theorem setHWReg_sim {k v : Int} {k' v' : U16} (hk : k = num k') (hv : v = num v') :
    Sim' (σ := σ) id (EmuTs.Mn1613.setHWReg k v) (EmuRs.Mn1613.setHwReg k' v') := by
  subst hk hv
  refine ite_sim (by simp) (setReg_sim fun r => ?_) skip_sim
  simp [embedReg]

end Registers

section Bus

/-- The physical address in closed form, for arbitrary numbers. -/
theorem phys_eq (la seg : Int) :
    EmuTs.Mn1613.phys la seg = (seg % 16 * 16384 + la % 65536) % 262144 := by
  have hseg : land seg 0xf = num (BitVec.ofInt 32 (seg % 16)) := by
    rw [land_f, num_ofInt (by omega) (by omega)]
  have hshl : shl (land seg 0xf) 14 = seg % 16 * 16384 := by
    rw [hseg, shl_ofNat _ 14 (by decide) (by rw [num_ofInt (by omega) (by omega)]; omega),
      num_ofInt (by omega) (by omega)]
    rfl
  rw [EmuTs.Mn1613.phys, hshl, land_ffff, land_3ffff]

theorem phys_num (la : U16) (seg : U8) :
    EmuTs.Mn1613.phys (num la) (num seg) = num (EmuRs.Mn1613.phys la seg) := by
  have hla := la.isLt
  have hseg := seg.isLt
  have hseg' : (seg.setWidth 32 &&& 0xf : U32).toNat = seg.toNat % 16 := by
    rw [BitVec.toNat_and, BitVec.toNat_setWidth, Nat.mod_eq_of_lt (by omega)]
    exact Nat.and_two_pow_sub_one_eq_mod _ 4
  have hmask (x : U32) : (x &&& EmuRs.Mn1613.PHYS_MASK).toNat = x.toNat % 262144 := by
    rw [BitVec.toNat_and]
    exact Nat.and_two_pow_sub_one_eq_mod _ 18
  simp only [phys_eq, num, EmuRs.Mn1613.phys]
  rw [hmask, BitVec.toNat_add, BitVec.toNat_shiftLeft, hseg', BitVec.toNat_setWidth,
    Nat.shiftLeft_eq]
  omega

/-- Physical addresses have 18 bits. -/
theorem phys_lt (la : U16) (seg : U8) : (EmuRs.Mn1613.phys la seg).toNat < 2 ^ 18 := by
  have h := phys_num la seg
  rw [phys_eq] at h
  simp only [num] at h
  omega

/-- The memory word a physical address names, on both sides. -/
theorem ofInt_num_phys (p : U32) :
    BitVec.ofInt 18 (land (num p) 0x3ffff) =
      ((p &&& EmuRs.Mn1613.PHYS_MASK) &&& EmuRs.Mn1613.PHYS_MASK).setWidth 18 := by
  have hmask (x : U32) : (x &&& EmuRs.Mn1613.PHYS_MASK).toNat = x.toNat % 262144 := by
    rw [BitVec.toNat_and]
    exact Nat.and_two_pow_sub_one_eq_mod _ 18
  apply BitVec.eq_of_toNat_eq
  rw [land_3ffff, BitVec.toNat_ofInt, BitVec.toNat_setWidth, hmask, hmask]
  simp only [num]
  omega

theorem getUint16_eq (mem : Mem) (p : U32) :
    EmuTs.Mn1613.getUint16 mem (land (num p) 0x3ffff) =
      num (EmuRs.Mn1613.readPhys mem (p &&& EmuRs.Mn1613.PHYS_MASK)) := by
  have hlt : land (num p) 0x3ffff < 262144 := by
    rw [land_3ffff]
    omega
  rw [EmuTs.Mn1613.getUint16, if_neg (by simp only [MEM_WORDS]; omega), ofInt_num_phys]
  rfl

theorem setUint16_eq (mem : Mem) (p : U32) (v : U16) :
    EmuTs.Mn1613.setUint16 mem (land (num p) 0x3ffff) (num v) =
      EmuRs.Mn1613.writePhys mem (p &&& EmuRs.Mn1613.PHYS_MASK) v := by
  have hlt : land (num p) 0x3ffff < 262144 := by
    rw [land_3ffff]
    omega
  rw [EmuTs.Mn1613.setUint16, if_pos (by simp only [MEM_WORDS]; omega), ofInt_num_phys,
    ofInt_num]
  rfl

variable (d : Device σ)

theorem rdPhys_sim {p : Int} {p' : U32} (hp : p = num p') :
    Sim' num (EmuTs.Mn1613.rdPhys d.board p) (EmuRs.Mn1613.rdPhys (σ := σ) p') := by
  subst hp
  intro s t hR
  refine ⟨?_, hR.reg, hR.mem, hR.execStatus, hR.stepMode, hR.pendingIRQ, hR.board, hR.fetches⟩
  show EmuTs.Mn1613.getUint16 s.mem _ = num (EmuRs.Mn1613.readPhys t.ram _)
  rw [hR.mem, getUint16_eq]

theorem wrPhys_sim {p v : Int} {p' : U32} {v' : U16} (hp : p = num p') (hv : v = num v') :
    Sim' id (EmuTs.Mn1613.wrPhys d.board p v) (EmuRs.Mn1613.wrPhys (σ := σ) p' v') := by
  subst hp hv
  intro s t hR
  refine ⟨rfl, hR.reg, ?_, hR.execStatus, hR.stepMode, hR.pendingIRQ, hR.board, hR.fetches⟩
  show EmuTs.Mn1613.setUint16 s.mem _ (land (num v') 0xffff) = EmuRs.Mn1613.writePhys t.ram _ _
  have hv : land (num v') 0xffff = num v' := by
    rw [land_word, ofInt_num]
  rw [hR.mem, hv, setUint16_eq]

theorem rdB_sim {la seg : Int} {la' : U16} {seg' : U8} (hla : la = num la')
    (hseg : seg = num seg') :
    Sim' num (EmuTs.Mn1613.rdB d.board la seg) (EmuRs.Mn1613.rdB (σ := σ) la' seg') := by
  subst hla hseg
  exact rdPhys_sim d (phys_num la' seg')

theorem wrB_sim {la v seg : Int} {la' v' : U16} {seg' : U8} (hla : la = num la')
    (hv : v = num v') (hseg : seg = num seg') :
    Sim' id (EmuTs.Mn1613.wrB d.board la v seg) (EmuRs.Mn1613.wrB (σ := σ) la' v' seg') := by
  subst hla hseg
  exact wrPhys_sim d (phys_num la' seg') hv

theorem rdC_sim {la : Int} {la' : U16} (hla : la = num la') :
    Sim' num (EmuTs.Mn1613.rdC d.board la) (EmuRs.Mn1613.rdC (σ := σ) la') :=
  Sim.bind (f := num) (reg_sim fun _ => rfl) fun _ => rdB_sim d hla rfl

theorem wrC_sim {la v : Int} {la' v' : U16} (hla : la = num la') (hv : v = num v') :
    Sim' id (EmuTs.Mn1613.wrC d.board la v) (EmuRs.Mn1613.wrC (σ := σ) la' v') :=
  Sim.bind (f := num) (reg_sim fun _ => rfl) fun _ => wrB_sim d hla hv rfl

theorem rdS_sim {la : Int} {la' : U16} (hla : la = num la') :
    Sim' num (EmuTs.Mn1613.rdS d.board la) (EmuRs.Mn1613.rdS (σ := σ) la') :=
  Sim.bind (f := num) (reg_sim fun _ => rfl) fun _ => rdB_sim d hla rfl

theorem wrS_sim {la v : Int} {la' v' : U16} (hla : la = num la') (hv : v = num v') :
    Sim' id (EmuTs.Mn1613.wrS d.board la v) (EmuRs.Mn1613.wrS (σ := σ) la' v') :=
  Sim.bind (f := num) (reg_sim fun _ => rfl) fun _ => wrB_sim d hla hv rfl

theorem IC_sim : Sim' (σ := σ) num (EmuTs.Mn1613.reg CPURegister.IC)
    (EmuRs.Mn1613.reg CpuRegister.ic) := reg_sim fun _ => rfl

theorem setIC_sim {v : Int} {v' : U16} (hv : v = num v') :
    Sim' (σ := σ) id (EmuTs.Mn1613.setReg fun r => { r with IC := v })
      (EmuRs.Mn1613.setReg fun r => { r with ic := v' }) := by
  subst hv
  exact setReg_sim fun _ => rfl

theorem fetch_sim :
    Sim' num (EmuTs.Mn1613.fetch d.board) (EmuRs.Mn1613.fetch (σ := σ)) := by
  refine Sim.bind IC_sim fun ic => ?_
  refine Sim.bind (rdC_sim d rfl) fun w => ?_
  refine Sim.bind (f := id) ?_ fun _ => Sim.pure rfl
  intro s t hR
  refine ⟨rfl, ?_, hR.mem, hR.execStatus, hR.stepMode, hR.pendingIRQ, hR.board, ?_⟩
  · show { s.reg with IC := land (s.reg.IC + 1) 0xffff } =
      embedReg { t.regs with ic := t.regs.ic + 1 }
    rw [hR.reg]
    simp [embedReg]
  · exact congrArg (· + 1) hR.fetches

theorem doIoRead_sim {port : Int} {port' : U16} (hp : port = num port') :
    Sim Rel (fun v : U16 => num v)
      (do return land (← EmuTs.Mn1613.doIoRead d.board port) 0xffff)
      (EmuRs.Mn1613.doIoRead d.io port') := by
  subst hp
  intro s t hR
  refine ⟨?_, hR.reg, hR.mem, hR.execStatus, hR.stepMode, hR.pendingIRQ, ?_, hR.fetches⟩
  · show land (d.read s.board (num port')).1 0xffff = num (BitVec.ofInt 16 (d.read t.io _).1)
    rw [land_word, hR.board]
  · show (d.read s.board (num port')).2 = (d.read t.io (num port')).2
    rw [hR.board]

theorem doIoWrite_sim {port v : Int} {port' v' : U16} (hp : port = num port')
    (hv : v = num v') :
    Sim' id (EmuTs.Mn1613.doIoWrite d.board port v) (EmuRs.Mn1613.doIoWrite d.io port' v') := by
  subst hp hv
  intro s t hR
  refine ⟨rfl, hR.reg, hR.mem, hR.execStatus, hR.stepMode, hR.pendingIRQ, ?_, hR.fetches⟩
  show d.write s.board (land (num port') 0xffff) (land (num v') 0xffff) =
    d.write t.io (num (port' &&& 0xffff)) (num (v' &&& 0xffff))
  have hmask (x : U16) : land (num x) 0xffff = num (x &&& 0xffff) := by simp
  rw [hR.board, hmask, hmask]

end Bus

section Flags

theorem setE_sim {v v' : Bool} (hv : v = v') :
    Sim' (σ := σ) id (EmuTs.Mn1613.setE v) (EmuRs.Mn1613.setE v') := by
  subst hv
  have hmask : land (lnot EmuTs.Mn1613.STR_E) 0xffff = num (~~~EmuRs.Mn1613.STR_E) := by decide
  have hlit : EmuTs.Mn1613.STR_E = num EmuRs.Mn1613.STR_E := by decide
  refine setReg_sim fun r => ?_
  cases v with
  | false => simp [hmask, embedReg]
  | true => simp [hlit, embedReg]

theorem setOVF_sim {v v' : Bool} (hv : v = v') :
    Sim' (σ := σ) id (EmuTs.Mn1613.setOVF v) (EmuRs.Mn1613.setOvf v') := by
  subst hv
  have hmask : land (lnot EmuTs.Mn1613.STR_OVF) 0xffff = num (~~~EmuRs.Mn1613.STR_OVF) := by
    decide
  have hlit : EmuTs.Mn1613.STR_OVF = num EmuRs.Mn1613.STR_OVF := by decide
  refine setReg_sim fun r => ?_
  cases v with
  | false => simp [hmask, embedReg]
  | true => simp [hlit, embedReg]

theorem add_sim {a b : Int} {a' b' : U16} (ha : a = num a') (hb : b = num b') :
    Sim' (σ := σ) num (EmuTs.Mn1613.add a b) (EmuRs.Mn1613.add16 a' b') := by
  subst ha hb
  have hE : num a' + num b' > 65535 ↔ a'.setWidth 32 + b'.setWidth 32 > (0xffff : U32) := by
    simp [num, BitVec.lt_def]
    omega
  have hV : land (land (lnot (lxor (num a') (num b')))
      (lxor (num a') (num a' + num b'))) 0x8000 ≠ 0 ↔
      (~~~(a' ^^^ b') &&& (a' ^^^ (a'.setWidth 32 + b'.setWidth 32 : U32).setWidth 16)
        &&& 0x8000) ≠ 0 := by
    rw [land_sign_ne_zero, and_sign_ne_zero]
    simp [toBits_num]
  refine Sim.bind (f := id) (setE_sim (by simp only [hE])) fun _ => ?_
  refine Sim.bind (f := id) (setOVF_sim (by simp only [hV])) fun _ => ?_
  refine Sim.pure ?_
  rw [land_add_num, num_inj]
  apply BitVec.eq_of_toNat_eq
  have hmask (x : U32) : (x &&& 0xffff).toNat = x.toNat % 65536 := by
    rw [BitVec.toNat_and]
    exact Nat.and_two_pow_sub_one_eq_mod _ 16
  simp only [BitVec.toNat_add, BitVec.toNat_setWidth, hmask]
  omega

theorem sub_sim {a b : Int} {a' b' : U16} (ha : a = num a') (hb : b = num b') :
    Sim' (σ := σ) num (EmuTs.Mn1613.sub a b) (EmuRs.Mn1613.sub16 a' b') := by
  subst ha hb
  have hE : num a' - num b' < 0 ↔ (a'.setWidth 32 - b'.setWidth 32 : U32).slt 0 = true := by
    simp [num, BitVec.slt_zero_eq_msb, BitVec.msb_eq_decide]
    omega
  have hV : land (land (lxor (num a') (num b')) (lxor (num a') (num a' - num b'))) 0x8000 ≠ 0 ↔
      ((a' ^^^ b') &&& (a' ^^^ (a'.setWidth 32 - b'.setWidth 32 : U32).setWidth 16)
        &&& 0x8000) ≠ 0 := by
    rw [land_sign_ne_zero, and_sign_ne_zero]
    simp [toBits_num]
  refine Sim.bind (f := id) (setE_sim (by simp only [hE]; simp)) fun _ => ?_
  refine Sim.bind (f := id) (setOVF_sim (by simp only [hV])) fun _ => ?_
  refine Sim.pure ?_
  rw [land_sub_num, num_inj]
  apply BitVec.eq_of_toNat_eq
  have hmask (x : U16) : (x &&& 0xffff).toNat = x.toNat % 65536 := by
    rw [BitVec.toNat_and]
    exact Nat.and_two_pow_sub_one_eq_mod _ 16
  simp only [BitVec.toNat_sub, BitVec.toNat_setWidth, hmask]
  omega

theorem flagE_sim : Sim' (σ := σ) id EmuTs.Mn1613.flagE EmuRs.Mn1613.flagE := by
  refine reg_sim fun r => decide_eq_decide.mpr ?_
  simp [embedReg, EmuTs.Mn1613.STR_E, EmuRs.Mn1613.STR_E]

theorem carryIn_sim {c : Int} {c' : U16} (hc : c = num c') :
    Sim' (σ := σ) id (EmuTs.Mn1613.carryIn c) (EmuRs.Mn1613.carryIn c') := by
  subst hc
  exact ite_sim (by simp) flagE_sim (Sim.pure rfl)

/-- A flag as a number and as a word. -/
theorem ite_num {w : Nat} (e : Bool) (x y : BitVec w) {a b : Int} (ha : a = num x)
    (hb : b = num y) : (if e = true then a else b) = num (if e = true then x else y) := by
  subst ha hb
  split_ifs <;> rfl

theorem applyEE_sim {k : Int} {k' : U16} (hk : k = num k') :
    Sim' (σ := σ) id (EmuTs.Mn1613.applyEE k) (EmuRs.Mn1613.applyEE k') := by
  subst hk
  unfold EmuTs.Mn1613.applyEE EmuRs.Mn1613.applyEE
  simp only [land_three]
  generalize (k' &&& 3).toNat = n
  rcases n with _ | _ | _ | _ | n
  · exact skip_sim
  · exact setE_sim rfl
  · exact setE_sim rfl
  · exact Sim.bind flagE_sim fun e => setE_sim rfl
  · exact skip_sim

theorem skip_cond_sim {k v : Int} {k' v' : U16} (hk : k = num k') (hv : v = num v') :
    Sim' (σ := σ) id (EmuTs.Mn1613.skip k v) (EmuRs.Mn1613.skipCond k' v') := by
  subst hk hv
  refine reg_sim fun r => ?_
  have hkk : (land (num k') 0xf).toNat = (k' &&& 0xf).toNat := by simp
  have hn : land (num v') 0x8000 ≠ 0 ↔ v' &&& 0x8000 ≠ 0 := by simp
  have hz : land (num v') 0xffff = 0 ↔ v' &&& 0xffff = 0 := by simp
  have he : land (embedReg r).STR EmuTs.Mn1613.STR_E ≠ 0 ↔
      r.str &&& EmuRs.Mn1613.STR_E ≠ 0 := by
    simp [embedReg, EmuTs.Mn1613.STR_E, EmuRs.Mn1613.STR_E]
  have hv : land (embedReg r).STR EmuTs.Mn1613.STR_OVF ≠ 0 ↔
      r.str &&& EmuRs.Mn1613.STR_OVF ≠ 0 := by
    simp [embedReg, EmuTs.Mn1613.STR_OVF, EmuRs.Mn1613.STR_OVF]
  simp only [hkk, hn, hz, he, hv]
  generalize (k' &&& 0xf).toNat = n
  rcases n with _ | _ | _ | _ | _ | _ | _ | _ | _ | _ | _ | _ | _ | _ | _ | n <;> rfl

/-- The two cores take the same instructions for double-word ones. -/
theorem is2Word_num (ir : U16) :
    EmuTs.Mn1613.is2Word (num ir) = EmuRs.Mn1613.is2word ir := by
  have hop : (land (ushr (num ir) 11) 0x1f).toNat = ((ir >>> 11) &&& 0x1f).toNat := by simp
  unfold EmuTs.Mn1613.is2Word EmuRs.Mn1613.is2word
  simp only [hop]
  generalize ((ir >>> 11) &&& 0x1f).toNat = n
  rcases n with _ | _ | _ | _ | _ | _ | _ | _ | _ | _ | _ | _ | _ | _ | _ | _ | n <;> simp
  by_cases h8 : ir &&& 255#16 &&& 8#16 = 0#16
  · simp [h8]
  · by_cases h40 : ir &&& 255#16 &&& 64#16 = 0#16
    · simp [h8, h40]
    · simp [h8, h40]

variable (d : Device σ)

theorem skipNext_sim :
    Sim' id (EmuTs.Mn1613.skipNext d.board) (EmuRs.Mn1613.skipNext (σ := σ)) := by
  have hinc : Sim' (σ := σ) id
      (EmuTs.Mn1613.setReg fun r => { r with IC := land (r.IC + 1) 0xffff })
      (EmuRs.Mn1613.setReg fun r => { r with ic := r.ic + 1 }) := by
    refine setReg_sim fun r => ?_
    simp [embedReg]
  refine Sim.bind IC_sim fun ic => ?_
  refine Sim.bind (rdC_sim d rfl) fun ir => ?_
  refine Sim.bind hinc fun _ => ?_
  exact ite_sim (by rw [is2Word_num]) hinc skip_sim

theorem skipIf_sim {k v : Int} {k' v' : U16} (hk : k = num k') (hv : v = num v') :
    Sim' id (EmuTs.Mn1613.skipIf d.board k v) (EmuRs.Mn1613.skipIf (σ := σ) k' v') :=
  Sim.bind (skip_cond_sim hk hv) fun _ => ite_sim Iff.rfl (skipNext_sim d) skip_sim

end Flags

section StackAndInterrupt

variable (d : Device σ)

theorem push_sim {v : Int} {v' : U16} (hv : v = num v') :
    Sim' id (EmuTs.Mn1613.push d.board v) (EmuRs.Mn1613.push (σ := σ) v') := by
  refine Sim.bind (f := num) (reg_sim fun _ => rfl) fun sp => ?_
  refine Sim.bind (wrS_sim d rfl hv) fun _ => setReg_sim fun r => ?_
  simp [embedReg]

theorem pop_sim : Sim' num (EmuTs.Mn1613.pop d.board) (EmuRs.Mn1613.pop (σ := σ)) := by
  refine Sim.bind (f := id) (setReg_sim fun r => ?_) fun _ => ?_
  · simp [embedReg]
  · exact Sim.bind (f := num) (reg_sim fun _ => rfl) fun sp => rdS_sim d rfl

theorem CSBR_sim : Sim' (σ := σ) num (EmuTs.Mn1613.reg CPURegister.CSBR)
    (EmuRs.Mn1613.reg CpuRegister.csbr) := reg_sim fun _ => rfl

theorem STR_sim : Sim' (σ := σ) num (EmuTs.Mn1613.reg CPURegister.STR)
    (EmuRs.Mn1613.reg CpuRegister.str) := reg_sim fun _ => rfl

theorem setSTR_sim {v : Int} {v' : U16} (hv : v = num v') :
    Sim' (σ := σ) id (EmuTs.Mn1613.setReg fun r => { r with STR := v })
      (EmuRs.Mn1613.setReg fun r => { r with str := v' }) := by
  subst hv
  exact setReg_sim fun _ => rfl

theorem setCSBR_sim {v : Int} {v' : U8} (hv : v = num v') :
    Sim' (σ := σ) id (EmuTs.Mn1613.setReg fun r => { r with CSBR := v })
      (EmuRs.Mn1613.setReg fun r => { r with csbr := v' }) := by
  subst hv
  exact setReg_sim fun _ => rfl

theorem shl_level (lv : Fin 3) : shl 1 (lv.val : Int) = num ((1 : U8) <<< lv.val) := by
  match lv with
  | 0 | 1 | 2 => decide

theorem acceptIrq_sim (lv : Fin 3) :
    Sim' id (EmuTs.Mn1613.acceptIrq d.board lv) (EmuRs.Mn1613.acceptIrq (σ := σ) lv) := by
  have hcast (k : Nat) (hk : k < 2 ^ 16) : (k : Int) = num (BitVec.ofNat 16 k) :=
    (num_ofNat hk).symm
  have hslot (n : Int) (k : Nat) (hn : n = k) (hk : k < 2 ^ 16) :
      EmuTs.Mn1613.phys n 0 = num (EmuRs.Mn1613.phys (BitVec.ofNat 16 k) 0) := by
    rw [hn, hcast k hk]
    exact phys_num _ 0
  have hnew (npp : U8) (n : Int) (k : Nat)
      (hn : n = shl (land (num npp) 0xff) 8 + k) (hk : k < 2 ^ 16) :
      EmuTs.Mn1613.phys n 0 =
        num (EmuRs.Mn1613.phys (npp.setWidth 16 <<< 8 + BitVec.ofNat 16 k) 0) := by
    have hnpp := npp.isLt
    have hlow : land (num npp) 0xff = num npp := by
      rw [land_ff]
      simp only [num]
      omega
    have hshl : shl (num npp) 8 = num npp * 256 :=
      shl_ofNat npp 8 (by decide) (by simp only [num]; omega)
    have hzero : (0 : Int) = num (0 : U8) := rfl
    rw [hn, hlow, hshl, hzero, ← phys_num, phys_eq, phys_eq]
    simp [num, Nat.shiftLeft_eq]
  have hlv := lv.isLt
  refine Sim.bind (f := id) ?_ fun _ => ?_
  · intro s t hR
    refine ⟨rfl, hR.reg, hR.mem, hR.execStatus, hR.stepMode, ?_, hR.board, hR.fetches⟩
    show land s.pendingIRQ (lnot (shl 1 (lv.val : Int))) =
      num (t.pendingIrq &&& ~~~((1 : U8) <<< lv.val))
    rw [hR.pendingIRQ, shl_level, land_lnot_num _ _ (by decide)]
  refine Sim.bind CSBR_sim fun csbr => ?_
  refine Sim.bind (setOSR_sim (by simp)) fun _ => ?_
  refine Sim.bind (setCSBR_sim rfl) fun _ => ?_
  refine Sim.bind STR_sim fun str => ?_
  refine Sim.bind (wrPhys_sim d (hslot _ (lv.val * 2) (by omega) (by omega)) rfl) fun _ => ?_
  refine Sim.bind IC_sim fun ic => ?_
  refine Sim.bind (wrPhys_sim d (hslot _ (lv.val * 2 + 1) (by omega) (by omega)) rfl) fun _ => ?_
  refine Sim.bind (f := num) (reg_sim fun _ => rfl) fun npp => ?_
  refine Sim.bind (rdPhys_sim d (hnew npp _ (lv.val * 2) (by simp) (by omega))) fun str => ?_
  refine Sim.bind (setSTR_sim rfl) fun _ => ?_
  refine Sim.bind (rdPhys_sim d (hnew npp _ (lv.val * 2 + 1) (by simp [Int.add_assoc]) (by omega))) fun ic => ?_
  exact setIC_sim rfl

theorem irqLevel_eq {s : EmuTs.Mn1613.Cpu σ} {t : EmuRs.Mn1613.Core σ} (hR : Rel s t) :
    EmuTs.Mn1613.irqLevel s = EmuRs.Mn1613.irqLevel t := by
  have hacc (lv : Fin 3) :
      EmuTs.Mn1613.acceptable s lv = EmuRs.Mn1613.acceptable t lv := by
    have hmask : EmuTs.Mn1613.levelMask lv = num (EmuRs.Mn1613.levelMask lv) := by
      match lv with
      | 0 | 1 | 2 => decide
    have hstr : s.reg.STR = num t.regs.str := by rw [hR.reg]; rfl
    simp [EmuTs.Mn1613.acceptable, EmuRs.Mn1613.acceptable, hR.pendingIRQ, hstr, hmask,
      shl_level]
  simp only [EmuTs.Mn1613.irqLevel, EmuRs.Mn1613.irqLevel, funext hacc]

theorem handleIRQ_sim :
    Sim' id (EmuTs.Mn1613.handleIRQ d.board) (EmuRs.Mn1613.handleIrq (σ := σ)) := by
  intro s t hR
  cases h : EmuRs.Mn1613.irqLevel t with
  | none =>
      rw [EmuTs.Mn1613.handleIRQ_none d.board ((irqLevel_eq hR).trans h),
        EmuRs.Mn1613.handleIrq_none h]
      exact ⟨rfl, hR⟩
  | some lv =>
      rw [EmuTs.Mn1613.handleIRQ_some d.board ((irqLevel_eq hR).trans h),
        EmuRs.Mn1613.handleIrq_some h]
      exact acceptIrq_sim d lv s t hR

theorem trapUndefinedInsn_sim :
    Sim' id (EmuTs.Mn1613.trapUndefinedInsn d.board)
      (EmuRs.Mn1613.trapUndefined (σ := σ)) := by
  unfold EmuTs.Mn1613.trapUndefinedInsn EmuRs.Mn1613.trapUndefined
  rw [setReg_setReg]
  refine Sim.bind (f := id) (setReg_sim fun r => ?_) fun _ => acceptIrq_sim d 0
  simp [embedReg, EmuTs.Mn1613.IISR_UNDEF, EmuRs.Mn1613.IISR_UNDEF, BitVec.or_assoc]

end StackAndInterrupt

end Simulation
end Mn1613
end RetroCpu
