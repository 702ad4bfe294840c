import RetroCpu.EmuTs.Mn1613Board
import RetroCpu.EmuTs.Tms9995Cpu

/-!
# DMA sessions of the CPU board (`cpu_dma.ts`)

A session is opened outside the `try` that closes it, and closing lowers HLT whoever raised
it.  `writeBytes` and `writeWords` leave no trace but the data exactly when the session can be
opened, HLT is low before, and no word of a TMS9995 reaches behind the last byte after others
have been changed.
-/

namespace RetroCpu
namespace EmuTs
namespace CpuDma

abbrev U8 := BitVec 8
abbrev U16 := BitVec 16
abbrev U32 := BitVec 32

section Source

/-- `CPU_TYPE` -/
inductive CpuType where
  | MN1613
  | TMS9995
deriving DecidableEq

/-- What `getExecStatus` and `getPins` tell; RUN is the status `running`. -/
structure Look where
  status : Mn1613.ExecStatus
  HLT : Bool
  RST : Bool

/-- The part of `CpuCoreModule` that the DMA uses, with the laws that both cores obey. -/
structure CpuCore (κ μ : Type) where
  cpuType : CpuType
  look : κ → Look
  /-- `setPins({ HLT })` -/
  setHlt : Bool → κ → κ
  memory : κ → μ
  byteLength : Nat
  /-- `view.setUint8` -/
  setUint8 : Nat → U8 → κ → κ
  HLT_setHlt : ∀ v s, (look (setHlt v s)).HLT = v
  stopped_setHlt : ∀ s, (look (setHlt true s)).status ≠ .running
  memory_setHlt : ∀ v s, memory (setHlt v s) = memory s
  look_setUint8 : ∀ a v s, look (setUint8 a v s) = look s

/-- What `writeBytes` and `writeWords` throw. -/
inductive DmaError where
  | alreadyBusy
  | runTimeout
  | notWritable
  | byteAddrOutOfRange (off : Nat)
  | wordAddrOutOfRange (wordAddr : Nat)
deriving DecidableEq

def DmaError.message : DmaError → String
  | .alreadyBusy => "DMA already busy"
  | .runTimeout => "DMA wait RUN=0 timeout"
  | .notWritable => "DMA write only allowed during HALT/RESET"
  | .byteAddrOutOfRange off =>
      "DMA write out of range byteAddr=0x" ++ String.ofList (Nat.toDigits 16 off)
  | .wordAddrOutOfRange wordAddr =>
      "DMA write out of range wordAddr=0x" ++ String.ofList (Nat.toDigits 16 wordAddr)

/-- The core, `_busy` and the calls of `onBusy` so far. -/
structure Dma (κ : Type) where
  core : κ
  busy : Bool
  notices : List Bool

variable {κ μ : Type} (c : CpuCore κ μ)

/-- `mayTouchMemory` -/
def mayTouchMemory (s : κ) : Bool :=
  (c.look s).HLT || (c.look s).RST || (c.look s).status = .idle || (c.look s).status = .halted

/-- `view.setUint16(off, value, false)` -/
def setUint16 (off : Nat) (value : U16) (s : κ) : κ :=
  c.setUint8 (off + 1) (value.setWidth 8) (c.setUint8 off ((value >>> 8).setWidth 8) s)

/-- `writeWordToRam` -/
def writeWordToRam (wordAddr : Nat) (value : U16) (s : κ) : Option DmaError × κ :=
  match c.cpuType with
  | .TMS9995 =>
      let off := wordAddr % 0x10000
      if off + 1 ≥ c.byteLength then (some (.byteAddrOutOfRange off), s)
      else (none, setUint16 c off value s)
  | .MN1613 =>
      let off := wordAddr % 0x10000 * 2
      if off + 1 ≥ c.byteLength then (some (.wordAddrOutOfRange wordAddr), s)
      else (none, setUint16 c off value s)

/-- The loop of `writeBytes` on a TMS9995 -/
def writeSingleBytes : List U8 → Nat → κ → Option DmaError × κ
  | [], _, s => (none, s)
  | b :: data, addr, s =>
      if mayTouchMemory c s then writeSingleBytes data (addr + 1) (c.setUint8 (addr % 0x10000) b s)
      else (some .notWritable, s)

/-- The loop of `writeBytes` on an MN1613 -/
def writeBytePairs : List U8 → Nat → κ → Option DmaError × κ
  | [], _, s => (none, s)
  | [hi], addr, s =>
      if mayTouchMemory c s then writeWordToRam c (addr / 2 % 2 ^ 32) (hi ++ (0 : U8)) s
      else (some .notWritable, s)
  | hi :: lo :: data, addr, s =>
      if mayTouchMemory c s then
        match writeWordToRam c (addr / 2 % 2 ^ 32) (hi ++ lo) s with
        | (some e, s) => (some e, s)
        | (none, s) => writeBytePairs data (addr + 2) s
      else (some .notWritable, s)

/-- The loop of `writeWords` -/
def writeWordList : List U16 → U32 → κ → Option DmaError × κ
  | [], _, s => (none, s)
  | w :: words, a, s =>
      if mayTouchMemory c s then
        match writeWordToRam c a.toNat w s with
        | (some e, s) => (some e, s)
        | (none, s) => writeWordList words (a + if c.cpuType = .TMS9995 then 2 else 1) s
      else (some .notWritable, s)

/-- A call of `writeBytes` or `writeWords`; the address is the number behind `>>> 0`. -/
inductive Call where
  | writeBytes (byteAddr : U32) (data : List U8)
  | writeWords (wordAddr : U32) (words : List U16)

/-- The `try` part of a call -/
def transfer : Call → κ → Option DmaError × κ
  | .writeBytes byteAddr data, s =>
      match c.cpuType with
      | .TMS9995 => writeSingleBytes c data byteAddr.toNat s
      | .MN1613 => writeBytePairs c data byteAddr.toNat s
  | .writeWords wordAddr words, s => writeWordList c words wordAddr s

/-- The wait for RUN=0, with as many yields as the deadline leaves time for; `turn` is what
happens to the core in them. -/
def waitRun (turn : Nat → κ → κ) : Nat → Dma κ → Option DmaError × Dma κ
  | 0, d =>
      if (c.look d.core).status = .running then
        (some .runTimeout,
          { core := c.setHlt false d.core, busy := false, notices := d.notices ++ [false] })
      else (none, d)
  | n + 1, d =>
      if (c.look d.core).status = .running then waitRun turn n { d with core := turn n d.core }
      else (none, d)

/-- The end of `begin`: `assertWritable` -/
def beginChecked : Option DmaError × Dma κ → Option DmaError × Dma κ
  | (some e, d) => (some e, d)
  | (none, d) => if mayTouchMemory c d.core then (none, d) else (some .notWritable, d)

/-- `begin` -/
def begin_ (turn : Nat → κ → κ) (rounds : Nat) (d : Dma κ) : Option DmaError × Dma κ :=
  if d.busy then (some .alreadyBusy, d)
  else
    let d := { d with busy := true, notices := d.notices ++ [true] }
    beginChecked c <|
      if (c.look d.core).status = .running then
        waitRun c turn rounds { d with core := c.setHlt true d.core }
      else (none, d)

/-- `end` -/
def end_ (d : Dma κ) : Dma κ where
  core := if (c.look d.core).HLT then c.setHlt false d.core else d.core
  busy := false
  notices := d.notices ++ [false]

/-- `writeBytes` and `writeWords` -/
def run (turn : Nat → κ → κ) (rounds : Nat) (call : Call) (d : Dma κ) : Option DmaError × Dma κ :=
  match begin_ c turn rounds d with
  | (some e, d) => (some e, d)
  | (none, d) =>
      let r := transfer c call d.core
      (r.1, end_ c { d with core := r.2 })

end Source

section Sessions

variable {κ μ : Type} {c : CpuCore κ μ} {s : κ} {d : Dma κ}

theorem mayTouchMemory_look {s' : κ} (h : c.look s' = c.look s) :
    mayTouchMemory c s' = mayTouchMemory c s := by
  rw [mayTouchMemory, mayTouchMemory, h]

@[simp] theorem look_setUint16 (off : Nat) (value : U16) (s : κ) :
    c.look (setUint16 c off value s) = c.look s := by
  rw [setUint16, c.look_setUint8, c.look_setUint8]

/-- What holds of every part of a transfer: neither the status nor a pin moves, and no other
session is found. -/
structure Tame (c : CpuCore κ μ) (s : κ) (r : Option DmaError × κ) : Prop where
  look : c.look r.2 = c.look s
  notBusy : r.1 ≠ some .alreadyBusy

theorem Tame.done (s : κ) : Tame c s (none, s) := ⟨rfl, fun h => nomatch h⟩

theorem Tame.refused (s : κ) : Tame c s (some .notWritable, s) := ⟨rfl, fun h => nomatch h⟩

theorem Tame.trans {s' : κ} {r : Option DmaError × κ} (hlook : c.look s' = c.look s)
    (h : Tame c s' r) : Tame c s r := ⟨h.look.trans hlook, h.notBusy⟩

theorem tame_writeWordToRam (wordAddr : Nat) (value : U16) (s : κ) :
    Tame c s (writeWordToRam c wordAddr value s) := by
  rw [writeWordToRam]
  split
  · dsimp only
    split
    · exact ⟨rfl, fun h => nomatch h⟩
    · exact .trans (look_setUint16 _ _ s) (.done _)
  · dsimp only
    split
    · exact ⟨rfl, fun h => nomatch h⟩
    · exact .trans (look_setUint16 _ _ s) (.done _)

theorem tame_writeSingleBytes (data : List U8) (addr : Nat) (s : κ) :
    Tame c s (writeSingleBytes c data addr s) := by
  induction data generalizing addr s with
  | nil => exact .done s
  | cons b data ih =>
      rw [writeSingleBytes]
      split
      · exact .trans (c.look_setUint8 _ _ s) (ih _ _)
      · exact .refused s

theorem tame_writeBytePairs (data : List U8) (addr : Nat) (s : κ) :
    Tame c s (writeBytePairs c data addr s) := by
  induction data, addr, s using writeBytePairs.induct c with
  | case1 addr s => exact .done s
  | case2 hi addr s htouch =>
      rw [writeBytePairs, if_pos htouch]
      exact tame_writeWordToRam _ _ s
  | case3 hi addr s htouch =>
      rw [writeBytePairs, if_neg htouch]
      exact .refused s
  | case4 hi lo data addr s htouch e s' hword =>
      have htame := tame_writeWordToRam (c := c) (addr / 2 % 2 ^ 32) (hi ++ lo) s
      rw [hword] at htame
      rw [writeBytePairs, if_pos htouch, hword]
      exact htame
  | case5 hi lo data addr s htouch s' hword ih =>
      have htame := tame_writeWordToRam (c := c) (addr / 2 % 2 ^ 32) (hi ++ lo) s
      rw [hword] at htame
      rw [writeBytePairs, if_pos htouch, hword]
      exact .trans htame.look ih
  | case6 hi lo data addr s htouch =>
      rw [writeBytePairs, if_neg htouch]
      exact .refused s

theorem tame_writeWordList (words : List U16) (a : U32) (s : κ) :
    Tame c s (writeWordList c words a s) := by
  induction words generalizing a s with
  | nil => exact .done s
  | cons w words ih =>
      have htame := tame_writeWordToRam (c := c) a.toNat w s
      rw [writeWordList]
      split
      · cases hword : writeWordToRam c a.toNat w s with
        | mk thrown s' =>
            rw [hword] at htame
            cases thrown with
            | some e => exact htame
            | none => exact .trans htame.look (ih _ _)
      · exact .refused s

theorem tame_transfer (call : Call) (s : κ) : Tame c s (transfer c call s) := by
  cases call with
  | writeBytes byteAddr data =>
      rw [transfer]
      split
      · exact tame_writeSingleBytes data _ s
      · exact tame_writeBytePairs data _ s
  | writeWords wordAddr words => exact tame_writeWordList words wordAddr s

/-- The core in an open session: HLT is raised when it was running. -/
def opened (c : CpuCore κ μ) (s : κ) : κ :=
  if (c.look s).status = .running then c.setHlt true s else s

/-- A session can be opened. -/
def Opens (c : CpuCore κ μ) (s : κ) : Prop :=
  (c.look s).HLT = true ∨ (c.look s).RST = true ∨
    (c.look s).status ≠ .brk ∧ (c.look s).status ≠ .step

/-- Raising HLT stops the core at once: nothing is waited for. -/
theorem begin_idle (turn : Nat → κ → κ) (rounds : Nat) (hbusy : d.busy = false) :
    begin_ c turn rounds d =
      (if mayTouchMemory c (opened c d.core) then none else some .notWritable,
        { core := opened c d.core, busy := true, notices := d.notices ++ [true] }) := by
  have hwait : ∀ d : Dma κ, (c.look d.core).status ≠ .running →
      waitRun c turn rounds d = (none, d) := by
    intro d hd
    cases rounds with
    | zero => rw [waitRun, if_neg hd]
    | succ n => rw [waitRun, if_neg hd]
  rw [begin_, hbusy, if_neg Bool.false_ne_true]
  dsimp only
  by_cases hrun : (c.look d.core).status = .running
  · rw [if_pos hrun, hwait _ (c.stopped_setHlt d.core), beginChecked, opened, if_pos hrun]
    split <;> rfl
  · rw [if_neg hrun, beginChecked, opened, if_neg hrun]
    split <;> rfl

theorem mayTouchMemory_opened : mayTouchMemory c (opened c s) = true ↔ Opens c s := by
  rw [opened, Opens]
  by_cases hrun : (c.look s).status = .running
  · rw [if_pos hrun, mayTouchMemory, c.HLT_setHlt, hrun]
    simp
  · rw [if_neg hrun, mayTouchMemory]
    cases hstatus : (c.look s).status <;> simp_all

/-- What is asked of a call, whether it throws or not. -/
structure Closed (c : CpuCore κ μ) (d d' : Dma κ) (thrown : Option DmaError) : Prop where
  idle : d'.busy = false
  notified : ∃ given, d'.notices = d.notices ++ given ++ [false]
  pin : (c.look d'.core).HLT = (c.look d.core).HLT
  accepted : ∀ turn rounds later, (run c turn rounds later d').1 ≠ some .alreadyBusy
  unchanged : thrown ≠ none → c.memory d'.core = c.memory d.core

theorem run_idle (turn : Nat → κ → κ) (rounds : Nat) (call : Call) (hbusy : d.busy = false)
    (htouch : mayTouchMemory c (opened c d.core) = true) :
    run c turn rounds call d = ((transfer c call (opened c d.core)).1,
      end_ c { core := (transfer c call (opened c d.core)).2, busy := true,
               notices := d.notices ++ [true] }) := by
  rw [run, begin_idle turn rounds hbusy, if_pos htouch]

theorem run_not_busy (turn : Nat → κ → κ) (rounds : Nat) (call : Call) (hbusy : d.busy = false) :
    (run c turn rounds call d).1 ≠ some .alreadyBusy := by
  by_cases htouch : mayTouchMemory c (opened c d.core) = true
  · rw [run_idle turn rounds call hbusy htouch]
    exact (tame_transfer call _).notBusy
  · rw [run, begin_idle turn rounds hbusy, if_neg htouch]
    exact fun h => nomatch h

theorem memory_opened : c.memory (opened c s) = c.memory s := by
  rw [opened]
  split
  · exact c.memory_setHlt true s
  · rfl

theorem HLT_end : (c.look (end_ c d).core).HLT = false := by
  rw [end_]
  dsimp only
  split
  · exact c.HLT_setHlt false _
  · next hlow => exact eq_false_of_ne_true hlow

theorem memory_end : c.memory (end_ c d).core = c.memory d.core := by
  rw [end_]
  dsimp only
  split
  · exact c.memory_setHlt false _
  · rfl

/-- The calls that leave nothing behind, up to what the transfer itself does to the memory. -/
theorem closed_iff_transfer (turn : Nat → κ → κ) (rounds : Nat) (call : Call) (d : Dma κ) :
    Closed c d (run c turn rounds call d).2 (run c turn rounds call d).1 ↔
      d.busy = false ∧ (c.look d.core).HLT = false ∧ Opens c d.core ∧
        ((transfer c call (opened c d.core)).1 ≠ none →
          c.memory (transfer c call (opened c d.core)).2 = c.memory d.core) := by
  by_cases hbusy : d.busy = false
  · by_cases htouch : mayTouchMemory c (opened c d.core) = true
    · rw [run_idle turn rounds call hbusy htouch]
      constructor
      · intro h
        refine ⟨hbusy, h.pin.symm.trans HLT_end, mayTouchMemory_opened.mp htouch, fun hthrown => ?_⟩
        exact memory_end.symm.trans (h.unchanged hthrown)
      · rintro ⟨-, hlow, -, hmem⟩
        exact ⟨rfl, ⟨[true], rfl⟩, HLT_end.trans hlow.symm,
          fun turn rounds later => run_not_busy turn rounds later rfl,
          fun hthrown => memory_end.trans (hmem hthrown)⟩
    · have hrun : run c turn rounds call d = (some .notWritable,
          { core := opened c d.core, busy := true, notices := d.notices ++ [true] }) := by
        rw [run, begin_idle turn rounds hbusy, if_neg htouch]
      rw [hrun]
      constructor
      · exact fun h => Bool.noConfusion h.idle
      · exact fun h => absurd (mayTouchMemory_opened.mpr h.2.2.1) htouch
  · have hrun : run c turn rounds call d = (some .alreadyBusy, d) := by
      rw [run, begin_, if_pos (eq_true_of_ne_false hbusy)]
    rw [hrun]
    constructor
    · exact fun h => absurd h.idle hbusy
    · exact fun h => absurd h.1 hbusy

end Sessions

section Mn1613

open EmuTs.Mn1613 (Machine Board Level)
open RetroCpu.Mn1613 (Mem)

variable {σ : Type} (bd : Board σ)

/-- `setPins({ HLT })` and no other pin -/
def hltPin (v : Bool) : Mn1613.Pin → Option Bool := fun p => if p = .HLT then some v else none

/-- `view.setUint8` on memory that is kept in words -/
def setByte (mem : Mem) (off : Nat) (v : U8) : Mem :=
  let p := BitVec.ofNat 18 (off / 2)
  Function.update mem p <|
    if off % 2 = 0 then v ++ (mem p).setWidth 8 else (mem p >>> 8).setWidth 8 ++ v

/-- What `setPins` leaves alone: the levels of the pins and the memory. -/
structure Sampled (b b' : Machine σ) : Prop where
  now : ∀ p, (b'.pin p).now = (b.pin p).now
  mem : b'.cpu.mem = b.cpu.mem

theorem Sampled.refl (b : Machine σ) : Sampled b b := ⟨fun _ => rfl, rfl⟩

theorem Sampled.trans {b b' b'' : Machine σ} (h : Sampled b b') (h' : Sampled b' b'') :
    Sampled b b'' := ⟨fun p => (h'.now p).trans (h.now p), h'.mem.trans h.mem⟩

theorem sampled_takePin (condition : Mn1613.InputPin → Bool) (p : Mn1613.Pin) (b : Machine σ) :
    Sampled b (b.takePin condition p).2 := by
  refine ⟨fun q => ?_, rfl⟩
  rw [Machine.takePin, Mn1613.InputPin.orTakeDeferred]
  by_cases hq : q = p
  · rw [hq]
    dsimp only
    rw [Function.update_self]
    split <;> rfl
  · dsimp only
    rw [Function.update_of_ne hq]

theorem sampled_reset (b : Machine σ) : Sampled b (b.reset bd) := ⟨fun _ => rfl, rfl⟩

theorem sampled_sampleRst (b : Machine σ) : Sampled b (b.sampleRst bd) := by
  have htake := sampled_takePin Mn1613.InputPin.risingEdge .RST b
  rw [Machine.sampleRst]
  split
  · exact htake.trans (sampled_reset bd _)
  · exact htake

theorem sampled_sampleHlt (b : Machine σ) : Sampled b b.sampleHlt := by
  have htake := sampled_takePin Mn1613.InputPin.now .HLT b
  rw [Machine.sampleHlt]
  split
  · exact htake.trans ⟨fun _ => rfl, rfl⟩
  · exact htake

theorem sampled_sampleIrq (lv : Level) (b : Machine σ) : Sampled b (b.sampleIrq lv) := by
  have htake := sampled_takePin Mn1613.InputPin.risingEdge (.IRQ lv) b
  rw [Machine.sampleIrq]
  split
  · exact htake.trans ⟨fun _ => rfl, rfl⟩
  · exact htake

theorem sampled_processInputPins (b : Machine σ) : Sampled b (b.processInputPins bd) := by
  have hhlt := (sampled_sampleRst bd b).trans (sampled_sampleHlt _)
  have hirq := ((hhlt.trans (sampled_sampleIrq 0 _)).trans (sampled_sampleIrq 1 _)).trans
    (sampled_sampleIrq 2 _)
  exact ⟨hirq.now, hirq.mem⟩

theorem status_sampleIrq (lv : Level) (b : Machine σ) :
    (b.sampleIrq lv).cpu.execStatus = b.cpu.execStatus := by
  rw [Machine.sampleIrq]
  split <;> rfl

/-- While HLT is high nothing runs. -/
theorem stopped_processInputPins {b : Machine σ} (h : (b.pin .HLT).now = true) :
    (b.processInputPins bd).cpu.execStatus ≠ .running := by
  have hnow : ((b.sampleRst bd).pin .HLT).now = true := (sampled_sampleRst bd b).now .HLT ▸ h
  have hhlt : ((b.sampleRst bd).sampleHlt).cpu.execStatus ≠ .running := by
    rw [Machine.sampleHlt, Machine.takePin, Mn1613.InputPin.orTakeDeferred, if_pos hnow]
    dsimp only
    split
    · exact fun hstatus => nomatch hstatus
    · next hnot => exact fun hstatus => hnot ⟨rfl, hstatus⟩
  change (((((b.sampleRst bd).sampleHlt).sampleIrq 0).sampleIrq 1).sampleIrq 2).cpu.execStatus ≠ _
  rw [status_sampleIrq, status_sampleIrq, status_sampleIrq]
  exact hhlt

/-- The MN1613 -/
def mn1613Core : CpuCore (Machine σ) Mem where
  cpuType := .MN1613
  look b := ⟨b.cpu.execStatus, (b.pin .HLT).now, (b.pin .RST).now⟩
  setHlt v b := b.setPins bd (hltPin v)
  memory b := b.cpu.mem
  byteLength := 2 ^ 19
  setUint8 off v b := { b with cpu := { b.cpu with mem := setByte b.cpu.mem off v } }
  HLT_setHlt _ _ := (sampled_processInputPins bd _).now .HLT
  stopped_setHlt _ := stopped_processInputPins bd rfl
  memory_setHlt _ _ := (sampled_processInputPins bd _).mem
  look_setUint8 _ _ _ := rfl

/-- Every word address of an MN1613 lies in its memory. -/
theorem mn1613_writeWordToRam (wordAddr : Nat) (value : U16) (b : Machine σ) :
    (writeWordToRam (mn1613Core bd) wordAddr value b).1 = none := by
  have hin : ¬ wordAddr % 0x10000 * 2 + 1 ≥ (mn1613Core bd).byteLength := by
    change ¬ _ ≥ 2 ^ 19
    omega
  have hword : writeWordToRam (mn1613Core bd) wordAddr value b =
      if wordAddr % 0x10000 * 2 + 1 ≥ (mn1613Core bd).byteLength then
        (some (.wordAddrOutOfRange wordAddr), b)
      else (none, setUint16 (mn1613Core bd) (wordAddr % 0x10000 * 2) value b) := rfl
  rw [hword, if_neg hin]

theorem mn1613_writeWordList (words : List U16) (a : U32) {b : Machine σ}
    (h : mayTouchMemory (mn1613Core bd) b = true) :
    (writeWordList (mn1613Core bd) words a b).1 = none := by
  induction words generalizing a b with
  | nil => rfl
  | cons w words ih =>
      have hnone := mn1613_writeWordToRam bd a.toNat w b
      have htame := tame_writeWordToRam (c := mn1613Core bd) a.toNat w b
      rw [writeWordList, if_pos h]
      cases hword : writeWordToRam (mn1613Core bd) a.toNat w b with
      | mk thrown b' =>
          rw [hword] at hnone htame
          change thrown = none at hnone
          rw [hnone]
          exact ih _ ((mayTouchMemory_look htame.look).trans h)

theorem mn1613_writeBytePairs (data : List U8) (addr : Nat) {b : Machine σ}
    (h : mayTouchMemory (mn1613Core bd) b = true) :
    (writeBytePairs (mn1613Core bd) data addr b).1 = none := by
  induction data, addr, b using writeBytePairs.induct (mn1613Core bd) with
  | case1 addr b => rfl
  | case2 hi addr b htouch =>
      rw [writeBytePairs, if_pos htouch]
      exact mn1613_writeWordToRam bd _ _ b
  | case3 hi addr b htouch => exact absurd h htouch
  | case4 hi lo data addr b htouch e b' hword =>
      have hnone := mn1613_writeWordToRam bd (addr / 2 % 2 ^ 32) (hi ++ lo) b
      rw [hword] at hnone
      cases hnone
  | case5 hi lo data addr b htouch b' hword ih =>
      have htame := tame_writeWordToRam (c := mn1613Core bd) (addr / 2 % 2 ^ 32) (hi ++ lo) b
      rw [hword] at htame
      rw [writeBytePairs, if_pos htouch, hword]
      exact ih ((mayTouchMemory_look htame.look).trans h)
  | case6 hi lo data addr b htouch => exact absurd h htouch

/-- On an MN1613 only opening a session can fail. -/
theorem mn1613_transfer (call : Call) {b : Machine σ}
    (h : mayTouchMemory (mn1613Core bd) b = true) : (transfer (mn1613Core bd) call b).1 = none := by
  cases call with
  | writeBytes byteAddr data => exact mn1613_writeBytePairs bd data _ h
  | writeWords wordAddr words => exact mn1613_writeWordList bd words wordAddr h

end Mn1613

section Tms9995

open EmuTs.Tms9995 (Core Tms9995Io Pins)

variable {τ : Type} (io : Tms9995Io τ)

/-- A pin that is sampled, with nothing deferred -/
def SteadyPin (p : Tms9995.InputPin) : Prop := p.previous = p.current ∧ p.deferred = false

/-- All pins are sampled: `setPins` does so at once, and nothing defers an assertion. -/
structure Steady (p : Pins) : Prop where
  RST : SteadyPin p.RST
  HLT : SteadyPin p.HLT
  IRQ1 : SteadyPin p.IRQ1
  IRQ2 : SteadyPin p.IRQ2
  NMI : SteadyPin p.NMI

/-- A TMS9995 between two calls -/
structure SteadyCore (τ : Type) where
  core : Core τ
  steady : Steady core.pins

/-- `setPins({ HLT })` and no other pin -/
def hltLevel (v : Bool) : Tms9995.Pin → Option Bool := fun p => if p = .HLT then some v else none

theorem SteadyPin.not_risingEdge {p : Tms9995.InputPin} (h : SteadyPin p) : p.risingEdge = false := by
  rw [Tms9995.InputPin.risingEdge, h.1, Bool.and_not_self]

theorem SteadyPin.commitSample {p : Tms9995.InputPin} (h : SteadyPin p) : p.commitSample = p := by
  obtain ⟨current, previous, deferred⟩ := p
  cases h.1
  rfl

theorem set_get (p : Pins) (pin : Tms9995.Pin) : p.set (p.get pin) pin = p := by
  cases pin <;> rfl

/-- A pin without a condition and without a deferred assertion is not taken. -/
theorem takePin_not {s : Core τ} {condition : Tms9995.InputPin → Bool} {pin : Tms9995.Pin}
    (hcondition : condition (s.pins.get pin) = false) (hdeferred : (s.pins.get pin).deferred = false) :
    (Tms9995.takePin condition pin).run s = (false, s) := by
  have hpin : { s.pins.get pin with deferred := false } = s.pins.get pin := by
    rw [← hdeferred]
  have hset : (if condition (s.pins.get pin) then (true, s)
      else ((s.pins.get pin).deferred,
        { s with pins := s.pins.set { s.pins.get pin with deferred := false } pin })) =
      (false, s) := by
    rw [hcondition, if_neg Bool.false_ne_true, hpin, set_get, hdeferred]
  rw [← hset]
  change (if condition (s.pins.get pin) then _ else _ : StateM (Core τ) Bool).run s = _
  split <;> rfl

/-- Setting HLT on a core whose pins are sampled -/
theorem setPins_steady {s : Core τ} (h : Steady s.pins) (v : Bool) :
    ((Tms9995.setPins io (hltLevel v)).run s).2 =
      { s with
        pins := { s.pins with HLT := ⟨v, v, false⟩ }
        execStatus := if v = true ∧ s.execStatus = .running then .halted else s.execStatus } := by
  let s₁ : Core τ := { s with pins := { s.pins with HLT := { s.pins.HLT with current := v } } }
  let s₂ : Core τ :=
    { s₁ with execStatus := if v = true ∧ s.execStatus = .running then .halted else s.execStatus }
  have hrst : (Tms9995.takePin Tms9995.InputPin.risingEdge .RST).run s₁ = (false, s₁) :=
    takePin_not h.RST.not_risingEdge h.RST.2
  have hhlt : (Tms9995.takePin Tms9995.InputPin.current .HLT).run s₁ = (v, s₁) := by
    cases v with
    | true => rfl
    | false =>
        have hlow : (s₁.pins.get .HLT).current = false := rfl
        have hnone : (s₁.pins.get .HLT).deferred = false := h.HLT.2
        exact takePin_not hlow hnone
  have hhalt : ∀ next : Unit → Tms9995.M τ Unit,
      (if v = true then Tms9995.requestHalt >>= next else next ()).run s₁ = (next ()).run s₂ := by
    intro next
    have hstatus : Tms9995.requestHalt.run s₁ =
        ((), if s.execStatus = .running then { s₁ with execStatus := .halted } else s₁) := rfl
    by_cases hv : v = true
    · rw [if_pos hv, Prog.run_bind, hstatus]
      dsimp only
      by_cases hrun : s.execStatus = .running
      · simp only [s₂, hv, hrun, and_self, if_true]
      · simp only [s₂, hv, hrun, and_false, if_false]
        rfl
    · simp only [s₂, hv]
      rfl
  have hirq1 : (Tms9995.takePin Tms9995.InputPin.risingEdge .IRQ1).run s₂ = (false, s₂) :=
    takePin_not h.IRQ1.not_risingEdge h.IRQ1.2
  have hirq2 : (Tms9995.takePin Tms9995.InputPin.risingEdge .IRQ2).run s₂ = (false, s₂) :=
    takePin_not h.IRQ2.not_risingEdge h.IRQ2.2
  have hnmi : (Tms9995.takePin Tms9995.InputPin.risingEdge .NMI).run s₂ = (false, s₂) :=
    takePin_not h.NMI.not_risingEdge h.NMI.2
  have hstart : ((Tms9995.setPins io (hltLevel v)).run s).2 =
      ((Tms9995.processInputPins io).run s₁).2 := rfl
  rw [hstart, Tms9995.processInputPins, Prog.run_bind, hrst, if_neg Bool.false_ne_true,
    Prog.run_bind, hhlt]
  refine (congrArg Prod.snd (hhalt _)).trans ?_
  rw [Prog.run_bind, hirq1, if_neg Bool.false_ne_true, Prog.run_bind, hirq2,
    if_neg Bool.false_ne_true, Prog.run_bind, hnmi, if_neg Bool.false_ne_true]
  have hpins : s₂.pins.map Tms9995.InputPin.commitSample =
      { s.pins with HLT := ⟨v, v, false⟩ } := by
    have hold := h.HLT.2
    change Pins.mk _ _ _ _ _ = _
    rw [h.RST.commitSample, h.IRQ1.commitSample, h.IRQ2.commitSample, h.NMI.commitSample]
    exact congrArg (fun deferred => { s.pins with HLT := ⟨v, v, deferred⟩ }) hold
  exact congrArg (fun pins => { s₂ with pins := pins }) hpins

theorem steady_setPins {s : Core τ} (h : Steady s.pins) (v : Bool) :
    Steady ((Tms9995.setPins io (hltLevel v)).run s).2.pins := by
  rw [setPins_steady io h v]
  exact ⟨h.RST, ⟨rfl, rfl⟩, h.IRQ1, h.IRQ2, h.NMI⟩

/-- `getExecStatus`, read as a status of the MN1613 -/
def execStatusOf : Tms9995.TmsExecStatus → Mn1613.ExecStatus
  | .idle => .idle
  | .running => .running
  | .step => .step
  | .break => .brk
  | .halted => .halted

/-- The TMS9995 -/
def tms9995Core : CpuCore (SteadyCore τ) (U16 → U8) where
  cpuType := .TMS9995
  look s := ⟨execStatusOf s.core.execStatus, s.core.pins.HLT.current, s.core.pins.RST.current⟩
  setHlt v s :=
    ⟨((Tms9995.setPins io (hltLevel v)).run s.core).2, steady_setPins io s.steady v⟩
  memory s := s.core.memory
  byteLength := 0x10000
  setUint8 off v s :=
    ⟨{ s.core with memory := Function.update s.core.memory (BitVec.ofNat 16 off) v }, s.steady⟩
  HLT_setHlt v s := by
    dsimp only
    rw [setPins_steady io s.steady v]
  stopped_setHlt s := by
    dsimp only
    rw [setPins_steady io s.steady true]
    cases hstatus : s.core.execStatus <;> exact fun hrun => nomatch hrun
  memory_setHlt v s := by
    dsimp only
    rw [setPins_steady io s.steady v]
  look_setUint8 _ _ _ := rfl

theorem tms9995_writeSingleBytes (data : List U8) (addr : Nat) {s : SteadyCore τ}
    (h : mayTouchMemory (tms9995Core io) s = true) :
    (writeSingleBytes (tms9995Core io) data addr s).1 = none := by
  induction data generalizing addr s with
  | nil => rfl
  | cons b data ih =>
      rw [writeSingleBytes, if_pos h]
      exact ih _ ((mayTouchMemory_look ((tms9995Core io).look_setUint8 _ _ _)).trans h)

/-- The two bytes of a word are in the memory. -/
def Holds (mem : U16 → U8) (off : Nat) (w : U16) : Prop :=
  mem (BitVec.ofNat 16 off) = (w >>> 8).setWidth 8 ∧
    mem (BitVec.ofNat 16 (off + 1)) = w.setWidth 8

theorem tms9995_writeWordToRam (wordAddr : Nat) (w : U16) (s : SteadyCore τ) :
    writeWordToRam (tms9995Core io) wordAddr w s =
      if wordAddr % 0x10000 + 1 ≥ 0x10000 then
        (some (.byteAddrOutOfRange (wordAddr % 0x10000)), s)
      else (none, setUint16 (tms9995Core io) (wordAddr % 0x10000) w s) := rfl

theorem memory_setUint16 {off : Nat} (hoff : off + 1 < 0x10000) (w : U16) (s : SteadyCore τ) :
    Holds (setUint16 (tms9995Core io) off w s).core.memory off w ∧
      ∀ x : U16, x.toNat ≠ off → x.toNat ≠ off + 1 →
        (setUint16 (tms9995Core io) off w s).core.memory x = s.core.memory x := by
  have hmem : (setUint16 (tms9995Core io) off w s).core.memory =
      Function.update (Function.update s.core.memory (BitVec.ofNat 16 off) ((w >>> 8).setWidth 8))
        (BitVec.ofNat 16 (off + 1)) (w.setWidth 8) := rfl
  have hlo : (BitVec.ofNat 16 off).toNat = off := by
    rw [BitVec.toNat_ofNat]
    omega
  have hhi : (BitVec.ofNat 16 (off + 1)).toNat = off + 1 := by
    rw [BitVec.toNat_ofNat]
    omega
  have hne : BitVec.ofNat 16 off ≠ BitVec.ofNat 16 (off + 1) := by
    intro heq
    have hnat := congrArg BitVec.toNat heq
    omega
  rw [hmem]
  refine ⟨⟨?_, Function.update_self _ _ _⟩, fun x hx hx' => ?_⟩
  · rw [Function.update_of_ne hne, Function.update_self]
  · rw [Function.update_of_ne, Function.update_of_ne]
    · rintro rfl
      exact hx hlo
    · rintro rfl
      exact hx' hhi

theorem setUint16_held {off : Nat} (hoff : off + 1 < 0x10000) {w : U16} {s : SteadyCore τ}
    (h : Holds s.core.memory off w) :
    (setUint16 (tms9995Core io) off w s).core.memory = s.core.memory := by
  obtain ⟨hnew, hother⟩ := memory_setUint16 io hoff w s
  funext x
  by_cases hx : x.toNat = off
  · rw [show x = BitVec.ofNat 16 off by rw [← hx, BitVec.ofNat_toNat, BitVec.setWidth_eq]]
    exact hnew.1.trans h.1.symm
  · by_cases hx' : x.toNat = off + 1
    · rw [show x = BitVec.ofNat 16 (off + 1) by rw [← hx', BitVec.ofNat_toNat, BitVec.setWidth_eq]]
      exact hnew.2.trans h.2.symm
    · exact hother x hx hx'

theorem next_off (a : U32) :
    (a + 2).toNat % 0x10000 = (a.toNat % 0x10000 + 2) % 0x10000 := by
  rw [BitVec.toNat_add]
  change (a.toNat + 2) % 2 ^ 32 % 0x10000 = _
  omega

/-- Words that do not reach behind the last byte are all written. -/
theorem writeWordList_short (words : List U16) (a : U32) {s : SteadyCore τ}
    (h : mayTouchMemory (tms9995Core io) s = true)
    (hshort : ∀ k, a.toNat % 0x10000 + 2 * k = 0xffff → words.length ≤ k) :
    (writeWordList (tms9995Core io) words a s).1 = none := by
  induction words generalizing a s with
  | nil => rfl
  | cons w words ih =>
      have hfirst : a.toNat % 0x10000 ≠ 0xffff := fun hoff => absurd (hshort 0 hoff) (by simp)
      have hin : a.toNat % 0x10000 + 1 < 0x10000 := by omega
      rw [writeWordList, if_pos h, tms9995_writeWordToRam, if_neg (by omega)]
      refine ih _ ((mayTouchMemory_look (look_setUint16 _ _ _)).trans h) fun k hk => ?_
      have hnext := next_off a
      have hlen := hshort (k + 1)
      rw [List.length_cons] at hlen
      change (a + 2).toNat % 0x10000 + 2 * k = 0xffff at hk
      omega

/-- Words that reach behind the last byte are written up to there; the memory is unchanged when
it held them before. -/
theorem writeWordList_reach (words : List U16) (a : U32) {s : SteadyCore τ} {k : Nat}
    (h : mayTouchMemory (tms9995Core io) s = true)
    (hk : a.toNat % 0x10000 + 2 * k = 0xffff) (hlen : k < words.length) :
    (writeWordList (tms9995Core io) words a s).1 ≠ none ∧
      (∀ x : U16, x.toNat < a.toNat % 0x10000 →
        (writeWordList (tms9995Core io) words a s).2.core.memory x = s.core.memory x) ∧
      ((writeWordList (tms9995Core io) words a s).2.core.memory = s.core.memory ↔
        ∀ i w, i < k → words[i]? = some w →
          Holds s.core.memory (a.toNat % 0x10000 + 2 * i) w) := by
  induction words generalizing a s k with
  | nil => exact absurd hlen (Nat.not_lt_zero k)
  | cons w words ih =>
      cases k with
      | zero =>
          rw [writeWordList, if_pos h, tms9995_writeWordToRam, if_pos (by omega)]
          exact ⟨(fun hnone => nomatch hnone), fun x hx => rfl,
            fun _ i w hi => absurd hi (Nat.not_lt_zero i), fun _ => rfl⟩
      | succ k =>
          have hin : a.toNat % 0x10000 + 1 < 0x10000 := by omega
          have hnext : (a + 2).toNat % 0x10000 = a.toNat % 0x10000 + 2 := by
            rw [next_off a]
            omega
          obtain ⟨hnew, hother⟩ := memory_setUint16 io hin w s
          have htouch := (mayTouchMemory_look (c := tms9995Core io)
            (look_setUint16 (a.toNat % 0x10000) w s)).trans h
          obtain ⟨hthrown, hbefore, hsame⟩ := ih (a + 2) htouch (by omega)
            (Nat.lt_of_succ_lt_succ hlen)
          have hrun : writeWordList (tms9995Core io) (w :: words) a s =
              writeWordList (tms9995Core io) words (a + 2)
                (setUint16 (tms9995Core io) (a.toNat % 0x10000) w s) := by
            rw [writeWordList, if_pos h, tms9995_writeWordToRam, if_neg (by omega)]
            rfl
          rw [hrun]
          refine ⟨hthrown, fun x hx => ?_, fun hmem => ?_, fun hheld => ?_⟩
          · exact (hbefore x (by omega)).trans (hother x (by omega) (by omega))
          · -- the first word stays where it was written
            have hhi := hbefore (BitVec.ofNat 16 (a.toNat % 0x10000)) (by
              rw [BitVec.toNat_ofNat]
              omega)
            have hlo := hbefore (BitVec.ofNat 16 (a.toNat % 0x10000 + 1)) (by
              rw [BitVec.toNat_ofNat]
              omega)
            rw [hmem] at hhi hlo
            have hfirst : Holds s.core.memory (a.toNat % 0x10000) w :=
              ⟨hhi.trans hnew.1, hlo.trans hnew.2⟩
            have hstill := setUint16_held io hin hfirst
            rw [hstill] at hsame
            intro i v hi hv
            cases i with
            | zero =>
                cases hv
                exact hfirst
            | succ i =>
                have hrest := hsame.mp hmem i v (Nat.lt_of_succ_lt_succ hi) hv
                rwa [hnext, Nat.add_assoc, show 2 + 2 * i = 2 * (i + 1) by omega] at hrest
          · have hfirst : Holds s.core.memory (a.toNat % 0x10000) w :=
              hheld 0 w (Nat.succ_pos k) rfl
            have hstill := setUint16_held io hin hfirst
            rw [hstill] at hsame
            refine hsame.mpr fun i v hi hv => ?_
            rw [hnext, Nat.add_assoc, show 2 + 2 * i = 2 * (i + 1) by omega]
            exact hheld (i + 1) v (Nat.succ_lt_succ hi) hv

/-- No word before the one that reaches behind the last byte would change the memory. -/
def Kept (mem : U16 → U8) : Call → Prop
  | .writeBytes _ _ => True
  | .writeWords wordAddr words =>
      ∀ k, wordAddr.toNat % 0x10000 + 2 * k = 0xffff → k < words.length →
        ∀ i w, i < k → words[i]? = some w → Holds mem (wordAddr.toNat % 0x10000 + 2 * i) w

theorem tms9995_transfer (call : Call) {s : SteadyCore τ}
    (h : mayTouchMemory (tms9995Core io) s = true) :
    ((transfer (tms9995Core io) call s).1 ≠ none →
      (transfer (tms9995Core io) call s).2.core.memory = s.core.memory) ↔
        Kept s.core.memory call := by
  cases call with
  | writeBytes byteAddr data =>
      exact iff_of_true (fun hthrown => absurd (tms9995_writeSingleBytes io data _ h) hthrown) trivial
  | writeWords wordAddr words =>
      change ((writeWordList (tms9995Core io) words wordAddr s).1 ≠ none →
        (writeWordList (tms9995Core io) words wordAddr s).2.core.memory = s.core.memory) ↔ _
      by_cases hreach : ∃ k, wordAddr.toNat % 0x10000 + 2 * k = 0xffff ∧ k < words.length
      · obtain ⟨k, hk, hlen⟩ := hreach
        obtain ⟨hthrown, -, hsame⟩ := writeWordList_reach io words wordAddr h hk hlen
        constructor
        · intro hmem k' hk' hlen'
          rw [show k' = k by omega]
          exact hsame.mp (hmem hthrown)
        · exact fun hkept _ => hsame.mpr (hkept k hk hlen)
      · have hnone := writeWordList_short io words wordAddr h fun k hk =>
          Nat.le_of_not_lt fun hlen => hreach ⟨k, hk, hlen⟩
        exact iff_of_true (fun hthrown => absurd hnone hthrown)
          fun k hk hlen => absurd ⟨k, hk, hlen⟩ hreach

end Tms9995

section Cores

open EmuTs.Mn1613 (Machine Board)
open EmuTs.Tms9995 (Tms9995Io)

variable {σ τ : Type}

/-- The calls that leave nothing behind, on both cores. -/
theorem dma_closed_iff (bd : Board σ) (io : Tms9995Io τ) :
    (∀ turn rounds call d, Closed (mn1613Core bd) d (run (mn1613Core bd) turn rounds call d).2
        (run (mn1613Core bd) turn rounds call d).1 ↔
      d.busy = false ∧ ((mn1613Core bd).look d.core).HLT = false ∧ Opens (mn1613Core bd) d.core) ∧
    ∀ turn rounds call d, Closed (tms9995Core io) d (run (tms9995Core io) turn rounds call d).2
        (run (tms9995Core io) turn rounds call d).1 ↔
      d.busy = false ∧ ((tms9995Core io).look d.core).HLT = false ∧ Opens (tms9995Core io) d.core ∧
        Kept d.core.core.memory call := by
  constructor
  · intro turn rounds call d
    rw [closed_iff_transfer]
    refine and_congr_right fun _ => and_congr_right fun _ => and_iff_left_of_imp fun hopens => ?_
    exact fun hthrown => absurd (mn1613_transfer bd call (mayTouchMemory_opened.mpr hopens)) hthrown
  · intro turn rounds call d
    rw [closed_iff_transfer]
    refine and_congr_right fun _ => and_congr_right fun _ => and_congr_right fun hopens => ?_
    have hmem : (opened (tms9995Core io) d.core).core.memory = d.core.core.memory :=
      memory_opened (c := tms9995Core io)
    have htransfer := tms9995_transfer io call (mayTouchMemory_opened.mpr hopens)
    rw [hmem] at htransfer
    exact htransfer

/-- At a breakpoint the refused call leaves the DMA busy for good. -/
theorem break_leaves_busy : ¬ ∀ (d : Dma (Machine Unit)) call, d.busy = false →
    Closed (mn1613Core Board.default) d (run (mn1613Core Board.default) (fun _ s => s) 0 call d).2
      (run (mn1613Core Board.default) (fun _ s => s) 0 call d).1 := by
  intro hall
  have hclosed := hall
    { core := Machine.setStatus .brk (.initial (fun _ => 0) ()), busy := false, notices := [] }
    (.writeWords 0 [0x1234]) rfl
  exact absurd hclosed.idle (by decide)

end Cores

end CpuDma
end EmuTs
end RetroCpu
