import RetroCpu.EmuTs.Mn1613
import RetroCpu.Lib.BitField
import RetroCpu.Lib.JsNumber
import RetroCpu.Lib.SignedChecked
import RetroCpu.Lib.StepRuns

/-!
# The break decision of the MN1613 monitor (`breakpoint.asm`, `breakpoint_hist.asm`)

A comparator hit ends in `g_breakpoint_interrupt_handler`, which looks at the slot table,
compares the watched word and counts.  The blocks of the handler are functions of the registers
they read; what is pushed and popped is kept in a local name.  The signed conditions look at
the sign of a difference of words, and a count that has run down stays at 0, where every hit
stops.
-/

namespace RetroCpu
namespace BootMonitor
namespace Breakpoint

abbrev Byte := BitVec 8
abbrev Word := BitVec 16

section Instructions

/-- The skip conditions of the handler -/
inductive Skip where
  | M
  | PZ
  | Z
  | NZ
deriving DecidableEq

/-- The code `kkkk` of a skip condition -/
def Skip.kkkk : Skip → Nat
  | .M => 2
  | .PZ => 3
  | .Z => 4
  | .NZ => 5

/-- `_skip`: is the next instruction skipped behind this result? -/
def skips : Skip → Word → Bool
  | .M, result => result &&& 0x8000 ≠ 0
  | .PZ, result => ¬ result &&& 0x8000 ≠ 0
  | .Z, result => result = 0
  | .NZ, result => result ≠ 0

/-- The skip conditions are those of the emulator. -/
theorem skip_run {σ : Type} (c : Skip) (result : Word) (s : EmuTs.Mn1613.Cpu σ) :
    ((EmuTs.Mn1613.skip c.kkkk (Js.num result) : EmuTs.Mn1613.M σ Bool).run s) =
      (skips c result, s) := by
  have hsign : Js.land (Js.num result) 0x8000 ≠ 0 ↔ result &&& 0x8000 ≠ 0 := by
    rw [Js.land_ofNat result 0x8000 (by decide) (by decide) (by decide)]
    exact not_congr (Js.num_eq_ofNat _ 0 (by decide))
  have hzero : Js.land (Js.num result) 0xffff = 0 ↔ result = 0 := by
    rw [Js.land_ffff_num]
    exact Js.num_eq_ofNat _ 0 (by decide)
  cases c with
  | M => exact congrArg (·, s) (decide_eq_decide.mpr hsign)
  | PZ =>
      have hflag : (!decide (Js.land (Js.num result) 0x8000 ≠ 0)) = skips .PZ result := by
        rw [← decide_not]
        exact decide_eq_decide.mpr (not_congr hsign)
      exact congrArg (·, s) hflag
  | Z => exact congrArg (·, s) (decide_eq_decide.mpr hzero)
  | NZ =>
      have hflag : (!decide (Js.land (Js.num result) 0xffff = 0)) = skips .NZ result := by
        rw [← decide_not]
        exact decide_eq_decide.mpr (not_congr hzero)
      exact congrArg (·, s) hflag

/-- `bswp` -/
def bswp (w : Word) : Word := (w <<< 8) ||| (w >>> 8)

/-- `lr R0, TSR0, (R1)`: a word of the segment in `TSR0` -/
def lr (mem : BitVec 18 → Word) (TSR0 R1 : Word) : Word :=
  mem (((TSR0 &&& 0xf).setWidth 18 <<< 14) + R1.setWidth 18)

end Instructions

section State

def HSHK_AB_F_IO : Word := 0x01
def HSHK_AB_F_WR : Word := 0x04
def HSHK_AB_F_COND : Word := 0x38
def HSHK_AB_F_INST : Word := 0x40
def HSHK_AB_F_HIST : Word := 0x80

def BP_KIND_INST : Word := 0
def BP_KIND_MEM : Word := 1
def BP_KIND_IO : Word := 2

def BP_COND_EQ : Word := 1
def BP_COND_NE : Word := 2
def BP_COND_GE : Word := 3
def BP_COND_LE : Word := 4
def BP_COND_AND_NZ : Word := 5
def BP_COND_AND_Z : Word := 6

def HSHK_BH_DEPTH : Word := 4
def HSHK_BH_INDEX_MASK : Word := 3
def HSHK_CMD_BREAK_NOTIFY : Byte := 0x1a

/-- A row of `GL_HSHK_ADDR_BREAK` -/
structure Slot where
  ena : Word := 0
  flags : Word := 0
  count : Word := 0
  addrHi : Word := 0
  addrLo : Word := 0
  data : Word := 0
deriving DecidableEq

/-- A row of `GL_BP_HIST_META`, and the four entries of the slot in segment C. -/
structure Ring where
  count : Word := 0
  next : Word := 0
  ovf : Word := 0
  entries : Word → List Word := fun _ => []

/-- The tables of the monitor, by slot. -/
structure Monitor where
  slots : Word → Slot := fun _ => {}
  rings : Word → Ring := fun _ => {}

/-- What the handler finds when a comparator hits: the ports 0033 and 0034, the memory, the
registers of the user program and what was saved of it, the time that 11h answers (0 when it
fails), the bytes that `l_bp_send_hist_entries` gets through, and how many bytes of the 1Ah
frame the IO board takes before it refuses one. -/
structure Hit where
  IO_BREAK_HIT : Word
  IO_BREAK_PREV : Word
  mem : BitVec 18 → Word
  R3 : Word
  R4 : Word
  SP : Word
  TSR0 : Word
  TSR1 : Word
  OSR0 : Word
  SSBR : Word
  NPP : Word
  INT1_STR_SAVE : Word
  INT1_IC_SAVE : Word
  time : List Word
  histEntries : List Byte
  taken : Option Nat

end State

section Handler

/-- `g_hshk_mem_map`: the parity, the logical word address and `TSR0` of a byte address -/
def g_hshk_mem_map (R0 R1 : Word) : Word × Word × Word :=
  let lo := R1 >>> 1
  let logical := if skips .Z (R0 &&& 1) then lo else lo + 0x8000
  (R1 &&& 1, logical, ((R0 >>> 1) &&& 3) <<< 2)

/-- The word that a slot watches -/
def watchedWord (mem : BitVec 18 → Word) (X1 : Slot) : Word :=
  let r := g_hshk_mem_map X1.addrHi X1.addrLo
  lr mem r.2.2 r.2.1

/-- `l_bp_ena_ok`: the kind, from the flags -/
def l_bp_ena_ok (flags : Word) : Word :=
  if skips .NZ (flags &&& HSHK_AB_F_INST) then BP_KIND_INST
  else if skips .NZ (flags &&& HSHK_AB_F_IO) then BP_KIND_IO
  else BP_KIND_MEM

/-- `l_bp_cmp_ready`, behind the memory access: `R2` is the word found, `R1` the one expected. -/
def l_bp_cmp (cond R2 R1 : Word) : Bool :=
  if !skips .NZ (cond - BP_COND_EQ) then skips .Z (R2 - R1)
  else if !skips .NZ (cond - BP_COND_NE) then skips .NZ (R2 - R1)
  else if !skips .NZ (cond - BP_COND_GE) then skips .PZ (R2 - R1)
  else if !skips .NZ (cond - BP_COND_LE) then skips .PZ (R1 - R2)
  else if !skips .NZ (cond - BP_COND_AND_NZ) then skips .NZ (R2 &&& R1)
  else if !skips .NZ (cond - BP_COND_AND_Z) then skips .Z (R2 &&& R1)
  else false

/-- `l_bp_have_kind`: does the handler get to `l_bp_count`? -/
def l_bp_have_kind (mem : BitVec 18 → Word) (X1 : Slot) (kind : Word) : Bool :=
  if skips .NZ (kind - BP_KIND_MEM) then true
  else if skips .Z (X1.flags &&& HSHK_AB_F_COND) then true
  else
    let cond := (X1.flags >>> 3) &&& 7
    if skips .Z cond then true else l_bp_cmp cond (watchedWord mem X1) X1.data

/-- The sixteen words of the stack of the user program -/
def stackWords (mem : BitVec 18 → Word) (SP : Word) : List Word :=
  if skips .Z SP then List.replicate 16 0
  else (List.range 16).map fun i => mem ((SP + 1 + BitVec.ofNat 16 i).setWidth 18)

/-- The entry that `g_bp_hist_append` writes -/
def histEntry (h : Hit) (X1 : Slot) (kind : Word) : List Word :=
  let after := if skips .Z (kind - BP_KIND_IO) then 0 else watchedWord h.mem X1
  let prev :=
    if skips .NZ (X1.flags &&& HSHK_AB_F_INST) then 0
    else if skips .NZ (X1.flags &&& HSHK_AB_F_WR) then h.IO_BREAK_PREV
    else 0
  h.time ++ [after, prev, 0, 0, 0, h.R3, h.R4, h.SP, h.INT1_STR_SAVE, h.INT1_IC_SAVE,
    bswp (h.OSR0 &&& 0xf) ||| (h.SSBR &&& 0xf), bswp (h.TSR0 &&& 0xf) ||| (h.TSR1 &&& 0xf),
    bswp (h.NPP &&& 0xff)] ++ stackWords h.mem h.SP

/-- `g_bp_hist_append`, on the ring of the slot -/
def g_bp_hist_append (h : Hit) (X1 : Slot) (kind : Word) (r : Ring) : Ring :=
  let entries := Function.update r.entries r.next (histEntry h X1 kind)
  let next := (r.next + 1) &&& HSHK_BH_INDEX_MASK
  if skips .M (r.count - HSHK_BH_DEPTH) then
    { r with count := r.count + 1, next := next, entries := entries }
  else { r with ovf := 1, next := next, entries := entries }

/-- The bytes of `g_hshk_send_word` -/
def wordBytes (w : Word) : List Byte := [(w >>> 8).setWidth 8, w.setWidth 8]

/-- `l_bp_nt_hc`: the number of entries that go with the notification -/
def historyCount (X1 : Slot) (r : Ring) : Word :=
  if skips .NZ (X1.flags &&& HSHK_AB_F_HIST) then
    let n := r.count &&& 0x00ff
    if skips .M (n - HSHK_BH_DEPTH) then n else HSHK_BH_DEPTH
  else 0

/-- The frame of `l_bp_notify` -/
def breakNotify (h : Hit) (slot : Word) (X1 : Slot) (r : Ring) : List Byte :=
  let n := historyCount X1 r
  [HSHK_CMD_BREAK_NOTIFY, slot.setWidth 8, n.setWidth 8, X1.flags.setWidth 8,
      X1.count.setWidth 8] ++ wordBytes X1.addrHi ++ wordBytes X1.addrLo ++ [n.setWidth 8, 0] ++
    if skips .Z n then [] else h.histEntries

/-- What the IO board takes of a frame -/
def Hit.takes (h : Hit) (frame : List Byte) : List Byte :=
  match h.taken with
  | some n => frame.take n
  | none => frame

/-- `R0` at the return, and the bytes that were sent -/
structure Answer where
  R0 : Word
  sent : List Byte
deriving DecidableEq

/-- `l_bp_notify`: the program stops, whether the notification gets through or not. -/
def l_bp_notify (h : Hit) (slot : Word) (m : Monitor) : Answer :=
  ⟨1, h.takes (breakNotify h slot (m.slots slot) (m.rings slot))⟩

/-- `l_bp_cont` -/
def l_bp_cont : Answer := ⟨0, []⟩

/-- `l_bp_count_body` -/
def l_bp_count_body (h : Hit) (slot : Word) (m : Monitor) : Answer × Monitor :=
  let X1 := m.slots slot
  if skips .Z X1.count then (l_bp_notify h slot m, m)
  else
    let count := X1.count - 1
    let m := { m with slots := Function.update m.slots slot { X1 with count := count } }
    if skips .Z count then (l_bp_notify h slot m, m) else (l_bp_cont, m)

/-- `l_bp_count`: the history first, then the count -/
def l_bp_count (h : Hit) (slot kind : Word) (m : Monitor) : Answer × Monitor :=
  let X1 := m.slots slot
  if skips .NZ (X1.flags &&& HSHK_AB_F_HIST) then
    l_bp_count_body h slot
      { m with rings := Function.update m.rings slot (g_bp_hist_append h X1 kind (m.rings slot)) }
  else l_bp_count_body h slot m

/-- `g_breakpoint_interrupt_handler` -/
def g_breakpoint_interrupt_handler (h : Hit) (m : Monitor) : Answer × Monitor :=
  if skips .NZ (h.IO_BREAK_HIT &&& 0xfff8) then (l_bp_cont, m)
  else
    let slot := h.IO_BREAK_HIT &&& 0x0007
    let X1 := m.slots slot
    if skips .Z X1.ena then (l_bp_cont, m)
    else
      let kind := l_bp_ena_ok X1.flags
      if l_bp_have_kind h.mem X1 kind then l_bp_count h slot kind m else (l_bp_cont, m)

end Handler

section Commands

/-- What 10h brings for a slot, as it comes over the line. -/
structure Program where
  flags : Byte
  n_stop : Byte
  addrHi : Word
  addrLo : Word
  data : Word

/-- The row of a slot that is set, with some count -/
def Program.row (p : Program) (count : Word) : Slot where
  ena := 1
  flags := p.flags.setWidth 16
  count := count
  addrHi := p.addrHi
  addrLo := p.addrLo
  data := p.data

/-- `g_hshk_addr_break_set`, for a slot below 4 and a payload that comes through -/
def g_hshk_addr_break_set (slot : Fin 4) (p : Program) (m : Monitor) : Monitor :=
  { m with slots :=
      Function.update m.slots (BitVec.ofNat 16 slot) (p.row (p.n_stop.setWidth 16)) }

/-- `g_hshk_addr_break_clr`, for a slot below 4 -/
def g_hshk_addr_break_clr (slot : Fin 4) (m : Monitor) : Monitor :=
  { m with slots := Function.update m.slots (BitVec.ofNat 16 slot) ({} : Slot) }

end Commands

section Conditions

/-- The seven conditions, by their code -/
def Condition (code : Nat) (access data : Word) : Prop :=
  match code with
  | 0 => True
  | 1 => access = data
  | 2 => access ≠ data
  | 3 => data.toInt ≤ access.toInt
  | 4 => access.toInt ≤ data.toInt
  | 5 => access &&& data ≠ 0
  | 6 => access &&& data = 0
  | _ => False

instance Condition.decidable :
    (code : Nat) → (access data : Word) → Decidable (Condition code access data)
  | 0, _, _ => .isTrue trivial
  | 1, access, data => inferInstanceAs (Decidable (access = data))
  | 2, access, data => inferInstanceAs (Decidable (access ≠ data))
  | 3, access, data => inferInstanceAs (Decidable (data.toInt ≤ access.toInt))
  | 4, access, data => inferInstanceAs (Decidable (access.toInt ≤ data.toInt))
  | 5, access, data => inferInstanceAs (Decidable (access &&& data ≠ 0))
  | 6, access, data => inferInstanceAs (Decidable (access &&& data = 0))
  | _ + 7, _, _ => .isFalse id

/-- A memory break: neither an instruction nor an IO port -/
def Program.isMem (p : Program) : Bool := !p.flags.getLsbD 6 && !p.flags.getLsbD 0

/-- The code of the condition -/
def Program.cond (p : Program) : Nat := p.flags.toNat / 8 % 8

/-- The word at the watched byte address -/
def Program.watched (p : Program) (mem : BitVec 18 → Word) : Word :=
  mem (BitVec.ofNat 18 ((p.addrHi.toNat * 2 ^ 16 + p.addrLo.toNat) / 2))

/-- The condition of a slot, at a hit -/
def Program.Holds (p : Program) (mem : BitVec 18 → Word) : Prop :=
  p.isMem = true → Condition p.cond (p.watched mem) p.data

instance Program.Holds.decidable (p : Program) (mem : BitVec 18 → Word) : Decidable (p.Holds mem) :=
  inferInstanceAs (Decidable (_ → _))

/-- The difference that a signed condition looks at is a signed word. -/
def Program.InRange (p : Program) (mem : BitVec 18 → Word) : Prop :=
  p.isMem = true →
    (p.cond = 3 → CheckedBuild.Fits 16 ((p.watched mem).toInt - p.data.toInt)) ∧
      (p.cond = 4 → CheckedBuild.Fits 16 (p.data.toInt - (p.watched mem).toInt))

theorem skips_Z (w : Word) : skips .Z w = true ↔ w = 0 := decide_eq_true_iff

theorem skips_NZ (w : Word) : skips .NZ w = true ↔ w ≠ 0 := decide_eq_true_iff

theorem skips_Z_sub (a b : Word) : skips .Z (a - b) = true ↔ a = b := by
  rw [skips_Z]
  refine BitVec.sub_eq_iff_eq_add.trans ?_
  rw [show 0 + b = b from BitVec.zero_add b]

theorem skips_NZ_sub (a b : Word) : skips .NZ (a - b) = true ↔ a ≠ b := by
  rw [skips_NZ, ne_eq, ← skips_Z, skips_Z_sub]

theorem skips_PZ_sub {a b : Word} (h : CheckedBuild.Fits 16 (a.toInt - b.toInt)) :
    skips .PZ (a - b) = true ↔ b.toInt ≤ a.toInt := by
  have hsub : (a - b).toInt = a.toInt - b.toInt := by
    refine BitVec.toInt_sub_of_not_ssubOverflow ?_
    have hlow := h.1
    have hhigh := h.2
    rw [BitVec.ssubOverflow]
    simp only [ge_iff_le, Bool.or_eq_true, decide_eq_true_iff]
    omega
  have hsign : (a - b).getLsbD 15 = true ↔ (a - b).toInt < 0 := by
    rw [← BitVec.msb_eq_getLsbD_last, BitVec.msb_eq_toInt, decide_eq_true_iff]
  have hpz : skips .PZ (a - b) = true ↔ ¬ (a - b) &&& 0x8000 ≠ 0 := decide_eq_true_iff
  rw [hpz, Js.and_sign_ne_zero, hsign, hsub]
  omega

/-- The comparisons, where a signed one does not overflow -/
theorem l_bp_cmp_iff {code : Nat} {access data : Word} (hcode : code < 8) (hzero : code ≠ 0)
    (hge : code = 3 → CheckedBuild.Fits 16 (access.toInt - data.toInt))
    (hle : code = 4 → CheckedBuild.Fits 16 (data.toInt - access.toInt)) :
    l_bp_cmp (BitVec.ofNat 16 code) access data = true ↔ Condition code access data := by
  have hcases : code = 1 ∨ code = 2 ∨ code = 3 ∨ code = 4 ∨ code = 5 ∨ code = 6 ∨ code = 7 := by
    omega
  rcases hcases with rfl | rfl | rfl | rfl | rfl | rfl | rfl
  · exact skips_Z_sub access data
  · exact skips_NZ_sub access data
  · exact skips_PZ_sub (hge rfl)
  · exact skips_PZ_sub (hle rfl)
  · exact decide_eq_true_iff
  · exact decide_eq_true_iff
  · exact iff_of_false Bool.false_ne_true id

/-- What the handler reads off the flags of a slot -/
theorem flags_spec : ∀ f : Byte,
    (skips .NZ (l_bp_ena_ok (f.setWidth 16) - BP_KIND_MEM) = true ↔
      (!f.getLsbD 6 && !f.getLsbD 0) = false) ∧
    (skips .Z (f.setWidth 16 &&& HSHK_AB_F_COND) = true ↔ f.toNat / 8 % 8 = 0) ∧
    ((f.setWidth 16) >>> 3) &&& 7 = BitVec.ofNat 16 (f.toNat / 8 % 8) := by
  decide +kernel

theorem logical_toNat (hi lo : Word) :
    (g_hshk_mem_map hi lo).2.1.toNat = lo.toNat / 2 + hi.toNat % 2 * 0x8000 := by
  have hlo := lo.isLt
  have hhalf : (lo >>> 1).toNat = lo.toNat / 2 := by
    rw [BitVec.toNat_ushiftRight, Nat.shiftRight_eq_div_pow]
  have hodd : (hi &&& 1).toNat = hi.toNat % 2 ^ 1 := BitField.toNat_and_mask _ 1 (by decide)
  rw [g_hshk_mem_map]
  dsimp only
  by_cases heven : hi &&& 1 = 0
  · have hz : skips .Z (hi &&& 1) = true := (skips_Z _).mpr heven
    rw [heven] at hodd
    change 0 = _ at hodd
    rw [if_pos hz, hhalf]
    omega
  · have hz : ¬ skips .Z (hi &&& 1) = true := fun h => heven ((skips_Z _).mp h)
    have hne : (hi &&& 1).toNat ≠ 0 := fun h => heven (BitVec.eq_of_toNat_eq h)
    rw [if_neg hz, BitVec.toNat_add, hhalf]
    change (lo.toNat / 2 + 0x8000) % 2 ^ 16 = _
    omega

theorem segment_toNat (hi lo : Word) :
    ((g_hshk_mem_map hi lo).2.2 &&& 0xf).toNat = hi.toNat / 2 % 4 * 4 := by
  have hfield : ((hi >>> 1) &&& 3).toNat = hi.toNat / 2 ^ 1 % 2 ^ 2 :=
    BitField.toNat_field _ 1 2 (by decide)
  have hmask : ((g_hshk_mem_map hi lo).2.2 &&& 0xf).toNat =
      (((hi >>> 1) &&& 3) <<< 2 : Word).toNat % 2 ^ 4 := BitField.toNat_and_mask _ 4 (by decide)
  rw [hmask, BitVec.toNat_shiftLeft, hfield, Nat.shiftLeft_eq]
  omega

/-- The segment and the logical address are those of the watched word. -/
theorem watchedWord_row (p : Program) (count : Word) (mem : BitVec 18 → Word) :
    watchedWord mem (p.row count) = p.watched mem := by
  have hhi := p.addrHi.isLt
  have hlo := p.addrLo.isLt
  refine congrArg mem (BitVec.eq_of_toNat_eq ?_)
  change ((((g_hshk_mem_map p.addrHi p.addrLo).2.2 &&& 0xf).setWidth 18 <<< 14) +
    (g_hshk_mem_map p.addrHi p.addrLo).2.1.setWidth 18).toNat = _
  rw [BitVec.toNat_add, BitVec.toNat_shiftLeft, BitVec.toNat_setWidth, BitVec.toNat_setWidth,
    segment_toNat, logical_toNat, BitVec.toNat_ofNat, Nat.shiftLeft_eq]
  omega

theorem l_bp_have_kind_iff {p : Program} {mem : BitVec 18 → Word} (h : p.InRange mem)
    (count : Word) :
    l_bp_have_kind mem (p.row count) (l_bp_ena_ok (p.flags.setWidth 16)) = true ↔ p.Holds mem := by
  obtain ⟨hkind, hcond, hcode⟩ := flags_spec p.flags
  rw [l_bp_have_kind, Program.Holds]
  by_cases hmem : p.isMem = true
  · have hnot : ¬ skips .NZ (l_bp_ena_ok (p.flags.setWidth 16) - BP_KIND_MEM) = true := by
      rw [hkind]
      exact fun hfalse => Bool.false_ne_true (hfalse.symm.trans hmem)
    rw [if_neg hnot, watchedWord_row]
    by_cases hzero : p.cond = 0
    · rw [if_pos (show skips .Z ((p.row count).flags &&& _) = true from hcond.mpr hzero), hzero]
      exact iff_of_true rfl fun _ => trivial
    · have hlt : p.cond < 8 := Nat.mod_lt _ (by decide)
      have hsome : ¬ skips .Z ((p.row count).flags &&& HSHK_AB_F_COND) = true :=
        fun hz => hzero (hcond.mp hz)
      have hrow : ((p.row count).flags >>> 3) &&& 7 = BitVec.ofNat 16 p.cond := hcode
      have hzero' : ¬ skips .Z (BitVec.ofNat 16 p.cond) = true := by
        rw [skips_Z]
        intro heq
        have hnat : p.cond % 2 ^ 16 = 0 := by
          rw [← BitVec.toNat_ofNat, heq]
          rfl
        omega
      rw [if_neg hsome, hrow]
      dsimp only
      rw [if_neg hzero']
      have hcmp := l_bp_cmp_iff hlt hzero (h hmem).1
        (h hmem).2
      exact hcmp.trans ⟨fun hc _ => hc, fun hc => hc hmem⟩
  · rw [if_pos (hkind.mpr (eq_false_of_ne_true hmem))]
    exact iff_of_true rfl fun hm => absurd hm hmem

end Conditions

section OneHit

variable {h : Hit} {m : Monitor} {p : Program} {slot count : Word}

/-- The monitor sends 1Ah for a slot. -/
def Notifies (h : Hit) (slot : Word) (a : Answer) : Prop :=
  a.R0 = 1 ∧ ∃ frame, a.sent = h.takes (HSHK_CMD_BREAK_NOTIFY :: slot.setWidth 8 :: frame)

theorem l_bp_notify_spec (h : Hit) (slot : Word) (m : Monitor) :
    Notifies h slot (l_bp_notify h slot m) := ⟨rfl, _, rfl⟩

/-- The count behind a hit -/
def countDown (count : Word) : Word := if count = 0 then 0 else count - 1

/-- The count of a slot decides whether the program stops, and moves on. -/
theorem l_bp_count_body_spec (hrow : m.slots slot = p.row count) :
    (countDown count = 0 → Notifies h slot (l_bp_count_body h slot m).1) ∧
      (countDown count ≠ 0 → (l_bp_count_body h slot m).1 = l_bp_cont) ∧
      (l_bp_count_body h slot m).2.slots =
        Function.update m.slots slot (p.row (countDown count)) := by
  rw [l_bp_count_body, hrow]
  dsimp only
  by_cases hzero : count = 0
  · have hdown : countDown count = 0 := if_pos hzero
    rw [if_pos ((skips_Z (p.row count).count).mpr hzero), hdown]
    refine ⟨fun _ => l_bp_notify_spec h slot m, fun hne => absurd rfl hne, ?_⟩
    rw [← hzero, ← hrow, Function.update_eq_self]
  · have hdown : countDown count = count - 1 := if_neg hzero
    rw [if_neg fun hs => hzero ((skips_Z (p.row count).count).mp hs), hdown]
    by_cases hone : count - 1 = 0
    · rw [if_pos ((skips_Z ((p.row count).count - 1)).mpr hone)]
      exact ⟨fun _ => l_bp_notify_spec h slot _, fun hne => absurd hone hne, rfl⟩
    · rw [if_neg fun hs => hone ((skips_Z ((p.row count).count - 1)).mp hs)]
      exact ⟨fun heq => absurd heq hone, fun _ => rfl, rfl⟩

theorem l_bp_count_spec (kind : Word) (hrow : m.slots slot = p.row count) :
    (countDown count = 0 → Notifies h slot (l_bp_count h slot kind m).1) ∧
      (countDown count ≠ 0 → (l_bp_count h slot kind m).1 = l_bp_cont) ∧
      (l_bp_count h slot kind m).2.slots =
        Function.update m.slots slot (p.row (countDown count)) := by
  rw [l_bp_count]
  split
  · exact l_bp_count_body_spec hrow
  · exact l_bp_count_body_spec hrow

/-- The port 0033 when a comparator hits -/
def hitAt (slot : Fin 4) (h : Hit) : Hit := { h with IO_BREAK_HIT := BitVec.ofNat 16 slot }

theorem hit_port : ∀ slot : Fin 4, ¬ skips .NZ (BitVec.ofNat 16 slot &&& 0xfff8) = true ∧
    BitVec.ofNat 16 slot &&& 0x0007 = BitVec.ofNat 16 slot := by
  decide

theorem handler_cleared {slot : Fin 4} (hrow : (m.slots (BitVec.ofNat 16 slot)).ena = 0) :
    g_breakpoint_interrupt_handler (hitAt slot h) m = (l_bp_cont, m) := by
  obtain ⟨hvalid, hslot⟩ := hit_port slot
  have hport : (hitAt slot h).IO_BREAK_HIT = BitVec.ofNat 16 slot := rfl
  rw [g_breakpoint_interrupt_handler, hport, if_neg hvalid, hslot]
  dsimp only
  rw [if_pos ((skips_Z _).mpr hrow)]

theorem handler_row {slot : Fin 4} (hrow : m.slots (BitVec.ofNat 16 slot) = p.row count)
    (hrange : p.InRange h.mem) :
    g_breakpoint_interrupt_handler (hitAt slot h) m =
      if p.Holds h.mem then
        l_bp_count (hitAt slot h) (BitVec.ofNat 16 slot) (l_bp_ena_ok (p.flags.setWidth 16)) m
      else (l_bp_cont, m) := by
  obtain ⟨hvalid, hslot⟩ := hit_port slot
  have hport : (hitAt slot h).IO_BREAK_HIT = BitVec.ofNat 16 slot := rfl
  have hena : ¬ skips .Z (p.row count).ena = true := by
    change ¬ skips .Z 1 = true
    decide
  have hkind := l_bp_have_kind_iff hrange count
  have hmem : (hitAt slot h).mem = h.mem := rfl
  have hflags : (p.row count).flags = p.flags.setWidth 16 := rfl
  rw [g_breakpoint_interrupt_handler, hport, if_neg hvalid, hslot]
  dsimp only
  rw [hrow, if_neg hena, hmem, hflags]
  by_cases hholds : p.Holds h.mem
  · rw [if_pos hholds, if_pos (hkind.mpr hholds)]
  · rw [if_neg hholds, if_neg fun hk => hholds (hkind.mp hk)]

end OneHit

section Runs

/-- What a slot is set to, the hits that met its condition since then or since the last stop,
and whether it has stopped the program since it was set. -/
structure Watch where
  program : Program
  hits : Nat := 0
  stopped : Bool := false

/-- The next hit that meets the condition stops the program. -/
def Watch.Due (x : Watch) : Prop := x.program.n_stop = 0 ∨ x.hits + 1 = x.program.n_stop.toNat

instance Watch.Due.decidable (x : Watch) : Decidable x.Due := inferInstanceAs (Decidable (_ ∨ _))

/-- The slot behind a hit -/
def Watch.hit (x : Watch) (mem : BitVec 18 → Word) : Watch :=
  if x.program.Holds mem then
    if x.Due then { x with hits := 0, stopped := true } else { x with hits := x.hits + 1 }
  else x

/-- The monitor, and what its slots have been set to. -/
structure World where
  monitor : Monitor
  watches : Fin 4 → Option Watch

/-- The monitor with no slot set -/
def World.initial (rings : Word → Ring) : World := ⟨{ rings := rings }, fun _ => none⟩

/-- The commands 10h and 11h, and the hits of the comparators. -/
inductive Event where
  | set (slot : Fin 4) (p : Program)
  | clear (slot : Fin 4)
  | hit (slot : Fin 4) (h : Hit)

def World.step (w : World) : Event → World
  | .set slot p =>
      ⟨g_hshk_addr_break_set slot p w.monitor,
        Function.update w.watches slot (some { program := p })⟩
  | .clear slot => ⟨g_hshk_addr_break_clr slot w.monitor, Function.update w.watches slot none⟩
  | .hit slot h =>
      ⟨(g_breakpoint_interrupt_handler (hitAt slot h) w.monitor).2,
        Function.update w.watches slot ((w.watches slot).map fun x => x.hit h.mem)⟩

/-- What a hit has to do: to stop exactly when it is due, and to change nothing when the
condition fails. -/
structure Decides (w : World) (slot : Fin 4) (h : Hit) : Prop where
  cleared : w.watches slot = none →
    g_breakpoint_interrupt_handler (hitAt slot h) w.monitor = (l_bp_cont, w.monitor)
  stops : ∀ x, w.watches slot = some x → x.program.Holds h.mem → x.Due →
    Notifies (hitAt slot h) (BitVec.ofNat 16 slot)
      (g_breakpoint_interrupt_handler (hitAt slot h) w.monitor).1
  counts : ∀ x, w.watches slot = some x → x.program.Holds h.mem → ¬ x.Due →
    (g_breakpoint_interrupt_handler (hitAt slot h) w.monitor).1 = l_bp_cont
  fails : ∀ x, w.watches slot = some x → ¬ x.program.Holds h.mem →
    g_breakpoint_interrupt_handler (hitAt slot h) w.monitor = (l_bp_cont, w.monitor)

def Decision (w : World) : Event → Prop
  | .set _ _ => True
  | .clear _ => True
  | .hit slot h => Decides w slot h

/-- No signed comparison overflows, and no slot with a count above 1 is hit again once it has
stopped the program. -/
def Meets (w : World) : Event → Prop
  | .set _ _ => True
  | .clear _ => True
  | .hit slot h => ∀ x, w.watches slot = some x → x.program.InRange h.mem ∧
      (x.program.Holds h.mem → x.stopped = true → x.program.n_stop.toNat ≤ 1)

/-- The count that belongs to a slot -/
def Watch.left (x : Watch) : Word :=
  if x.stopped = true then 0 else BitVec.ofNat 16 (x.program.n_stop.toNat - x.hits)

/-- The count is what is left of the hits. -/
structure Watch.Counted (x : Watch) (row : Slot) : Prop where
  row : row = x.program.row x.left
  below : x.hits < x.program.n_stop.toNat ∨ x.hits = 0 ∧ x.program.n_stop.toNat = 0
  restarted : x.stopped = true → x.hits = 0

def World.Inv (w : World) : Prop :=
  ∀ slot, (w.watches slot = none → (w.monitor.slots (BitVec.ofNat 16 slot)).ena = 0) ∧
    ∀ x, w.watches slot = some x → x.Counted (w.monitor.slots (BitVec.ofNat 16 slot))

theorem countDown_ofNat {n hits : Nat} (hlt : hits < n) (hn : n < 2 ^ 16) :
    countDown (BitVec.ofNat 16 (n - hits)) = BitVec.ofNat 16 (n - (hits + 1)) := by
  have hne : BitVec.ofNat 16 (n - hits) ≠ 0 := by
    intro hzero
    have hnat := congrArg BitVec.toNat hzero
    rw [BitVec.toNat_ofNat] at hnat
    change _ = 0 at hnat
    omega
  rw [countDown, if_neg hne]
  apply BitVec.eq_of_toNat_eq
  rw [BitVec.toNat_sub, BitVec.toNat_ofNat, BitVec.toNat_ofNat]
  change (2 ^ 16 - 1 + _) % 2 ^ 16 = _
  omega

theorem inv_initial (rings : Word → Ring) : (World.initial rings).Inv :=
  fun _ => ⟨fun _ => rfl, fun _ hx => nomatch hx⟩

/-- What the count says, and where it goes at a hit that meets the condition. -/
theorem Watch.Counted.next {x : Watch} {row : Slot} (h : x.Counted row)
    (honce : x.stopped = true → x.program.n_stop.toNat ≤ 1) :
    (x.Due → countDown x.left = 0 ∧ ({ x with hits := 0, stopped := true } : Watch).Counted
      (x.program.row (countDown x.left))) ∧
    (¬ x.Due → countDown x.left ≠ 0 ∧ ({ x with hits := x.hits + 1 } : Watch).Counted
      (x.program.row (countDown x.left))) := by
  obtain ⟨-, hbelow, hrestarted⟩ := h
  have hbyte := x.program.n_stop.isLt
  have hzero : x.program.n_stop = 0 ↔ x.program.n_stop.toNat = 0 :=
    ⟨fun h => by rw [h]; rfl, fun h => BitVec.eq_of_toNat_eq h⟩
  have hbelow₀ : 0 < x.program.n_stop.toNat ∨ 0 = 0 ∧ x.program.n_stop.toNat = 0 := by omega
  rw [Watch.Due, hzero]
  by_cases hstopped : x.stopped = true
  · have hleft : x.left = 0 := if_pos hstopped
    have hdown : countDown x.left = 0 := if_pos hleft
    have hsmall := honce hstopped
    have hhits := hrestarted hstopped
    rw [hdown]
    refine ⟨fun _ => ⟨rfl, rfl, hbelow₀, fun _ => rfl⟩, fun hdue => ?_⟩
    omega
  · have hleft : x.left = BitVec.ofNat 16 (x.program.n_stop.toNat - x.hits) := if_neg hstopped
    by_cases hn : x.program.n_stop.toNat = 0
    · have hdown : countDown x.left = 0 := by
        rw [hleft, hn, Nat.zero_sub]
        rfl
      rw [hdown]
      refine ⟨fun _ => ⟨rfl, rfl, hbelow₀, fun _ => rfl⟩, fun hdue => ?_⟩
      omega
    · have hdown : countDown x.left = BitVec.ofNat 16 (x.program.n_stop.toNat - (x.hits + 1)) := by
        rw [hleft]
        exact countDown_ofNat (by omega) (by omega)
      have hnat : (countDown x.left).toNat = x.program.n_stop.toNat - (x.hits + 1) := by
        rw [hdown, BitVec.toNat_ofNat]
        omega
      refine ⟨fun hdue => ?_, fun hdue => ?_⟩
      · have hdone : countDown x.left = 0 := by
          apply BitVec.eq_of_toNat_eq
          rw [hnat]
          change _ = 0
          omega
        rw [hdone]
        exact ⟨rfl, rfl, hbelow₀, fun _ => rfl⟩
      · refine ⟨fun hdone => ?_, ?_, ?_, fun hs => absurd hs hstopped⟩
        · rw [hdone] at hnat
          change 0 = _ at hnat
          omega
        · rw [hdown]
          exact congrArg x.program.row (if_neg hstopped).symm
        · exact .inl (show x.hits + 1 < x.program.n_stop.toNat by omega)

/-- A step that touches one slot. -/
theorem World.Inv.update {w : World} (hinv : w.Inv) {slot : Fin 4} {m : Monitor} {row : Slot}
    {o : Option Watch}
    (hslots : m.slots = Function.update w.monitor.slots (BitVec.ofNat 16 slot) row)
    (hnone : o = none → row.ena = 0) (hsome : ∀ x, o = some x → x.Counted row) :
    (⟨m, Function.update w.watches slot o⟩ : World).Inv := by
  intro slot'
  dsimp only
  rw [hslots]
  by_cases heq : slot' = slot
  · rw [heq, Function.update_self, Function.update_self]
    exact ⟨hnone, hsome⟩
  · have hne : BitVec.ofNat 16 slot' ≠ BitVec.ofNat 16 slot := by
      intro hword
      have hnat := congrArg BitVec.toNat hword
      rw [BitVec.toNat_ofNat, BitVec.toNat_ofNat] at hnat
      omega
    rw [Function.update_of_ne heq, Function.update_of_ne hne]
    exact hinv slot'

theorem counted_set (p : Program) :
    ({ program := p } : Watch).Counted (p.row (p.n_stop.setWidth 16)) where
  row := by
    have hleft : ({ program := p } : Watch).left = BitVec.ofNat 16 p.n_stop.toNat :=
      if_neg Bool.false_ne_true
    rw [hleft]
    exact congrArg p.row (BitVec.eq_of_toNat_eq (by rw [BitVec.toNat_setWidth, BitVec.toNat_ofNat]))
  below := by
    dsimp only
    omega
  restarted h := absurd h Bool.false_ne_true

/-- One hit at a slot that is set -/
theorem hit_decision {w : World} (hinv : w.Inv) {slot : Fin 4} {h : Hit} {x : Watch}
    (hx : w.watches slot = some x) (hrange : x.program.InRange h.mem)
    (honce : x.program.Holds h.mem → x.stopped = true → x.program.n_stop.toNat ≤ 1) :
    Decides w slot h ∧ (w.step (.hit slot h)).Inv := by
  have hcounted := (hinv slot).2 x hx
  have hhandler := handler_row (h := h) hcounted.row hrange
  have hsome : ∀ {y : Watch}, w.watches slot = some y → y = x :=
    fun hy => Option.some.inj (hy.symm.trans hx)
  have hstep : w.step (.hit slot h) =
      ⟨(g_breakpoint_interrupt_handler (hitAt slot h) w.monitor).2,
        Function.update w.watches slot (some (x.hit h.mem))⟩ := by
    rw [World.step, hx, Option.map_some]
  rw [hstep]
  by_cases hholds : x.program.Holds h.mem
  · rw [if_pos hholds] at hhandler
    obtain ⟨hstops, hgoes, hslots⟩ := l_bp_count_spec (h := hitAt slot h)
      (l_bp_ena_ok (x.program.flags.setWidth 16)) hcounted.row
    rw [← hhandler] at hstops hgoes hslots
    obtain ⟨hdue, hnot⟩ := hcounted.next (honce hholds)
    constructor
    · refine ⟨fun hnone => ?_, fun y hy _ hdue' => ?_, fun y hy _ hdue' => ?_,
        fun y hy hfails => ?_⟩
      · rw [hx] at hnone
        cases hnone
      · rw [hsome hy] at hdue'
        exact hstops (hdue hdue').1
      · rw [hsome hy] at hdue'
        exact hgoes (hnot hdue').1
      · rw [hsome hy] at hfails
        exact absurd hholds hfails
    · refine hinv.update hslots (fun hnone => nomatch hnone) fun y hy => ?_
      rw [← Option.some.inj hy, Watch.hit, if_pos hholds]
      split
      · next hdue' => exact (hdue hdue').2
      · next hdue' => exact (hnot hdue').2
  · rw [if_neg hholds] at hhandler
    constructor
    · refine ⟨fun hnone => ?_, fun y hy hh => ?_, fun y hy hh => ?_, fun y hy _ => hhandler⟩
      · rw [hx] at hnone
        cases hnone
      · rw [hsome hy] at hh
        exact absurd hh hholds
      · rw [hsome hy] at hh
        exact absurd hh hholds
    · rw [hhandler]
      refine hinv.update (Function.update_eq_self _ _).symm (fun hnone => nomatch hnone)
        fun y hy => ?_
      rw [← Option.some.inj hy, Watch.hit, if_neg hholds]
      exact hcounted

/-- One step: the decision is right, and the counts go on. -/
theorem step_decision {w : World} (hinv : w.Inv) (event : Event) (hmeets : Meets w event) :
    Decision w event ∧ (w.step event).Inv := by
  cases event with
  | set slot p =>
      refine ⟨trivial, hinv.update rfl (fun hnone => nomatch hnone) fun x hx => ?_⟩
      rw [← Option.some.inj hx]
      exact counted_set p
  | clear slot => exact ⟨trivial, hinv.update rfl (fun _ => rfl) fun x hx => nomatch hx⟩
  | hit slot h =>
      cases hx : w.watches slot with
      | none =>
          have hhandler := handler_cleared (h := h) ((hinv slot).1 hx)
          refine ⟨⟨fun _ => hhandler, fun x hx' => ?_, fun x hx' => ?_, fun x hx' => ?_⟩, ?_⟩
          · rw [hx] at hx'
            cases hx'
          · rw [hx] at hx'
            cases hx'
          · rw [hx] at hx'
            cases hx'
          · rw [World.step, hhandler, hx]
            exact hinv.update (Function.update_eq_self _ _).symm (fun _ => (hinv slot).1 hx)
              fun x hx' => nomatch hx'
      | some x =>
          obtain ⟨hrange, honce⟩ := hmeets x hx
          exact hit_decision hinv hx hrange honce

/-- The break decision, over every run of commands and hits -/
theorem break_decisions (rings : Word → Ring) (events : List Event)
    (h : StepRuns.Always World.step Meets (World.initial rings) events) :
    StepRuns.Always World.step Decision (World.initial rings) events :=
  h.imp (inv_initial rings) fun _ event hinv hmeets => step_decision hinv event hmeets

/-- A hit with one value in all of the memory -/
def hitOf (value : Word) : Hit where
  IO_BREAK_HIT := 0
  IO_BREAK_PREV := 0
  mem := fun _ => value
  R3 := 0
  R4 := 0
  SP := 0
  TSR0 := 0
  TSR1 := 0
  OSR0 := 0
  SSBR := 0
  NPP := 0
  INT1_STR_SAVE := 0
  INT1_IC_SAVE := 0
  time := [0, 0, 0, 0]
  histEntries := []
  taken := none

/-- A write break with the condition `>=` -/
def breakGe (n_stop : Byte) (data : Word) : Program where
  flags := 0x1c
  n_stop := n_stop
  addrHi := 0
  addrLo := 0x3000
  data := data

/-- The second hit stops the program. -/
theorem break_decisions_two : StepRuns.Always World.step Decision (World.initial fun _ => {})
    [.set 0 (breakGe 2 0x10), .hit 0 (hitOf 0x20), .hit 0 (hitOf 0x20)] := by
  have hrange : (breakGe 2 0x10).InRange (hitOf 0x20).mem :=
    fun _ => ⟨fun _ => by decide, fun hle => absurd hle (by decide)⟩
  refine break_decisions _ _ ⟨trivial, fun x hx => ?_, fun x hx => ?_, trivial⟩
  · have hx' : ({ program := breakGe 2 0x10 } : Watch) = x := Option.some.inj hx
    rw [← hx']
    exact ⟨hrange, fun _ hstopped => absurd hstopped Bool.false_ne_true⟩
  · have hx' : ({ program := breakGe 2 0x10, hits := 1 } : Watch) = x := Option.some.inj hx
    rw [← hx']
    exact ⟨hrange, fun _ hstopped => absurd hstopped Bool.false_ne_true⟩

/-- The word 8000h, which is negative, counts as at least 1. -/
theorem least_word_is_greater : ¬ ∀ rings events,
    StepRuns.Always World.step Decision (World.initial rings) events := by
  intro hall
  obtain ⟨-, hhit, -⟩ := hall (fun _ => {}) [.set 0 (breakGe 0 1), .hit 0 (hitOf 0x8000)]
  have hsame := hhit.fails _ rfl (by decide)
  exact absurd (congrArg (fun r => r.1.R0) hsame) (by decide)

end Runs

end Breakpoint
end BootMonitor
end RetroCpu
