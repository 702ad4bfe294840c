import RetroCpu.EmuRs.AddrComparator
import RetroCpu.Lib.StepRuns

/-!
# The address comparators in both emulators

Runs of port accesses, of slots programmed by the sequence ADDR_LO, ADDR_HI, CTRL, of slots
selected again, and of bus accesses that the comparators watch.  Each of them does what it
should under a condition on the slot that is selected and on the latched address.
-/

namespace RetroCpu
namespace Mn1613
namespace AddrComparator

open EmuTs.AddrComparator StepRuns

section Fields

/-- A control word is decoded to what it was made of. -/
theorem decode_encode (slot rdwr : Fin 4) (enabled io : Bool) :
    decodeBreakCtrl (encodeBreakCtrl slot enabled io (BitVec.ofNat 8 rdwr)) =
      { slot := slot, enabled := enabled, io := io, rdwr := BitVec.ofNat 8 rdwr } := by
  revert slot rdwr enabled io
  decide

/-- The slot field of a control word. -/
theorem encode_slot (slot rdwr : Fin 4) (enabled io : Bool) :
    (encodeBreakCtrl slot enabled io (BitVec.ofNat 8 rdwr) &&& 0x07).toNat = slot :=
  congrArg BreakCtrl.slot (decode_encode slot rdwr enabled io)

/-- The address made of the words for bits 16 and 17 and for bits 0 to 15. -/
def joinAddr (hi lo : U16) : U32 := (hi.setWidth 32 &&& 0x03) <<< 16 ||| lo.setWidth 32

theorem joinAddr_toNat (hi lo : U16) :
    (joinAddr hi lo).toNat = hi.toNat % 2 ^ 2 * 2 ^ 16 + lo.toNat := by
  have hlo := lo.isLt
  have hmask : (hi.setWidth 32 &&& 0x03 : U32).toNat = (hi.setWidth 32 : U32).toNat % 2 ^ 2 :=
    BitField.toNat_and_mask _ 2 (by decide)
  rw [BitVec.toNat_setWidth_of_le (by decide)] at hmask
  rw [joinAddr, BitVec.toNat_or, BitVec.toNat_shiftLeft, hmask,
    BitVec.toNat_setWidth_of_le (by decide), Nat.shiftLeft_eq,
    Nat.mod_eq_of_lt (by omega), ← Nat.shiftLeft_eq, ← Nat.shiftLeft_add_eq_or_of_lt hlo]

theorem joinAddr_low (hi lo : U16) : (joinAddr hi lo &&& 0xffff).setWidth 16 = lo := by
  apply BitVec.eq_of_toNat_eq
  have hlo := lo.isLt
  have hmask : (joinAddr hi lo &&& 0xffff).toNat = (joinAddr hi lo).toNat % 2 ^ 16 :=
    BitField.toNat_and_mask _ 16 (by decide)
  rw [BitVec.toNat_setWidth, hmask, joinAddr_toNat]
  omega

theorem joinAddr_high (hi lo : U16) : ((joinAddr hi lo >>> 16) &&& 0x03).setWidth 16 = hi &&& 0x03 := by
  apply BitVec.eq_of_toNat_eq
  have hlo := lo.isLt
  have hmask : ((joinAddr hi lo >>> 16) &&& 0x03).toNat = (joinAddr hi lo).toNat / 2 ^ 16 % 2 ^ 2 :=
    BitField.toNat_field _ 16 2 (by decide)
  have hhi : (hi &&& 0x03).toNat = hi.toNat % 2 ^ 2 := BitField.toNat_and_mask _ 2 (by decide)
  rw [BitVec.toNat_setWidth, hmask, hhi, joinAddr_toNat]
  omega

/-- An address of 18 bits is put together from its two words. -/
theorem joinAddr_split (addr : U32) (h : addr.toNat < 2 ^ 18) :
    joinAddr ((addr >>> 16).setWidth 16) (addr.setWidth 16) = addr := by
  apply BitVec.eq_of_toNat_eq
  rw [joinAddr_toNat, BitVec.toNat_setWidth, BitVec.toNat_setWidth, BitVec.toNat_ushiftRight,
    Nat.shiftRight_eq_div_pow]
  omega

end Fields

section Matches

/-- The condition that a slot is programmed with: the kind of access, the space and the address. -/
def Condition (slot : AddrComparatorSlot) (access : AddrBusAccess) : Prop :=
  slot.enabled = true ∧ slot.io = access.io ∧
    slot.rdwr.getLsbD (if access.write then 1 else 0) = true ∧
    if access.io then slot.addr.setWidth 16 = access.addr.setWidth 16
    else slot.addr.setWidth 18 = access.addr.setWidth 18

instance (slot : AddrComparatorSlot) (access : AddrBusAccess) :
    Decidable (Condition slot access) :=
  inferInstanceAs (Decidable (_ ∧ _ ∧ _ ∧ _))

theorem low_bits_iff {k : Nat} (hk : k < 32) (x y : U32) :
    x &&& BitVec.ofNat 32 (2 ^ k - 1) = y &&& BitVec.ofNat 32 (2 ^ k - 1) ↔
      x.setWidth k = y.setWidth k := by
  rw [← BitVec.toNat_inj, ← BitVec.toNat_inj, BitField.toNat_and_mask x k hk,
    BitField.toNat_and_mask y k hk, BitVec.toNat_setWidth, BitVec.toNat_setWidth]

theorem bit_iff {k : Nat} (hk : k < 8) (rdwr : U8) :
    rdwr &&& BitVec.ofNat 8 (2 ^ k) = 0 ↔ rdwr.getLsbD k = false := by
  rw [BitField.and_bit_eq_zero rdwr k hk, BitVec.getLsbD, Nat.testBit_eq_decide_div_mod_eq,
    decide_eq_false_iff_not]
  omega

/-- The mode field under the masks of `slotMatches`. -/
theorem mode_masks (rdwr : U8) :
    (rdwr &&& 0x03 &&& BREAK_RDWR_WR = 0 ↔ rdwr.getLsbD 1 = false) ∧
      (rdwr &&& 0x03 &&& BREAK_RDWR_RD = 0 ↔ rdwr.getLsbD 0 = false) := by
  rw [BitVec.and_assoc, BitVec.and_assoc]
  exact ⟨bit_iff (k := 1) (by decide) rdwr, bit_iff (k := 0) (by decide) rdwr⟩

theorem slotMatches_iff (slot : AddrComparatorSlot) (access : AddrBusAccess) :
    slotMatches slot access = true ↔ Condition slot access := by
  obtain ⟨hwrite, hread⟩ := mode_masks slot.rdwr
  have hio : slot.addr &&& 0xffff = access.addr &&& 0xffff ↔ _ := low_bits_iff (k := 16) (by decide) _ _
  have hmem : slot.addr &&& 0x3ffff = access.addr &&& 0x3ffff ↔ _ := low_bits_iff (k := 18) (by decide) _ _
  have hnone : slot.rdwr &&& 0x03 = 0 → slot.rdwr.getLsbD 0 = false ∧ slot.rdwr.getLsbD 1 = false := by
    intro h
    rw [h] at hwrite hread
    exact ⟨hread.mp (by decide), hwrite.mp (by decide)⟩
  unfold slotMatches Condition
  dsimp only
  cases slot.enabled with
  | false => simp
  | true =>
      by_cases hspace : slot.io = access.io
      · cases access.write <;> split_ifs <;> simp_all
      · simp [hspace]

end Matches

section Siblings

variable (b : AddrComparatorBank)

/-- The comparators probe alike. -/
theorem probe_agrees (access : AddrBusAccess) :
    b.probe access =
      (((EmuRs.AddrComparator.probe b access).1.elim (-1) fun i => (i : Int)),
        (EmuRs.AddrComparator.probe b access).2) := by
  unfold AddrComparatorBank.probe EmuRs.AddrComparator.probe
  rw [show EmuRs.AddrComparator.slotMatches = slotMatches from rfl]
  cases (List.finRange 4).find? fun i => slotMatches (b.slots i) access with
  | none => rfl
  | some i => cases access.write <;> rfl

theorem applyCtrl_agrees : EmuRs.AddrComparator.applyCtrlToSlot b = b.applyCtrlToSlot := by
  have hslot : (EmuRs.AddrComparator.decodeBreakCtrl b.ctrlLatch).1.toNat =
      (decodeBreakCtrl b.ctrlLatch).slot := by
    have hmask : (b.ctrlLatch &&& 0x07).toNat = b.ctrlLatch.toNat % 2 ^ 3 :=
      BitField.toNat_and_mask _ 3 (by decide)
    simp only [EmuRs.AddrComparator.decodeBreakCtrl, decodeBreakCtrl, BitVec.toNat_setWidth, hmask]
    omega
  simp only [EmuRs.AddrComparator.applyCtrlToSlot, AddrComparatorBank.applyCtrlToSlot,
    AddrComparatorBank.setSlot, hslot]
  rfl

/-- The ports are written alike. -/
theorem writePort_agrees (port val : U16) :
    EmuRs.AddrComparator.writePort b port val = b.writePort port val := by
  unfold EmuRs.AddrComparator.writePort AddrComparatorBank.writePort
  simp only [applyCtrl_agrees]
  rfl

/-- A port whose answer depends on the selected slot. -/
def ReadsSlot (port : U16) : Prop :=
  port = IO_PORT_BREAK_CTRL ∨ port = IO_PORT_BREAK_ADDR_LO ∨ port = IO_PORT_BREAK_ADDR_HI

instance (port : U16) : Decidable (ReadsSlot port) := inferInstanceAs (Decidable (_ ∨ _ ∨ _))

/-- Both emulators answer a read, and answer alike. -/
def AnswersAlike (port : U16) : Prop :=
  ∃ answer b', b.readPort port = (.ok answer, b') ∧
    EmuRs.AddrComparator.readPort b port = (.ok answer, b')

variable {b}

theorem selected_ok (h : b.selectedSlot < 4) :
    b.selected = .ok (b.slots ⟨b.selectedSlot, h⟩) ∧
      EmuRs.AddrComparator.clamped b = b.slots ⟨b.selectedSlot, h⟩ := by
  refine ⟨dif_pos h, congrArg b.slots (Fin.ext ?_)⟩
  exact Nat.min_eq_left (Nat.le_of_lt_succ h)

theorem encode_agrees (slot : Nat) (h : slot < 8) (enabled io : Bool) (rdwr : U8) :
    encodeBreakCtrl slot enabled io rdwr =
      EmuRs.AddrComparator.encodeBreakCtrl (BitVec.ofNat 8 slot) enabled io rdwr := by
  have hslot : (BitVec.ofNat 8 slot).setWidth 16 = BitVec.ofNat 16 slot := by
    apply BitVec.eq_of_toNat_eq
    rw [BitVec.toNat_setWidth, BitVec.toNat_ofNat, BitVec.toNat_ofNat]
    omega
  rw [encodeBreakCtrl, EmuRs.AddrComparator.encodeBreakCtrl, hslot]

theorem selectedSlot_lt (b : AddrComparatorBank) : b.selectedSlot < 8 := by
  have hmask : b.selectedSlot = b.ctrlLatch.toNat % 2 ^ 3 :=
    BitField.toNat_and_mask _ 3 (by decide)
  omega

theorem readPort_selected {port : U16} (hport : ReadsSlot port) (h : b.selectedSlot < 4) :
    AnswersAlike b port := by
  obtain ⟨hselected, hclamped⟩ := selected_ok h
  rcases hport with rfl | rfl | rfl
  · refine ⟨_, b, congrArg (·, b) ?_, rfl⟩
    rw [AddrComparatorBank.ctrlFromSelected, hselected, EmuRs.AddrComparator.ctrlFromSelected,
      hclamped]
    exact congrArg (fun ctrl => Except.ok (some ctrl)) (encode_agrees _ (selectedSlot_lt b) _ _ _)
  · refine ⟨_, b, congrArg (·, b) ?_, rfl⟩
    rw [AddrComparatorBank.addrLoFromSelected, hselected,
      EmuRs.AddrComparator.addrLoFromSelected, hclamped]
    rfl
  · refine ⟨_, b, congrArg (·, b) ?_, rfl⟩
    rw [AddrComparatorBank.addrHiFromSelected, hselected,
      EmuRs.AddrComparator.addrHiFromSelected, hclamped]
    rfl

theorem readPort_unselected {port : U16} (hport : ReadsSlot port) (h : ¬ b.selectedSlot < 4) :
    (b.readPort port).1 = .error .undefined := by
  have hselected : b.selected = .error .undefined := dif_neg h
  rcases hport with rfl | rfl | rfl
  · exact congrArg (Functor.map some) (congrArg (· >>= _) hselected)
  · exact congrArg (Functor.map some) (congrArg (· >>= _) hselected)
  · exact congrArg (Functor.map some) (congrArg (· >>= _) hselected)

theorem readPort_other {port : U16} (hport : ¬ ReadsSlot port)
    (hhit : b.lastHit = 0xffff ∨ b.lastHit.toNat < 4) : AnswersAlike b port := by
  obtain ⟨hctrl, hlo, hhi⟩ := not_or.mp hport |>.imp_right not_or.mp
  have hmask : port &&& 0xffff = port := BitVec.and_allOnes
  unfold AnswersAlike AddrComparatorBank.readPort EmuRs.AddrComparator.readPort
  rw [hmask]
  dsimp only
  rw [if_neg hctrl, if_neg hlo, if_neg hhi, if_neg hctrl, if_neg hlo, if_neg hhi]
  split_ifs with hport3 hnone hslot hport4
  · exact ⟨_, _, rfl, rfl⟩
  · exact ⟨_, _, rfl, rfl⟩
  · have hlow : (b.lastHit &&& 0x07).toNat = b.lastHit.toNat % 2 ^ 3 :=
      BitField.toNat_and_mask _ 3 (by decide)
    have hlt := hhit.resolve_left hnone
    omega
  · exact ⟨_, _, rfl, rfl⟩
  · exact ⟨_, _, rfl, rfl⟩

/-- A read is answered, and answered alike, unless it needs a slot that does not exist. -/
theorem answersAlike_iff {port : U16} (hhit : b.lastHit = 0xffff ∨ b.lastHit.toNat < 4) :
    AnswersAlike b port ↔ (ReadsSlot port → b.selectedSlot < 4) := by
  by_cases hport : ReadsSlot port
  · by_cases h : b.selectedSlot < 4
    · exact iff_of_true (readPort_selected hport h) fun _ => h
    · refine iff_of_false ?_ fun hall => h (hall hport)
      rintro ⟨answer, b', hread, -⟩
      have herror := readPort_unselected hport h
      rw [hread] at herror
      cases herror
  · exact iff_of_true (readPort_other hport hhit) fun hin => absurd hin hport

end Siblings

section Runs

variable {b : AddrComparatorBank}

/-- What a bank is built from: `program` is the sequence ADDR_LO, ADDR_HI, CTRL, and `reselect`
writes the control word of a slot once more. -/
inductive Op where
  | read (port : U16)
  | write (port val : U16)
  | program (slot : Fin 4) (addr : BitVec 18) (enabled io : Bool) (rdwr : Fin 4)
  | reselect (slot : Fin 4)
  | probe (access : AddrBusAccess)

/-- The slot that a programming sequence asks for. -/
def asked (addr : BitVec 18) (enabled io : Bool) (rdwr : Fin 4) : AddrComparatorSlot where
  enabled := enabled
  io := io
  rdwr := BitVec.ofNat 8 rdwr
  addr := addr.setWidth 32

/-- The control word of a slot. -/
def ctrlWord (slot : Fin 4) (s : AddrComparatorSlot) : U16 :=
  encodeBreakCtrl slot s.enabled s.io s.rdwr

/-- The writes of a programming sequence. -/
def program (b : AddrComparatorBank) (slot : Fin 4) (s : AddrComparatorSlot) : AddrComparatorBank :=
  let b := (b.writePort IO_PORT_BREAK_ADDR_LO (s.addr.setWidth 16)).2
  let b := (b.writePort IO_PORT_BREAK_ADDR_HI ((s.addr >>> 16).setWidth 16)).2
  (b.writePort IO_PORT_BREAK_CTRL (ctrlWord slot s)).2

/-- The write that selects a slot again. -/
def reselect (b : AddrComparatorBank) (slot : Fin 4) : AddrComparatorBank :=
  (b.writePort IO_PORT_BREAK_CTRL (ctrlWord slot (b.slots slot))).2

/-- The bank behind an operation. -/
def step (b : AddrComparatorBank) : Op → AddrComparatorBank
  | .read port => (b.readPort port).2
  | .write port val => (b.writePort port val).2
  | .program slot addr enabled io rdwr => program b slot (asked addr enabled io rdwr)
  | .reselect slot => reselect b slot
  | .probe access => (b.probe access).2

/-- The slot is selected, is `s`, and both emulators read `s` back from the ports. -/
structure ReadsBack (b : AddrComparatorBank) (slot : Fin 4) (s : AddrComparatorSlot) : Prop where
  holds : b.slots slot = s
  ctrl : (b.readPort IO_PORT_BREAK_CTRL).1 = .ok (some (ctrlWord slot s))
  addrLo : (b.readPort IO_PORT_BREAK_ADDR_LO).1 = .ok (some (s.addr.setWidth 16))
  addrHi : (b.readPort IO_PORT_BREAK_ADDR_HI).1 = .ok (some ((s.addr >>> 16).setWidth 16))
  alike : ∀ port, ReadsSlot port → AnswersAlike b port

/-- `probe` names the lowest slot whose condition holds, in both emulators. -/
structure Reports (b : AddrComparatorBank) (access : AddrBusAccess) : Prop where
  alike : b.probe access =
    (((EmuRs.AddrComparator.probe b access).1.elim (-1) fun i => (i : Int)),
      (EmuRs.AddrComparator.probe b access).2)
  some_iff : ∀ i, (EmuRs.AddrComparator.probe b access).1 = some i ↔
    Condition (b.slots i) access ∧ ∀ j, j < i → ¬ Condition (b.slots j) access
  none_iff : (EmuRs.AddrComparator.probe b access).1 = none ↔
    ∀ i, ¬ Condition (b.slots i) access

/-- What the comparators should do in one operation. -/
def Good (b : AddrComparatorBank) : Op → Prop
  | .read port => AnswersAlike b port
  | .write port val => EmuRs.AddrComparator.writePort b port val = b.writePort port val
  | .program slot addr enabled io rdwr =>
      (∀ other, other ≠ slot →
        (program b slot (asked addr enabled io rdwr)).slots other = b.slots other) ∧
      ReadsBack (program b slot (asked addr enabled io rdwr)) slot (asked addr enabled io rdwr)
  | .reselect slot =>
      (∀ other, (reselect b slot).slots other = b.slots other) ∧
      ReadsBack (reselect b slot) slot (b.slots slot)
  | .probe access => Reports b access

/-- When they do it: a slot is read while one of the four is selected; the slot that is selected
before another one is programmed has the same address; a slot is selected again while its
address is still in the latches. -/
def Safe (b : AddrComparatorBank) : Op → Prop
  | .read port => ReadsSlot port → b.selectedSlot < 4
  | .program slot addr _ _ _ =>
      ∀ other : Fin 4, other = b.selectedSlot → other ≠ slot →
        (b.slots other).addr = addr.setWidth 32
  | .reselect slot => b.latchedAddr = (b.slots slot).addr
  | .write _ _ => True
  | .probe _ => True

/-- Fields in range. -/
structure InRange (b : AddrComparatorBank) : Prop where
  lastHit : b.lastHit = 0xffff ∨ b.lastHit.toNat < 4
  rdwr : ∀ i, (b.slots i).rdwr.toNat < 4
  addr : ∀ i, (b.slots i).addr.toNat < 2 ^ 18

/-- Fields of a slot in range. -/
def SlotInRange (s : AddrComparatorSlot) : Prop := s.rdwr.toNat < 4 ∧ s.addr.toNat < 2 ^ 18

theorem asked_inRange (addr : BitVec 18) (enabled io : Bool) (rdwr : Fin 4) :
    SlotInRange (asked addr enabled io rdwr) := by
  have haddr := addr.isLt
  have hrdwr := rdwr.isLt
  constructor
  · rw [asked, BitVec.toNat_ofNat]
    omega
  · rw [asked, BitVec.toNat_setWidth]
    omega

theorem decode_ctrlWord (slot : Fin 4) {s : AddrComparatorSlot} (h : SlotInRange s) :
    decodeBreakCtrl (ctrlWord slot s) =
      { slot := slot, enabled := s.enabled, io := s.io, rdwr := s.rdwr } := by
  have hrdwr : s.rdwr = BitVec.ofNat 8 (⟨s.rdwr.toNat, h.1⟩ : Fin 4) := by
    rw [BitVec.ofNat_toNat, BitVec.setWidth_eq]
  rw [ctrlWord, hrdwr]
  exact decode_encode slot _ s.enabled s.io

theorem latchedAddr_eq (b : AddrComparatorBank) :
    b.latchedAddr = joinAddr b.addrHiLatch b.addrLoLatch := rfl

theorem latchedAddr_lt (b : AddrComparatorBank) : b.latchedAddr.toNat < 2 ^ 18 := by
  have hlo := b.addrLoLatch.isLt
  rw [latchedAddr_eq, joinAddr_toNat]
  omega

theorem setSlot_slots (n : Nat) (f : AddrComparatorSlot → AddrComparatorSlot) (i : Fin 4) :
    (b.setSlot n f).slots i = if i = n then f (b.slots i) else b.slots i := by
  unfold AddrComparatorBank.setSlot
  split_ifs with hn hi hi
  · have hin : i = ⟨n, hn⟩ := Fin.ext hi
    rw [← hin]
    exact Function.update_self _ _ _
  · exact Function.update_of_ne (fun hin => hi (congrArg Fin.val hin)) _ _
  · omega
  · rfl

section Latches

variable (n : Nat) (f : AddrComparatorSlot → AddrComparatorSlot)

@[simp] theorem setSlot_ctrlLatch : (b.setSlot n f).ctrlLatch = b.ctrlLatch := by
  unfold AddrComparatorBank.setSlot
  split_ifs <;> rfl

@[simp] theorem setSlot_addrLoLatch : (b.setSlot n f).addrLoLatch = b.addrLoLatch := by
  unfold AddrComparatorBank.setSlot
  split_ifs <;> rfl

@[simp] theorem setSlot_addrHiLatch : (b.setSlot n f).addrHiLatch = b.addrHiLatch := by
  unfold AddrComparatorBank.setSlot
  split_ifs <;> rfl

@[simp] theorem setSlot_lastHit : (b.setSlot n f).lastHit = b.lastHit := by
  unfold AddrComparatorBank.setSlot
  split_ifs <;> rfl

end Latches

section Writes

variable (b) (v : U16)

theorem write_addrLo :
    (b.writePort IO_PORT_BREAK_ADDR_LO v).2 =
      AddrComparatorBank.applyAddrToSelected { b with addrLoLatch := v } := by
  have hmask : v &&& 0xffff = v := BitVec.and_allOnes
  conv_rhs => rw [← hmask]
  rfl

theorem write_addrHi :
    (b.writePort IO_PORT_BREAK_ADDR_HI v).2 =
      AddrComparatorBank.applyAddrToSelected { b with addrHiLatch := v &&& 0x03 } := by
  have hmask : v &&& 0xffff = v := BitVec.and_allOnes
  conv_rhs => rw [← hmask]
  rfl

theorem write_ctrl :
    (b.writePort IO_PORT_BREAK_CTRL v).2 =
      AddrComparatorBank.applyCtrlToSlot { b with ctrlLatch := v } := by
  have hmask : v &&& 0xffff = v := BitVec.and_allOnes
  conv_rhs => rw [← hmask]
  rfl

end Writes

/-- What a control word for a slot does. -/
theorem write_ctrlWord (slot : Fin 4) {s : AddrComparatorSlot} (h : SlotInRange s) :
    (b.writePort IO_PORT_BREAK_CTRL (ctrlWord slot s)).2.selectedSlot = slot ∧
      ∀ i, (b.writePort IO_PORT_BREAK_CTRL (ctrlWord slot s)).2.slots i =
        if i = slot then { s with addr := b.latchedAddr } else b.slots i := by
  have hdecode := decode_ctrlWord slot h
  rw [write_ctrl]
  constructor
  · rw [AddrComparatorBank.selectedSlot, AddrComparatorBank.applyCtrlToSlot, setSlot_ctrlLatch]
    exact congrArg BreakCtrl.slot hdecode
  · intro i
    rw [AddrComparatorBank.applyCtrlToSlot, setSlot_slots, hdecode]
    simp only [Fin.val_inj]
    rfl

/-- The effect of an address write: the latches, and the selected slot. -/
structure AddrWritten (b b' : AddrComparatorBank) (hi lo : U16) : Prop where
  ctrl : b'.ctrlLatch = b.ctrlLatch
  addrHi : b'.addrHiLatch = hi
  addrLo : b'.addrLoLatch = lo
  lastHit : b'.lastHit = b.lastHit
  slots : ∀ i, b'.slots i =
    if i = b.selectedSlot then { b.slots i with addr := joinAddr hi lo } else b.slots i

theorem addrLo_written (b : AddrComparatorBank) (v : U16) :
    AddrWritten b (b.writePort IO_PORT_BREAK_ADDR_LO v).2 b.addrHiLatch v := by
  rw [write_addrLo]
  unfold AddrComparatorBank.applyAddrToSelected
  exact ⟨setSlot_ctrlLatch _ _, setSlot_addrHiLatch _ _, setSlot_addrLoLatch _ _,
    setSlot_lastHit _ _, fun i => setSlot_slots _ _ i⟩

theorem addrHi_written (b : AddrComparatorBank) (v : U16) :
    AddrWritten b (b.writePort IO_PORT_BREAK_ADDR_HI v).2 (v &&& 0x03) b.addrLoLatch := by
  rw [write_addrHi]
  unfold AddrComparatorBank.applyAddrToSelected
  exact ⟨setSlot_ctrlLatch _ _, setSlot_addrHiLatch _ _, setSlot_addrLoLatch _ _,
    setSlot_lastHit _ _, fun i => setSlot_slots _ _ i⟩

/-- Bits 16 and 17 of an address of 18 bits. -/
theorem high_mask {addr : U32} (h : addr.toNat < 2 ^ 18) :
    ((addr >>> 16).setWidth 16 &&& 0x03 : U16) = (addr >>> 16).setWidth 16 := by
  apply BitVec.eq_of_toNat_eq
  have hmask : ((addr >>> 16).setWidth 16 &&& 0x03 : U16).toNat =
      ((addr >>> 16).setWidth 16 : U16).toNat % 2 ^ 2 := BitField.toNat_and_mask _ 2 (by decide)
  rw [hmask, BitVec.toNat_setWidth, BitVec.toNat_ushiftRight, Nat.shiftRight_eq_div_pow]
  omega

/-- The bank behind a programming sequence. -/
theorem program_spec (b : AddrComparatorBank) (slot : Fin 4) {s : AddrComparatorSlot}
    (h : SlotInRange s) :
    (program b slot s).selectedSlot = slot ∧ (program b slot s).slots slot = s ∧
      ∀ i, i ≠ slot → (program b slot s).slots i =
        if i = b.selectedSlot then { b.slots i with addr := s.addr } else b.slots i := by
  have hlo := addrLo_written b (s.addr.setWidth 16)
  have hhi := addrHi_written (b.writePort IO_PORT_BREAK_ADDR_LO (s.addr.setWidth 16)).2
    ((s.addr >>> 16).setWidth 16)
  rw [high_mask h.2, hlo.addrLo] at hhi
  have haddr := joinAddr_split s.addr h.2
  obtain ⟨hselected, hslots⟩ := write_ctrlWord
    (b := ((b.writePort IO_PORT_BREAK_ADDR_LO (s.addr.setWidth 16)).2.writePort
      IO_PORT_BREAK_ADDR_HI ((s.addr >>> 16).setWidth 16)).2) slot h
  refine ⟨hselected, ?_, ?_⟩
  · rw [program, hslots, if_pos rfl, latchedAddr_eq, hhi.addrHi, hhi.addrLo, haddr]
  · intro i hi
    have hsel : (b.writePort IO_PORT_BREAK_ADDR_LO (s.addr.setWidth 16)).2.selectedSlot =
        b.selectedSlot := by
      rw [AddrComparatorBank.selectedSlot, hlo.ctrl, AddrComparatorBank.selectedSlot]
    rw [program, hslots, if_neg hi, hhi.slots, hsel, haddr, hlo.slots]
    split_ifs <;> rfl

/-- A selected slot is read back. -/
theorem readsBack_selected {slot : Fin 4} {s : AddrComparatorSlot} (hrange : SlotInRange s)
    (hselected : b.selectedSlot = slot) (hs : b.slots slot = s) : ReadsBack b slot s := by
  have hlt : b.selectedSlot < 4 := hselected ▸ slot.isLt
  have hslot : b.selected = .ok s := by
    rw [(selected_ok hlt).1, ← hs]
    exact congrArg (fun i => Except.ok (b.slots i)) (Fin.ext hselected)
  refine ⟨hs, ?_, ?_, ?_, fun port hport => readPort_selected hport hlt⟩
  · exact (congrArg (Functor.map some) (congrArg (· >>= _) hslot)).trans
      (congrArg (fun n => Except.ok (some (encodeBreakCtrl n s.enabled s.io s.rdwr))) hselected)
  · refine (congrArg (Functor.map some) (congrArg (· >>= _) hslot)).trans ?_
    have hlow := joinAddr_low ((s.addr >>> 16).setWidth 16) (s.addr.setWidth 16)
    rw [joinAddr_split s.addr hrange.2] at hlow
    exact congrArg (fun v => Except.ok (some v)) hlow
  · refine (congrArg (Functor.map some) (congrArg (· >>= _) hslot)).trans ?_
    have hhigh := joinAddr_high ((s.addr >>> 16).setWidth 16) (s.addr.setWidth 16)
    rw [joinAddr_split s.addr hrange.2, high_mask hrange.2] at hhigh
    exact congrArg (fun v => Except.ok (some v)) hhigh

theorem reselect_spec (b : AddrComparatorBank) (slot : Fin 4) (h : SlotInRange (b.slots slot)) :
    (reselect b slot).selectedSlot = slot ∧ ∀ i, (reselect b slot).slots i =
      if i = slot then { b.slots slot with addr := b.latchedAddr } else b.slots i :=
  write_ctrlWord slot h

/-- The first index with a property. -/
theorem find?_finRange {n : Nat} {p : Fin n → Bool} {i : Fin n} :
    (List.finRange n).find? p = some i ↔ p i = true ∧ ∀ j, j < i → ¬ p j = true := by
  rw [List.find?_eq_some_iff_getElem]
  simp only [List.getElem_finRange, List.length_finRange, Bool.not_eq_true']
  constructor
  · rintro ⟨hp, k, hk, rfl, hbelow⟩
    exact ⟨hp, fun j hj => Bool.eq_false_iff.mp (hbelow j hj)⟩
  · rintro ⟨hp, hbelow⟩
    exact ⟨hp, i, i.isLt, rfl, fun j hj => Bool.eq_false_iff.mpr (hbelow ⟨j, _⟩ hj)⟩

theorem probe_reports (b : AddrComparatorBank) (access : AddrBusAccess) : Reports b access := by
  have hfst : (EmuRs.AddrComparator.probe b access).1 =
      (List.finRange 4).find? fun i => slotMatches (b.slots i) access := by
    unfold EmuRs.AddrComparator.probe
    rw [show EmuRs.AddrComparator.slotMatches = slotMatches from rfl]
    cases (List.finRange 4).find? fun i => slotMatches (b.slots i) access <;> rfl
  refine ⟨probe_agrees b access, ?_, ?_⟩
  · intro i
    rw [hfst, find?_finRange]
    simp only [slotMatches_iff]
  · rw [hfst, List.find?_eq_none]
    simp only [List.mem_finRange, forall_const, slotMatches_iff]

/-- An operation does what it should exactly when it is safe. -/
theorem good_iff_safe (h : InRange b) (op : Op) : Good b op ↔ Safe b op := by
  cases op with
  | read port => exact answersAlike_iff h.lastHit
  | write port val => exact iff_of_true (writePort_agrees b port val) trivial
  | probe access => exact iff_of_true (probe_reports b access) trivial
  | program slot addr enabled io rdwr =>
      have hrange := asked_inRange addr enabled io rdwr
      obtain ⟨hselected, hown, hothers⟩ := program_spec b slot hrange
      have hback := readsBack_selected hrange hselected hown
      constructor
      · rintro ⟨hkept, -⟩ other hother hne
        have heq := hkept other hne
        rw [hothers other hne, if_pos hother] at heq
        exact (congrArg AddrComparatorSlot.addr heq).symm
      · intro hsafe
        refine ⟨fun other hne => ?_, hback⟩
        rw [hothers other hne]
        split_ifs with hother
        · have haddr := hsafe other hother hne
          rw [asked, ← haddr]
        · rfl
  | reselect slot =>
      have hrange : SlotInRange (b.slots slot) := ⟨h.rdwr slot, h.addr slot⟩
      obtain ⟨hselected, hslots⟩ := reselect_spec b slot hrange
      constructor
      · rintro ⟨hkept, -⟩
        have heq := hkept slot
        rw [hslots, if_pos rfl] at heq
        exact congrArg AddrComparatorSlot.addr heq
      · intro hsafe
        have hown : (reselect b slot).slots slot = b.slots slot := by
          rw [hslots, if_pos rfl, hsafe]
        refine ⟨fun other => ?_, readsBack_selected hrange hselected hown⟩
        rw [hslots]
        split_ifs with hother
        · rw [hother, hsafe]
        · rfl

theorem inRange_initial : InRange initial :=
  ⟨.inl rfl, fun _ => Nat.zero_lt_succ _, fun _ => Nat.zero_lt_succ _⟩

theorem InRange.setSlot (h : InRange b) (n : Nat) {f : AddrComparatorSlot → AddrComparatorSlot}
    (hf : ∀ s, SlotInRange s → SlotInRange (f s)) : InRange (b.setSlot n f) := by
  have hslots : ∀ i, SlotInRange ((b.setSlot n f).slots i) := by
    intro i
    rw [setSlot_slots]
    split_ifs
    · exact hf _ ⟨h.rdwr i, h.addr i⟩
    · exact ⟨h.rdwr i, h.addr i⟩
  exact ⟨(setSlot_lastHit n f).symm ▸ h.lastHit, fun i => (hslots i).1, fun i => (hslots i).2⟩

theorem InRange.applyAddr (h : InRange b) : InRange b.applyAddrToSelected := by
  apply h.setSlot
  exact fun s hs => ⟨hs.1, latchedAddr_lt b⟩

theorem InRange.applyCtrl (h : InRange b) : InRange b.applyCtrlToSlot := by
  unfold AddrComparatorBank.applyCtrlToSlot
  apply h.setSlot
  refine fun s hs => ⟨?_, latchedAddr_lt b⟩
  have hfield : ((b.ctrlLatch >>> 5) &&& 0x03).toNat = b.ctrlLatch.toNat / 2 ^ 5 % 2 ^ 2 :=
    BitField.toNat_field _ 5 2 (by decide)
  simp only [decodeBreakCtrl, BitVec.toNat_setWidth, hfield]
  omega

theorem InRange.writePort (h : InRange b) (port val : U16) : InRange (b.writePort port val).2 := by
  unfold AddrComparatorBank.writePort
  dsimp only
  split_ifs
  · exact InRange.applyAddr ⟨h.lastHit, h.rdwr, h.addr⟩
  · exact InRange.applyAddr ⟨h.lastHit, h.rdwr, h.addr⟩
  · exact InRange.applyCtrl ⟨h.lastHit, h.rdwr, h.addr⟩
  · exact h

theorem InRange.readPort (h : InRange b) (port : U16) : InRange (b.readPort port).2 := by
  unfold AddrComparatorBank.readPort
  dsimp only
  split_ifs <;> exact ⟨h.lastHit, h.rdwr, h.addr⟩

theorem InRange.probe (h : InRange b) (access : AddrBusAccess) : InRange (b.probe access).2 := by
  unfold AddrComparatorBank.probe
  cases (List.finRange 4).find? fun i => slotMatches (b.slots i) access with
  | none => exact h
  | some i =>
      have hlt := i.isLt
      have hhit : (BitVec.ofNat 16 i).toNat < 4 := by
        rw [BitVec.toNat_ofNat]
        omega
      cases access.write with
      | false => exact ⟨.inr hhit, h.rdwr, h.addr⟩
      | true => exact ⟨.inr hhit, h.rdwr, h.addr⟩

/-- Every operation keeps the fields in range. -/
theorem InRange.step (h : InRange b) (op : Op) : InRange (step b op) := by
  cases op with
  | read port => exact h.readPort port
  | write port val => exact h.writePort port val
  | program slot addr enabled io rdwr => exact ((h.writePort _ _).writePort _ _).writePort _ _
  | reselect slot => exact h.writePort _ _
  | probe access => exact h.probe access

/-- Along every run the comparators do what they should exactly in the runs whose operations are
all safe. -/
theorem comparator_runs (ops : List Op) :
    Always step Good initial ops ↔ Always step Safe initial ops :=
  always_iff inRange_initial (fun _ op h => good_iff_safe h op) fun _ op h _ => h.step op

/-- Behind a control word for slot 4 the TypeScript emulator fails to read the selected slot,
where the Rust emulator reads slot 3; and slot 0 loses its address when slot 1 is programmed. -/
theorem select_field_leaks :
    ¬ Always step Good initial [.write IO_PORT_BREAK_CTRL 0x0004, .read IO_PORT_BREAK_CTRL] ∧
      ¬ Always step Good initial
        [.program 0 0x1234 true false 1, .program 1 0x5678 true false 1] := by
  constructor
  · rintro ⟨-, hread, -⟩
    exact absurd ((answersAlike_iff (.inl rfl)).mp hread (.inl rfl)) (by decide)
  · rintro ⟨-, ⟨hkept, -⟩, -⟩
    exact absurd (congrArg AddrComparatorSlot.addr (hkept 0 (by decide))) (by decide)

end Runs

end AddrComparator
end Mn1613
end RetroCpu
