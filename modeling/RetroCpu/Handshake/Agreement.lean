import RetroCpu.Handshake.Dispatch
import RetroCpu.Handshake.Lossless

/-!
# How far the I/O board agrees with `HandShake.mdc`

The commands that reach their handler as they were sent, in every interleaving, and the short
frames that are turned away.
-/

namespace RetroCpu
namespace Handshake

open Interleave CpuToIo
open BoardLink (CpuType)

section Short

/-- How long a frame has to be for its command, without a pad at its end -/
def required (cpuType : CpuType) (frame : List Byte) : Nat :=
  match Cmd.ofCode (frame.headD 0) with
  | none => 1
  | some .MODE_SET | some .PC_KEY_GET => 2
  | some .TIMER_SET | some .LCD_CTRL | some .BEEP => 6
  | some .LED_DISPLAY => 16
  | some .LCD_TEXT => 20
  | some .STEP_NOTIFY | some .UNDEF_NOTIFY =>
      match cpuType with
      | .mn1613 => 60
      | .tms9995 => 70
  | some .BREAK_NOTIFY =>
      let historyCount := (frame.getD 2 0).toNat
      if historyCount = 0 then 11 else 12 + historyCount * breakHistoryEntrySizeForCpu cpuType
  | some .TIME_GET | some .HEX_KEY_GET | some .RTC_GET_RAW | some .TEMP_GET_RAW
  | some .LIGHT_GET_RAW | some .DISTANCE_GET_RAW => 1

/-- A frame that is too short for its command is turned away without a call of a handler. -/
def RejectsShort (cpuType : CpuType) (frame : List Byte) : Prop :=
  frame.length < required cpuType frame →
    ∀ handlers, (dispatcher cpuType handlers).dispatch frame = ng

/-- A frame that is not that of a break notification without all of its history -/
def ShortCaught (cpuType : CpuType) (frame : List Byte) : Prop :=
  frame.length < required cpuType frame → frame.headD 0 = Cmd.BREAK_NOTIFY.code →
    frame.length < BREAK_NOTIFY_HEADER_SIZE ∨
      ADDR_BREAK_SLOT_COUNT ≤ (frame.getD 1 0).toNat ∨
      BREAK_HISTORY_MAX_COUNT < (frame.getD 2 0).toNat

variable {cpuType : CpuType}

/-- Apart from a break notification, the least length of a frame is the required one. -/
theorem cpuFrameSizeForCpu_required {b : Byte} {rest : List Byte}
    (h : b ≠ Cmd.BREAK_NOTIFY.code) :
    cpuFrameSizeForCpu b cpuType = required cpuType (b :: rest) := by
  rw [cpuFrameSizeForCpu.eq_def, required.eq_def, List.headD_cons]
  cases hcmd : Cmd.ofCode b with
  | none => rfl
  | some cmd =>
      cases cmd with
      | BREAK_NOTIFY =>
          have hcode := List.find?_some hcmd
          exact absurd (eq_of_beq hcode).symm h
      | STEP_NOTIFY => cases cpuType <;> rfl
      | UNDEF_NOTIFY => cases cpuType <;> rfl
      | _ => rfl

/-- Handlers that only say that all is well -/
def okHandlers : CpuToIoHandlers where
  onModeSet _ := 0
  getHexKeys := ([], 0)
  getPcKey := (0, 0, 0)
  onLedDisplay _ := 0
  onBeep _ := 0
  onTimerSet _ := 0
  getTime := ([], 0)
  onBreakNotify _ := 0
  onStepNotify _ := 0
  onUndefNotify _ := 0
  onLcdControl _ := 0
  onLcdText _ := 0
  getRtcRaw := ([], 0)
  getTempRaw := (0, 0)
  getLightRaw := ([], 0)
  getDistanceRaw := (0, 0, 0)

theorem dispatch_break {handlers : CpuToIoHandlers} {rest : List Byte} :
    (dispatcher cpuType handlers).dispatch (Cmd.BREAK_NOTIFY.code :: rest) =
      if (Cmd.BREAK_NOTIFY.code :: rest).length < BREAK_NOTIFY_HEADER_SIZE then ng
      else (dispatcher cpuType handlers).handleBreakNotify (Cmd.BREAK_NOTIFY.code :: rest) := rfl

theorem rejectsShort_iff (frame : List Byte) :
    RejectsShort cpuType frame ↔ ShortCaught cpuType frame := by
  cases frame with
  | nil =>
      refine iff_of_true (fun _ handlers => rfl) fun _ hbreak => ?_
      cases hbreak
  | cons b rest =>
      by_cases hb : b = Cmd.BREAK_NOTIFY.code
      · subst hb
        constructor
        · intro h hshort hbreak
          by_contra hnot
          obtain ⟨hlen, hslot, hcount⟩ := not_or.mp hnot |>.imp id not_or.mp
          have hng := h hshort okHandlers
          rw [dispatch_break, if_neg hlen, Dispatcher.handleBreakNotify] at hng
          rw [if_neg hslot, if_neg hcount] at hng
          cases hng
        · intro h hshort handlers
          rw [dispatch_break]
          rcases h hshort rfl with hlen | hslot | hcount
          · exact if_pos hlen
          · split
            · rfl
            · rw [Dispatcher.handleBreakNotify]
              exact if_pos hslot
          · split
            · rfl
            · rw [Dispatcher.handleBreakNotify, if_pos hcount, ite_self]
      · refine iff_of_true (fun hshort handlers => ?_) fun _ hbreak => absurd hbreak hb
        rw [← cpuFrameSizeForCpu_required hb] at hshort
        exact if_pos hshort

end Short

section Commands

variable {cpuType : CpuType}

/-- The command reaches its handler as it was sent exactly when its fields are undamaged. -/
theorem agrees_iff (c : Command cpuType) : c.Agrees ↔ c.Undamaged := by
  have hne : c.frame ≠ [] := by
    obtain ⟨rest, hrest⟩ := c.frame_head
    rw [hrest]
    exact List.cons_ne_nil _ _
  have htaken {S : Type} {cpu : CpuSide S} (M : Monitor cpu) (s : S) {bus : Bus}
      (hbus : bus.Quiet) (hfree : bus.INTERRUPT_BUSY = false) {fuel : Nat}
      (hfuel : c.frame.length < fuel) :=
    settles_receiveFramedAdaptive M hne c.asked_remaining
      (Nat.lt_of_le_of_lt c.asked_le hfuel) s hbus hfree
  constructor
  · intro h
    have hquiet := quiet_createHandshakeBus
    have hagrees := h okHandlers BootMonitor.Mn1613.monitor { } _ hquiet rfl _
      (Nat.lt_succ_self _)
    obtain ⟨x, hruns, hstuck, bytes, hbytes, hdispatch⟩ := hagrees.exists_final
    have hx := (htaken BootMonitor.Mn1613.monitor { } hquiet rfl
      (Nat.lt_succ_self _)).stuck hruns hstuck
    have heq : bytes = c.taken := by
      have hdone := hbytes.1.1.symm.trans hx.1.1
      injection hdone with hok
      injection hok
    rw [heq] at hdispatch
    exact dispatch_iff c |>.mp hdispatch
  · intro h handlers S cpu M s bus hbus hfree fuel hfuel
    refine (htaken M s hbus hfree hfuel).mono fun x hx => ⟨c.taken, hx, ?_⟩
    exact dispatch_iff c |>.mpr h

end Commands

end Handshake
end RetroCpu
