import Mathlib.Data.List.Perm.Basic
import RetroCpu.EmuTs.IoPorts
import RetroCpu.Lib.StepRuns

/-!
# The causes of the interrupts (`deliverInterrupt`)

Four sources set the one cause register of an MN1613 and raise the one pending bit of a level:
the I/O board by `deliverInterrupt`, a handshake that starts, the comparators and the step
logic.  The handler of a level reads the register some time after its interrupt is accepted.
-/

namespace RetroCpu
namespace InterruptCauses

open Handshake IoPorts StepRuns

section Board

abbrev Level := Fin 3

/-- An interrupt of a level with its cause. -/
structure Irq where
  level : Level
  cause : BitVec 16
deriving DecidableEq, Repr

/-- Who asks for an interrupt. -/
inductive Source
  | link
  | handshake
  | comparator
  | stepLogic
deriving DecidableEq, Repr

def IRQ_RETRY_MAX : Nat := 200

/-- The CPU board: its ports, the calls that wait in `setTimeout` with the number of their next
attempt, the pending bits of the CPU and the handlers that have not read the cause yet.  Behind
them stand the requests made, the interrupts delivered and the ones taken, each with the cause
that its handler read. -/
structure Board where
  ports : Ports := { wired := true }
  retries : List (Irq × Nat) := []
  pending : Level → Bool := fun _ => false
  handlers : List Level := []
  issued : List Irq := []
  delivered : List (Source × Irq) := []
  taken : List Irq := []

/-- The part of the cause that the register holds. -/
def Irq.masked (irq : Irq) : Irq := { irq with cause := irq.cause &&& 0x07 }

/-- The pending bit of a level, after `setIntCause`. -/
def Board.trigger (source : Source) (irq : Irq) (b : Board) : Board :=
  { b with
    pending := fun level => if level = irq.level then true else b.pending level
    delivered := b.delivered ++ [(source, irq.masked)] }

def Board.deliver (source : Source) (irq : Irq) (b : Board) : Board :=
  { b with ports := setIntCause irq.cause b.ports }.trigger source irq

def Board.busy (b : Board) : Bool := getInterruptBusy b.ports || isHandshakeActive b.ports

/-- `deliverInterrupt` -/
def deliverInterrupt (irq : Irq) (attempt : Nat) (b : Board) : Board :=
  if b.busy ∧ attempt < IRQ_RETRY_MAX then { b with retries := b.retries ++ [(irq, attempt + 1)] }
  else b.deliver .link irq

/-- The condition that `initiateSend` waits for -/
def Board.free (b : Board) : Bool :=
  !b.ports.handshakeBus.INTERRUPT_BUSY && !b.ports.handshakeBus.HSHK_OUT_REQ &&
    !b.ports.handshakeBus.HSHK_IN_REQ

def HANDSHAKE_IRQ : Irq := ⟨2, CAUSE_HANDSHAKE⟩

/-- What `initiateSend` writes before its request -/
def sendCause (ports : Ports) : Ports :=
  { ports with handshakeBus :=
    { ports.handshakeBus with HSHK_IN_DENA := false, INT_CAUSE := CAUSE_HANDSHAKE } }

/-- `initiateSend`, behind its wait; the bus is wired, so its request interrupts the CPU. -/
def initiateSend (b : Board) : Board :=
  { b with ports := setHshkInReq true true (sendCause b.ports) }.trigger .handshake HANDSHAKE_IRQ

/-- `initiateSend` without interrupt, behind its first wait -/
def initiateReply (b : Board) : Board :=
  { b with ports := setHshkInReq true false (sendCause b.ports) }

/-- `raiseAddrBreakIrq` -/
def raiseAddrBreakIrq (b : Board) : Board := b.deliver .comparator ⟨1, CAUSE_ADDR_BREAK⟩

/-- `raiseStepBreakIrq` -/
def raiseStepBreakIrq (b : Board) : Board := b.deliver .stepLogic ⟨1, CAUSE_STEP⟩

end Board

section Events

/-- What the sources and the CPU do. -/
inductive Event
  /-- a first call of `deliverInterrupt` -/
  | request (irq : Irq)
  /-- a `setTimeout` of `deliverInterrupt` runs out -/
  | retry (i : Nat)
  | send
  | reply
  | addrBreak
  | stepBreak
  /-- the CPU accepts the interrupt of a level -/
  | accept (level : Level)
  /-- the handler of a level reads `INT_CAUSE` -/
  | read (level : Level)
  /-- a handler writes `INTERRUPT_BUSY` -/
  | busy (value : Bool)
  /-- either side moves the lines of a handshake -/
  | lines (bus : Bus)

def acceptIrq (level : Level) (b : Board) : Board :=
  if b.pending level then
    { b with
      pending := fun l => if l = level then false else b.pending l
      handlers := level :: b.handlers }
  else b

def readCause (level : Level) (b : Board) : Board :=
  if level ∈ b.handlers then
    { b with
      handlers := b.handlers.erase level
      taken := b.taken ++ [⟨level, b.ports.handshakeBus.INT_CAUSE⟩] }
  else b

def step (b : Board) : Event → Board
  | .request irq => deliverInterrupt irq 0 { b with issued := b.issued ++ [irq.masked] }
  | .retry i =>
      match b.retries[i]? with
      | none => b
      | some (irq, attempt) => deliverInterrupt irq attempt { b with retries := b.retries.eraseIdx i }
  | .send => if b.free then initiateSend b else b
  | .reply => if b.ports.handshakeBus.HSHK_IN_REQ then b else initiateReply b
  | .addrBreak => raiseAddrBreakIrq b
  | .stepBreak => raiseStepBreakIrq b
  | .accept level => acceptIrq level b
  | .read level => readCause level b
  | .busy value =>
      { b with ports := { b.ports with handshakeBus :=
        { b.ports.handshakeBus with INTERRUPT_BUSY := value } } }
  | .lines bus =>
      { b with ports := { b.ports with handshakeBus :=
        { bus with
          INTERRUPT_BUSY := b.ports.handshakeBus.INTERRUPT_BUSY
          INT_CAUSE := b.ports.handshakeBus.INT_CAUSE } } }

/-- No interrupt waits for the CPU, and every handler has read its cause. -/
def Board.AllRead (b : Board) : Prop := (∀ level, b.pending level = false) ∧ b.handlers = []

/-- The events that write the cause. -/
def SetsCause (b : Board) : Event → Prop
  | .request _ => b.busy = false
  | .retry i => ∃ irq attempt, b.retries[i]? = some (irq, attempt) ∧
      (b.busy = false ∨ IRQ_RETRY_MAX ≤ attempt)
  | .send => b.free = true
  | .reply => b.ports.handshakeBus.HSHK_IN_REQ = false
  | .addrBreak => True
  | .stepBreak => True
  | _ => False

/-- The cause is written only when the one before it has been read. -/
def Undisturbed (b : Board) (event : Event) : Prop := SetsCause b event → b.AllRead

/-- The interrupts that `deliverInterrupt` delivered. -/
def Board.served (b : Board) : List Irq :=
  (b.delivered.filter (·.1 = .link)).map Prod.snd

/-- All requests of the I/O board that are on their way or delivered. -/
def Board.requests (b : Board) : List Irq := b.served ++ b.retries.map (·.1.masked)

end Events

section Requests

variable {b : Board} {event : Event}

/-- What holds of the ports and of the waiting calls. -/
structure Kept (b : Board) : Prop where
  mode : b.ports.cpuPortMode = .mn1613
  wired : b.ports.wired = true
  attempts : ∀ r ∈ b.retries, r.2 ≤ IRQ_RETRY_MAX
  issued : b.issued.Perm b.requests

theorem kept_start : Kept {} := by
  refine ⟨rfl, rfl, fun r hr => ?_, List.Perm.refl _⟩
  cases hr

/-- On an MN1613 the cause goes to the bus and nowhere else. -/
theorem setIntCause_mn1613 {ports : Ports} (sync : Ports → Ports) (cause : BitVec 16)
    (h : ports.cpuPortMode = .mn1613) :
    setIntCauseBy sync cause ports =
      { ports with handshakeBus := { ports.handshakeBus with INT_CAUSE := cause &&& 0x07 } } := by
  have hmode : ¬ ports.cpuPortMode = .tms9995 := by
    rw [h]
    intro hne
    cases hne
  unfold setIntCauseBy
  dsimp only
  rw [if_neg hmode]

theorem setHshkInReq_ports (ports : Ports) (value raiseIrq : Bool)
    (h : ports.cpuPortMode = .mn1613) :
    (setHshkInReq value raiseIrq ports).cpuPortMode = .mn1613 ∧
      (setHshkInReq value raiseIrq ports).wired = ports.wired := by
  unfold setHshkInReq onInReqRise
  dsimp only
  split
  · split
    · rw [setIntCause_mn1613]
      · exact ⟨h, rfl⟩
      · exact h
    · exact ⟨h, rfl⟩
  · exact ⟨h, rfl⟩

theorem served_deliver (irq : Irq) :
    (b.deliver .link irq).served = b.served ++ [irq.masked] := by
  unfold Board.deliver Board.trigger Board.served
  rw [List.filter_append, List.map_append]
  rfl

theorem served_trigger_ne {source : Source} (irq : Irq) (h : source ≠ .link) :
    (b.trigger source irq).served = b.served := by
  unfold Board.trigger Board.served
  rw [List.filter_append, List.filter_cons_of_neg, List.filter_nil, List.append_nil]
  rw [decide_eq_true_eq]
  exact h

theorem served_deliver_ne {source : Source} (irq : Irq) (h : source ≠ .link) :
    (b.deliver source irq).served = b.served := served_trigger_ne irq h

/-- A call of `deliverInterrupt` delivers its request or lets it wait. -/
theorem requests_deliverInterrupt (irq : Irq) (attempt : Nat) :
    (deliverInterrupt irq attempt b).requests.Perm (b.requests ++ [irq.masked]) := by
  unfold deliverInterrupt
  split
  · unfold Board.requests
    rw [List.map_append, ← List.append_assoc]
    exact List.Perm.refl _
  · unfold Board.requests
    rw [served_deliver, List.append_assoc, List.append_assoc]
    exact List.Perm.append_left _ List.perm_append_comm

theorem Kept.deliver {source : Source} {irq : Irq} (h : Kept b)
    (hissued : b.issued.Perm (b.deliver source irq).requests) : Kept (b.deliver source irq) := by
  have hports := setIntCause_mn1613 syncTmsCruToBus irq.cause h.mode
  refine ⟨?_, ?_, h.attempts, hissued⟩
  · exact (congrArg Ports.cpuPortMode hports).trans h.mode
  · exact (congrArg Ports.wired hports).trans h.wired

theorem kept_deliverInterrupt {irq : Irq} {attempt : Nat} (hmode : b.ports.cpuPortMode = .mn1613)
    (hwired : b.ports.wired = true) (hattempts : ∀ r ∈ b.retries, r.2 ≤ IRQ_RETRY_MAX)
    (hissued : b.issued.Perm (b.requests ++ [irq.masked])) :
    Kept (deliverInterrupt irq attempt b) := by
  have hrequests := hissued.trans (requests_deliverInterrupt irq attempt).symm
  unfold deliverInterrupt at hrequests ⊢
  split
  · rename_i hwait
    rw [if_pos hwait] at hrequests
    refine ⟨hmode, hwired, fun r hr => ?_, hrequests⟩
    rcases List.mem_append.mp hr with hold | hnew
    · exact hattempts r hold
    · rw [List.mem_singleton] at hnew
      subst hnew
      exact hwait.2
  · rename_i hwait
    rw [if_neg hwait] at hrequests
    have hports := setIntCause_mn1613 syncTmsCruToBus irq.cause hmode
    refine ⟨?_, ?_, hattempts, hrequests⟩
    · exact (congrArg Ports.cpuPortMode hports).trans hmode
    · exact (congrArg Ports.wired hports).trans hwired

/-- No event withdraws a request or makes one. -/
theorem Kept.step (h : Kept b) : Kept (step b event) := by
  cases event with
  | request irq =>
      exact kept_deliverInterrupt h.mode h.wired h.attempts (h.issued.append_right _)
  | retry i =>
      unfold InterruptCauses.step
      dsimp only
      cases hi : b.retries[i]? with
      | none => exact h
      | some r =>
          obtain ⟨irq, attempt⟩ := r
          refine kept_deliverInterrupt h.mode h.wired ?_ ?_
          · exact fun r hr => h.attempts r (List.mem_of_mem_eraseIdx hr)
          · refine h.issued.trans ?_
            obtain ⟨hlt, hget⟩ := List.getElem?_eq_some_iff.mp hi
            have hsplit := (List.getElem_cons_eraseIdx_perm hlt).map (·.1.masked)
            rw [hget, List.map_cons] at hsplit
            unfold Board.requests
            rw [List.append_assoc]
            exact List.Perm.append_left _ (hsplit.symm.trans (List.perm_append_singleton _ _).symm)
  | send =>
      unfold InterruptCauses.step initiateSend
      dsimp only
      split
      · have hports := setHshkInReq_ports (sendCause b.ports) true true h.mode
        refine ⟨hports.1, hports.2.trans h.wired, h.attempts, ?_⟩
        refine h.issued.trans ?_
        unfold Board.requests
        rw [served_trigger_ne]
        · exact List.Perm.refl _
        · decide
      · exact h
  | reply =>
      unfold InterruptCauses.step initiateReply
      dsimp only
      split
      · exact h
      · have hports := setHshkInReq_ports (sendCause b.ports) true false h.mode
        exact ⟨hports.1, hports.2.trans h.wired, h.attempts, h.issued⟩
  | addrBreak =>
      refine h.deliver ?_
      unfold Board.requests
      rw [served_deliver_ne _ (by decide)]
      exact h.issued
  | stepBreak =>
      refine h.deliver ?_
      unfold Board.requests
      rw [served_deliver_ne _ (by decide)]
      exact h.issued
  | accept level =>
      unfold InterruptCauses.step acceptIrq
      dsimp only
      split
      · exact ⟨h.mode, h.wired, h.attempts, h.issued⟩
      · exact h
  | read level =>
      unfold InterruptCauses.step readCause
      dsimp only
      split
      · exact ⟨h.mode, h.wired, h.attempts, h.issued⟩
      · exact h
  | busy value => exact ⟨h.mode, h.wired, h.attempts, h.issued⟩
  | lines bus => exact ⟨h.mode, h.wired, h.attempts, h.issued⟩

end Requests

section Causes

variable {b : Board} {event : Event}

/-- The interrupt that waits for its handler to read the cause, if there is one: its bit is
pending or its handler runs, and the register holds its cause. -/
def Board.Outstanding (b : Board) : Option Irq → Prop
  | none => b.AllRead
  | some irq => b.ports.handshakeBus.INT_CAUSE = irq.cause ∧
      (((∀ level, b.pending level = decide (level = irq.level)) ∧ b.handlers = []) ∨
        ((∀ level, b.pending level = false) ∧ b.handlers = [irq.level]))

/-- The interrupts delivered are those taken, in order and each with its own cause, and the one
that is outstanding. -/
def Board.InOrder (b : Board) : Prop :=
  ∃ unread, b.Outstanding unread ∧ b.delivered.map Prod.snd = b.taken ++ unread.toList

theorem inOrder_start : Board.InOrder {} := ⟨none, ⟨fun _ => rfl, rfl⟩, rfl⟩

theorem Board.Outstanding.eq_none {unread : Option Irq} (h : b.Outstanding unread)
    (hread : b.AllRead) : unread = none := by
  cases unread with
  | none => rfl
  | some irq =>
      obtain ⟨-, ⟨hpending, -⟩ | ⟨-, hhandlers⟩⟩ := h
      · have hirq := (hpending irq.level).symm.trans (hread.1 _)
        rw [decide_eq_false_iff_not] at hirq
        exact absurd rfl hirq
      · rw [hread.2] at hhandlers
        cases hhandlers

/-- Two boards that differ in other things only. -/
theorem Board.InOrder.congr {b' : Board} (h : b.InOrder)
    (hcause : b'.ports.handshakeBus.INT_CAUSE = b.ports.handshakeBus.INT_CAUSE)
    (hpending : b'.pending = b.pending) (hhandlers : b'.handlers = b.handlers)
    (hdelivered : b'.delivered = b.delivered) (htaken : b'.taken = b.taken) : b'.InOrder := by
  obtain ⟨unread, hunread, hlist⟩ := h
  refine ⟨unread, ?_, ?_⟩
  · cases unread with
    | none =>
        refine ⟨fun level => ?_, hhandlers.trans hunread.2⟩
        rw [hpending]
        exact hunread.1 level
    | some irq =>
        rw [Board.Outstanding, hcause, hpending, hhandlers]
        exact hunread
  · rw [hdelivered, htaken]
    exact hlist

/-- An interrupt that finds all causes read is the one outstanding. -/
theorem Board.InOrder.trigger {source : Source} {irq : Irq} (h : b.InOrder) (hread : b.AllRead)
    (ports : Ports) (hcause : ports.handshakeBus.INT_CAUSE = irq.masked.cause) :
    (Board.trigger source irq { b with ports }).InOrder := by
  obtain ⟨unread, hunread, hlist⟩ := h
  have hnone := hunread.eq_none hread
  subst hnone
  refine ⟨some irq.masked, ⟨hcause, .inl ⟨fun level => ?_, hread.2⟩⟩, ?_⟩
  · change (if level = irq.level then true else b.pending level) = _
    rw [hread.1]
    by_cases hlevel : level = irq.level
    · rw [if_pos hlevel]
      exact (decide_eq_true hlevel).symm
    · rw [if_neg hlevel]
      exact (decide_eq_false hlevel).symm
  · change (b.delivered ++ [(source, irq.masked)]).map Prod.snd = _
    rw [List.map_append, hlist, Option.toList_none, List.append_nil]
    rfl

theorem Board.InOrder.deliver {source : Source} {irq : Irq} (h : b.InOrder) (hread : b.AllRead)
    (hmode : b.ports.cpuPortMode = .mn1613) : (b.deliver source irq).InOrder := by
  refine h.trigger hread _ ?_
  exact congrArg (·.handshakeBus.INT_CAUSE) (setIntCause_mn1613 syncTmsCruToBus irq.cause hmode)

theorem inOrder_deliverInterrupt {irq : Irq} {attempt : Nat} (h : b.InOrder)
    (hmode : b.ports.cpuPortMode = .mn1613)
    (hread : b.busy = false ∨ IRQ_RETRY_MAX ≤ attempt → b.AllRead) :
    (deliverInterrupt irq attempt b).InOrder := by
  unfold deliverInterrupt
  split
  · exact h.congr rfl rfl rfl rfl rfl
  · rename_i hgo
    refine h.deliver (hread ?_) hmode
    cases hbusy : b.busy with
    | false => exact .inl rfl
    | true =>
        rw [hbusy] at hgo
        exact .inr (Nat.le_of_not_lt fun hlt => hgo ⟨rfl, hlt⟩)

/-- The request of a handshake leaves the cause that was set before it. -/
theorem setHshkInReq_cause {ports : Ports} (value raiseIrq : Bool)
    (h : ports.cpuPortMode = .mn1613) :
    (setHshkInReq value raiseIrq (sendCause ports)).handshakeBus.INT_CAUSE = CAUSE_HANDSHAKE := by
  unfold setHshkInReq onInReqRise
  dsimp only
  split
  · split
    · have hmask : CAUSE_HANDSHAKE &&& 0x07 = CAUSE_HANDSHAKE := by decide
      rw [setIntCause_mn1613]
      · exact hmask
      · exact h
    · rfl
  · rfl

theorem inOrder_acceptIrq {level : Level} (h : b.InOrder) : (acceptIrq level b).InOrder := by
  unfold acceptIrq
  split
  · rename_i hlevel
    obtain ⟨unread, hunread, hlist⟩ := h
    cases unread with
    | none =>
        rw [hunread.1] at hlevel
        cases hlevel
    | some irq =>
        obtain ⟨hcause, ⟨hpending, hhandlers⟩ | ⟨hpending, -⟩⟩ := hunread
        · rw [hpending, decide_eq_true_eq] at hlevel
          subst hlevel
          refine ⟨some irq, ⟨hcause, .inr ⟨fun l => ?_, ?_⟩⟩, hlist⟩
          · change (if l = irq.level then false else b.pending l) = false
            rw [hpending]
            by_cases hl : l = irq.level
            · exact if_pos hl
            · rw [if_neg hl]
              exact decide_eq_false hl
          · change irq.level :: b.handlers = _
            rw [hhandlers]
        · rw [hpending] at hlevel
          cases hlevel
  · exact h

/-- The handler that reads is the one of the outstanding interrupt, and it reads its cause. -/
theorem inOrder_readCause {level : Level} (h : b.InOrder) : (readCause level b).InOrder := by
  unfold readCause
  split
  · rename_i hlevel
    obtain ⟨unread, hunread, hlist⟩ := h
    cases unread with
    | none =>
        rw [hunread.2] at hlevel
        cases hlevel
    | some irq =>
        obtain ⟨hcause, ⟨-, hhandlers⟩ | ⟨hpending, hhandlers⟩⟩ := hunread
        · rw [hhandlers] at hlevel
          cases hlevel
        · rw [hhandlers, List.mem_singleton] at hlevel
          subst hlevel
          refine ⟨none, ⟨hpending, ?_⟩, ?_⟩
          · change b.handlers.erase irq.level = []
            rw [hhandlers, List.erase_cons_head]
          · change b.delivered.map Prod.snd = _ ++ [_] ++ []
            rw [hlist, hcause, List.append_nil]
            rfl
  · exact h

/-- An event that disturbs no unread cause keeps the order. -/
theorem Board.InOrder.step (h : b.InOrder) (hkept : Kept b) (hcalm : Undisturbed b event) :
    (step b event).InOrder := by
  cases event with
  | request irq =>
      refine inOrder_deliverInterrupt (h.congr rfl rfl rfl rfl rfl) hkept.mode fun hgo => ?_
      refine hcalm (hgo.resolve_right ?_)
      decide
  | retry i =>
      unfold InterruptCauses.step
      dsimp only
      cases hi : b.retries[i]? with
      | none => exact h
      | some r =>
          obtain ⟨irq, attempt⟩ := r
          refine inOrder_deliverInterrupt (h.congr rfl rfl rfl rfl rfl) hkept.mode fun hgo => ?_
          exact hcalm ⟨irq, attempt, hi, hgo⟩
  | send =>
      unfold InterruptCauses.step
      dsimp only
      split
      · exact h.trigger (hcalm ‹_›) _ (setHshkInReq_cause true true hkept.mode)
      · exact h
  | reply =>
      unfold InterruptCauses.step
      dsimp only
      split
      · exact h
      · rename_i hlow
        have hread := hcalm (Bool.eq_false_iff.mpr hlow)
        obtain ⟨unread, hunread, hlist⟩ := h
        have hnone := hunread.eq_none hread
        subst hnone
        exact ⟨none, hread, hlist⟩
  | addrBreak => exact h.deliver (hcalm trivial) hkept.mode
  | stepBreak => exact h.deliver (hcalm trivial) hkept.mode
  | accept level => exact inOrder_acceptIrq h
  | read level => exact inOrder_readCause h
  | busy value => exact h.congr rfl rfl rfl rfl rfl
  | lines bus => exact h.congr rfl rfl rfl rfl rfl

end Causes

section Runs

theorem kept_after (events : List Event) : Kept (after step {} events) := by
  have hall : ∀ (b : Board) (events : List Event), Always step (fun _ _ => True) b events := by
    intro b events
    induction events generalizing b with
    | nil => trivial
    | cons event events ih => exact ⟨trivial, ih _⟩
  exact (hall {} events).after kept_start fun _ _ h _ => h.step

/-- What holds as long as no unread cause is disturbed. -/
def Calm (b : Board) : Prop := Kept b ∧ b.InOrder

theorem inOrder_after {events : List Event} (h : Always step Undisturbed {} events) :
    (after step {} events).InOrder := by
  have hcalm : Calm (after step {} events) :=
    h.after ⟨kept_start, inOrder_start⟩ fun _ _ hinv hevent =>
      ⟨hinv.1.step, hinv.2.step hinv.1 hevent⟩
  exact hcalm.2

/-- A call of `deliverInterrupt` waits exactly while the board is busy and retries are left. -/
theorem delivers_iff (irq : Irq) (attempt : Nat) (b : Board) :
    deliverInterrupt irq attempt b = b.deliver .link irq ↔
      b.busy = false ∨ IRQ_RETRY_MAX ≤ attempt := by
  unfold deliverInterrupt
  constructor
  · intro h
    split at h
    · have hlen := congrArg (List.length ∘ Board.retries) h
      change (b.retries ++ [(irq, attempt + 1)]).length = b.retries.length at hlen
      rw [List.length_append, List.length_singleton] at hlen
      omega
    · rename_i hgo
      cases hbusy : b.busy with
      | false => exact .inl rfl
      | true => exact .inr (Nat.le_of_not_lt fun hlt => hgo ⟨hbusy, hlt⟩)
  · intro h
    refine if_neg ?_
    rintro ⟨hbusy, hlt⟩
    rcases h with hidle | hmax
    · rw [hidle] at hbusy
      cases hbusy
    · omega

end Runs

end InterruptCauses
end RetroCpu
