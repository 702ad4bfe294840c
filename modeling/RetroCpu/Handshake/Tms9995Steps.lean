import RetroCpu.Handshake.Monitor

/-!
# The routines of the TMS9995 monitor, access by access

Where `LDCR` and `STCR` use the right half of the register, the routines satisfy `Monitor`,
but they do not complete a half of a unit when the direction changes.
-/

namespace RetroCpu
namespace BootMonitor
namespace Tms9995

open Interleave Handshake

section Programs

variable {α : Type} {g : Unit → M α} {c : Cpu}

theorem run_modify_bind (f : Cpu → Cpu) : (modify f >>= g).run c = (g ()).run (f c) := rfl

theorem run_get_bind {g : Cpu → M α} : (get >>= g).run c = (g c).run c := rfl

theorem run_setBit (f : Bus → Bus) :
    (setBit f >>= g).run c = .access f fun _ => (g ()).run c := rfl

theorem run_ldcr : (ldcrR3 .right >>= g).run c =
    .access (dataOut (c.R3.setWidth 8)) fun _ => (g ()).run c := rfl

theorem run_stcr : (stcrR3 .right >>= g).run c = .access id fun bus =>
    (g ()).run { c with R3 := c.R3 &&& 0xff00 ||| bus.HSHK_IN_DATA.setWidth 16 } := rfl

theorem run_if_pos {m m' : M Unit} {P : Prop} {_ : Decidable P} (h : P) :
    ((if P then m else m') >>= g).run c = (m >>= g).run c := by rw [if_pos h]

theorem run_if_neg {m m' : M Unit} {P : Prop} {_ : Decidable P} (h : ¬ P) :
    ((if P then m else m') >>= g).run c = (m' >>= g).run c := by rw [if_neg h]

/-- The registers behind a loop that tests a bit. -/
def polled (c : Cpu) : Option Nat → Cpu
  | some left => { c with R0 := BitVec.ofNat 16 left, R2 := HSHK_OK }
  | none => { c with R0 := 0, R2 := HSHK_NG }

theorem run_pollBit (line : Bus → Bool) : (pollBit line >>= g).run c =
    .wait () line fun r => (g ()).run (polled c r) := by
  refine congrArg (Prog.wait () _) (funext ?_)
  rintro (_ | n) <;> rfl

theorem high_cond (line : Bus → Bool) : line = fun bus => line bus == true := by
  funext bus
  rw [beq_true]

theorem low_cond (line : Bus → Bool) : (fun bus => !line bus) = fun bus => line bus == false := by
  funext bus
  rw [beq_false]

/-- `STCR` into the right half, and `ANDI`. -/
theorem stored_byte (r : Word) (b : Byte) :
    ((r &&& 0xff00 ||| b.setWidth 16) &&& 0x00ff : Word).setWidth 8 = b := by
  apply BitVec.eq_of_getLsbD_eq
  intro i hi
  rw [BitVec.getLsbD_setWidth, BitVec.getLsbD_and, BitVec.getLsbD_or, BitVec.getLsbD_and,
    BitVec.getLsbD_setWidth]
  rcases i with _ | _ | _ | _ | _ | _ | _ | _ | i <;> first | omega | simp

theorem settles_if_neg {β : Type} {F : Pair Bus IoWait Unit β (α × Cpu) → Prop}
    {p : Prog Bus IoWait β} {bus : Bus} {m m' : M Unit} {P : Prop} {_ : Decidable P} (hP : ¬ P)
    (h : Settles F ⟨p, (m' >>= g).run c, bus⟩) :
    Settles F ⟨p, ((if P then m else m') >>= g).run c, bus⟩ := by
  rw [run_if_neg hP]
  exact h

end Programs

section Receive

variable {α : Type} {c : Cpu}

theorem recvByte_bind (g : Byte → M α) :
    (tms9995 .right).recvByte >>= g =
      g_hshk_recv_byte .right >>= fun _ => get >>= fun c => g (c.R3.setWidth 8) := by
  simp only [tms9995, bind_assoc, pure_bind]

theorem recv_first {g : Byte → M α} (h : c.pair = 0) :
    Takes true (fun c => c.pair = HSHK_PAIR_RECV) (fun b c' => (g b).run c')
      (((tms9995 .right).recvByte >>= g).run c) := by
  rw [recvByte_bind]
  unfold g_hshk_recv_byte
  simp only [bind_assoc, run_get_bind, run_modify_bind]
  rw [run_if_neg (by rw [h]; decide)]
  unfold l_hshk_recv_phase1
  simp only [bind_assoc, run_pollBit]
  rw [high_cond fun bus => bus.HSHK_IN_DENA]
  constructor
  intro n β F p bus hp hidle hnext
  rw [run_get_bind]
  refine settles_if_neg (not_not_intro rfl) ?_
  simp only [bind_assoc, run_stcr, run_modify_bind, run_setBit, run_get_bind]
  refine Settles.right_access (free_of_idle hidle) ?_
  refine Settles.right_access (free_of_idle hidle) ?_
  rw [stored_byte]
  refine hnext _ ?_
  simp only [polled, h]
  decide

theorem recv_second {g : Byte → M α} (h : c.pair = HSHK_PAIR_RECV) :
    Takes false (fun c => c.pair = 0) (fun b c' => (g b).run c')
      (((tms9995 .right).recvByte >>= g).run c) := by
  rw [recvByte_bind]
  unfold g_hshk_recv_byte
  simp only [bind_assoc, run_get_bind, run_modify_bind]
  rw [run_if_pos (by rw [h]; decide)]
  unfold l_hshk_recv_phase2
  simp only [bind_assoc, run_pollBit]
  rw [low_cond fun bus => bus.HSHK_IN_DENA]
  constructor
  intro n β F p bus hp hidle hnext
  rw [run_get_bind]
  refine settles_if_neg (not_not_intro rfl) ?_
  simp only [bind_assoc, run_stcr, run_modify_bind, run_setBit, run_get_bind]
  refine Settles.right_access (free_of_idle hidle) ?_
  refine Settles.right_access (free_of_idle hidle) ?_
  rw [stored_byte]
  refine hnext _ ?_
  simp only [polled, h]
  decide

end Receive

section Send

variable {α : Type} {g : Unit → M α} {c : Cpu}

theorem sendByte_bind (b : Byte) : ((tms9995 .right).sendByte b >>= g).run c =
    (g_hshk_send_byte .right >>= g).run { c with R2 := b.setWidth 16 } := by
  simp only [tms9995, bind_assoc, run_modify_bind]

theorem send_first (b : Byte) (h : c.pair = 0) :
    Gives true b (fun c => c.pair = HSHK_PAIR_SEND) (fun c' => (g ()).run c')
      (((tms9995 .right).sendByte b >>= g).run c) := by
  intro β F p bus hp hdata hdena hnext
  rw [sendByte_bind]
  unfold g_hshk_send_byte
  simp only [bind_assoc, run_get_bind, run_modify_bind]
  rw [run_if_neg (by rw [h]; decide)]
  unfold l_hshk_send_phase1
  simp only [bind_assoc, run_ldcr, run_setBit, run_pollBit, setWidth_byte]
  refine Settles.right_access hdata.const ?_
  refine Settles.right_access hdena.const ?_
  rw [high_cond fun bus => bus.HSHK_OUT_DACK]
  refine hnext _ ?_
  constructor
  intro n
  refine ⟨_, ?_, (run_if_neg (not_not_intro rfl)).trans rfl⟩
  simp only [polled, h]
  decide

theorem send_second (b : Byte) (h : c.pair = HSHK_PAIR_SEND) :
    Gives false b (fun c => c.pair = 0) (fun c' => (g ()).run c')
      (((tms9995 .right).sendByte b >>= g).run c) := by
  intro β F p bus hp hdata hdena hnext
  rw [sendByte_bind]
  unfold g_hshk_send_byte
  simp only [bind_assoc, run_get_bind, run_modify_bind]
  rw [run_if_pos (by rw [h]; decide)]
  unfold l_hshk_send_phase2
  simp only [bind_assoc, run_ldcr, run_setBit, run_pollBit, setWidth_byte]
  refine Settles.right_access hdata.const ?_
  refine Settles.right_access hdena.const ?_
  rw [low_cond fun bus => bus.HSHK_OUT_DACK]
  refine hnext _ ?_
  constructor
  intro n
  refine ⟨_, ?_, (run_if_neg (not_not_intro rfl)).trans rfl⟩
  simp only [polled, h]
  decide

end Send

section Ends

variable {α β : Type} {F : Pair Bus IoWait Unit β (α × Cpu) → Prop} {p : Prog Bus IoWait β}
  {g : Unit → M α} {c : Cpu} {bus : Bus}

theorem initiate (hp : Keeps cpuLines p) (hdena : bus.HSHK_OUT_DENA = false)
    (hreq : Free (reqOut true) (fun _ => ()) p bus)
    (h : ∀ c', c'.pair = 0 → Settles F ⟨p, (g ()).run c', reqOut true bus⟩) :
    Settles F ⟨p, ((tms9995 .right).initiateSend >>= g).run c, bus⟩ := by
  simp only [tms9995, g_hshk_initiate_send, bind_assoc, run_modify_bind, run_setBit]
  refine Settles.right_access (free_dena_low hp hdena).const ?_
  change Settles F ⟨p, _, denaOut false bus⟩
  rw [denaOut_low hdena]
  refine Settles.right_access hreq.const ?_
  exact h _ rfl

theorem accept (hp : Keeps cpuLines p) (hdack : bus.HSHK_IN_DACK = false)
    (h : ∀ c', c'.pair = 0 → Settles F ⟨p, (g ()).run c', bus⟩) :
    Settles F ⟨p, ((tms9995 .right).acceptRequest >>= g).run c, bus⟩ := by
  simp only [tms9995, g_hshk_accept_request, bind_assoc, run_modify_bind, run_setBit]
  refine Settles.right_access (free_dack_low hp hdack).const ?_
  change Settles F ⟨p, _, dackIn false bus⟩
  rw [dackIn_low hdack]
  exact h _ rfl

theorem finalizeSend_even (hc : c.pair = 0) (hidle : Idle p bus)
    (h : ∀ c', Settles F ⟨p, (g ()).run c', reqOut false bus⟩) :
    Settles F ⟨p, ((tms9995 .right).finalizeSend >>= g).run c, bus⟩ := by
  simp only [tms9995, g_hshk_finalize_send, bind_assoc, run_get_bind, run_modify_bind]
  rw [run_if_pos (by rw [hc]; decide)]
  simp only [bind_assoc, run_modify_bind, run_setBit]
  exact Settles.right_access (free_of_idle hidle) (h _)

theorem finalizeSend_flush (hc : c.pair = HSHK_PAIR_SEND) :
    Gives false 0 (fun c => c.pair = 0) (fun c' => ((tms9995 .right).finalizeSend >>= g).run c')
      (((tms9995 .right).finalizeSend >>= g).run c) := by
  intro β F p bus hp hdata hdena hnext
  simp only [tms9995, g_hshk_finalize_send, bind_assoc, run_get_bind, run_modify_bind]
  rw [run_if_neg (by rw [hc]; decide)]
  simp only [bind_assoc, run_modify_bind, run_ldcr, run_setBit, run_pollBit]
  refine Settles.right_access hdata.const ?_
  refine Settles.right_access hdena.const ?_
  rw [low_cond fun bus => bus.HSHK_OUT_DACK]
  refine hnext _ ?_
  constructor
  intro n
  refine ⟨{ c with R0 := BitVec.ofNat 16 n, R1 := 0, R2 := HSHK_OK, R3 := 0, pair := 0 }, rfl, ?_⟩
  refine (run_if_neg (not_not_intro rfl)).trans ?_
  simp only [tms9995, g_hshk_finalize_send, bind_assoc, run_get_bind, run_modify_bind]
  refine Eq.trans ?_ (run_if_pos BitVec.zero_and).symm
  simp only [bind_assoc, run_modify_bind, run_setBit, polled, hc]
  rfl

theorem finalizeRecv_even (hc : c.pair = 0) (h : ∀ c', Settles F ⟨p, (g ()).run c', bus⟩) :
    Settles F ⟨p, ((tms9995 .right).finalizeRecv >>= g).run c, bus⟩ := by
  simp only [tms9995, g_hshk_finalize_recv, bind_assoc, run_get_bind, run_modify_bind]
  rw [run_if_pos (by rw [hc]; decide)]
  exact h _

theorem finalizeRecv_flush (hc : c.pair = HSHK_PAIR_RECV)
    (h : ∀ q, Takes false (fun c : Cpu => c.pair = 0) (fun _ c' => (g ()).run c') q →
      Settles F ⟨p, q, bus⟩) :
    Settles F ⟨p, ((tms9995 .right).finalizeRecv >>= g).run c, bus⟩ := by
  simp only [tms9995, g_hshk_finalize_recv, bind_assoc, run_get_bind, run_modify_bind]
  rw [run_if_neg (by rw [hc]; decide)]
  simp only [bind_assoc, run_pollBit]
  refine h _ ?_
  rw [low_cond fun bus => bus.HSHK_IN_DENA]
  constructor
  intro n β' F' p' bus' hp hidle hnext
  refine settles_if_neg (not_not_intro rfl) ?_
  simp only [bind_assoc, run_modify_bind, run_setBit]
  refine Settles.right_access (free_of_idle hidle) ?_
  refine hnext _ ?_
  simp only [polled, hc]
  decide

end Ends

/-- The routines of the monitor keep to the handshake, but flush less. -/
def monitor : Monitor (tms9995 .right) where
  flushes := false
  Even c := c.pair = 0
  RecvHalf c := c.pair = HSHK_PAIR_RECV
  SendHalf c := c.pair = HSHK_PAIR_SEND
  initiate := initiate
  accept := accept
  recv_first := recv_first
  recv_second := recv_second
  recv_flush h := absurd h Bool.false_ne_true
  send_first := send_first
  send_second := send_second
  send_flush _ h := absurd h Bool.false_ne_true
  finalizeSend hs _ := finalizeSend_even hs
  finalizeSend_flush := finalizeSend_flush
  finalizeRecv hs _ _ := finalizeRecv_even hs
  finalizeRecv_flush hs _ _ := finalizeRecv_flush hs
  finalizeRecv_send h := absurd h Bool.false_ne_true

end Tms9995
end BootMonitor
end RetroCpu
