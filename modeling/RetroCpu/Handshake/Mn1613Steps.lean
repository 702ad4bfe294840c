import RetroCpu.Handshake.Monitor

/-!
# The routines of the MN1613 monitor, access by access

The routines of `handshake_common.asm` satisfy `Monitor`.  A control line is driven by
reading the port, setting a bit and writing it back; that is one access to the line because
no other program drives the lines of the port.
-/

namespace RetroCpu
namespace BootMonitor
namespace Mn1613

open Interleave Handshake

section Lines

theorem inCtrl_dena_high (bus : Bus) :
    (inCtrl bus &&& HSHK_IN_DENA_BIT == HSHK_IN_DENA_BIT) = bus.HSHK_IN_DENA := by
  unfold inCtrl
  cases bus.HSHK_IN_REQ <;> cases bus.HSHK_IN_DENA <;> cases bus.HSHK_OUT_DACK <;> decide

theorem inCtrl_dena_low (bus : Bus) :
    (inCtrl bus &&& HSHK_IN_DENA_BIT == 0) = !bus.HSHK_IN_DENA := by
  unfold inCtrl
  cases bus.HSHK_IN_REQ <;> cases bus.HSHK_IN_DENA <;> cases bus.HSHK_OUT_DACK <;> decide

theorem inCtrl_dack_high (bus : Bus) :
    (inCtrl bus &&& HSHK_OUT_DACK_BIT == HSHK_OUT_DACK_BIT) = bus.HSHK_OUT_DACK := by
  unfold inCtrl
  cases bus.HSHK_IN_REQ <;> cases bus.HSHK_IN_DENA <;> cases bus.HSHK_OUT_DACK <;> decide

theorem inCtrl_dack_low (bus : Bus) :
    (inCtrl bus &&& HSHK_OUT_DACK_BIT == 0) = !bus.HSHK_OUT_DACK := by
  unfold inCtrl
  cases bus.HSHK_IN_REQ <;> cases bus.HSHK_IN_DENA <;> cases bus.HSHK_OUT_DACK <;> decide

theorem setOutCtrl_eq {v : Word} {bus : Bus} {dena dack req : Bool}
    (hdena : decide (v &&& HSHK_OUT_DENA_BIT ≠ 0) = dena)
    (hdack : decide (v &&& HSHK_IN_DACK_BIT ≠ 0) = dack)
    (hreq : decide (v &&& HSHK_OUT_REQ_BIT ≠ 0) = req) :
    setOutCtrl v bus =
      { bus with HSHK_OUT_DENA := dena, HSHK_IN_DACK := dack, HSHK_OUT_REQ := req } := by
  rw [setOutCtrl, hdena, hdack, hreq]

theorem set_dena (bus : Bus) :
    setOutCtrl (outCtrl bus ||| HSHK_OUT_DENA_BIT) bus = denaOut true bus := by
  unfold outCtrl denaOut
  cases bus.HSHK_OUT_DENA <;> cases bus.HSHK_IN_DACK <;> cases bus.HSHK_OUT_REQ <;>
    exact setOutCtrl_eq (by decide) (by decide) (by decide)

theorem set_dack (bus : Bus) :
    setOutCtrl (outCtrl bus ||| HSHK_IN_DACK_BIT) bus = dackIn true bus := by
  unfold outCtrl dackIn
  cases bus.HSHK_OUT_DENA <;> cases bus.HSHK_IN_DACK <;> cases bus.HSHK_OUT_REQ <;>
    exact setOutCtrl_eq (by decide) (by decide) (by decide)

theorem set_req (bus : Bus) :
    setOutCtrl (outCtrl bus ||| HSHK_OUT_REQ_BIT) bus = reqOut true bus := by
  unfold outCtrl reqOut
  cases bus.HSHK_OUT_DENA <;> cases bus.HSHK_IN_DACK <;> cases bus.HSHK_OUT_REQ <;>
    exact setOutCtrl_eq (by decide) (by decide) (by decide)

theorem clr_dena (bus : Bus) :
    setOutCtrl (outCtrl bus &&& (HSHK_OUT_DENA_BIT ^^^ 0xffff)) bus = denaOut false bus := by
  unfold outCtrl denaOut
  cases bus.HSHK_OUT_DENA <;> cases bus.HSHK_IN_DACK <;> cases bus.HSHK_OUT_REQ <;>
    exact setOutCtrl_eq (by decide) (by decide) (by decide)

theorem clr_dack (bus : Bus) :
    setOutCtrl (outCtrl bus &&& (HSHK_IN_DACK_BIT ^^^ 0xffff)) bus = dackIn false bus := by
  unfold outCtrl dackIn
  cases bus.HSHK_OUT_DENA <;> cases bus.HSHK_IN_DACK <;> cases bus.HSHK_OUT_REQ <;>
    exact setOutCtrl_eq (by decide) (by decide) (by decide)

theorem clr_req (bus : Bus) :
    setOutCtrl (outCtrl bus &&& (HSHK_OUT_REQ_BIT ^^^ 0xffff)) bus = reqOut false bus := by
  unfold outCtrl reqOut
  cases bus.HSHK_OUT_DENA <;> cases bus.HSHK_IN_DACK <;> cases bus.HSHK_OUT_REQ <;>
    exact setOutCtrl_eq (by decide) (by decide) (by decide)

end Lines

section Programs

variable {α : Type} {g : Unit → M α} {c : Cpu}

theorem run_ctrl_set : (l_hshk_ctrl_set >>= g).run c = .access id fun bus =>
    .access (setOutCtrl (outCtrl bus ||| c.R0)) fun _ =>
      (g ()).run { c with R1 := c.R0, R0 := outCtrl bus ||| c.R0 } := rfl

theorem run_ctrl_clr : (l_hshk_ctrl_clr >>= g).run c = .access id fun bus =>
    .access (setOutCtrl (outCtrl bus &&& (c.R0 ^^^ 0xffff))) fun _ =>
      (g ()).run { c with R1 := c.R0 ^^^ 0xffff, R0 := outCtrl bus &&& (c.R0 ^^^ 0xffff) } := rfl

theorem run_wait_in_dena : (l_hshk_wait_in_dena >>= g).run c =
    .wait () (fun bus => inCtrl bus &&& HSHK_IN_DENA_BIT == c.R0) fun r =>
      (g ()).run { polled c r with R2 := c.R2 } := by
  refine congrArg (Prog.wait () _) (funext ?_)
  rintro (_ | n) <;> rfl

theorem run_wait_out_dack : (l_hshk_wait_out_dack >>= g).run c =
    .wait () (fun bus => inCtrl bus &&& HSHK_OUT_DACK_BIT == c.R0) fun r =>
      (g ()).run { polled c r with R2 := c.R2 } := by
  refine congrArg (Prog.wait () _) (funext ?_)
  rintro (_ | n) <;> rfl

theorem run_modify_bind (f : Cpu → Cpu) : (modify f >>= g).run c = (g ()).run (f c) := rfl

theorem run_get_bind {g : Cpu → M α} : (get >>= g).run c = (g c).run c := rfl

theorem run_wt_data {v : Word} : (wt HSHK_OUT_DATA v >>= g).run c =
    .access (fun bus => { bus with HSHK_OUT_DATA := v.setWidth 8 }) fun _ => (g ()).run c := rfl

theorem run_rd_data {g : Word → M α} : (rd HSHK_IN_DATA >>= g).run c =
    .access id fun bus => (g (bus.HSHK_IN_DATA.setWidth 16)).run c := rfl

theorem run_rd_outCtrl {g : Word → M α} : (rd HSHK_OUT_CTRL >>= g).run c =
    .access id fun bus => (g (outCtrl bus)).run c := rfl

theorem run_if_pos {m m' : M Unit} {P : Prop} {_ : Decidable P} (h : P) :
    ((if P then m else m') >>= g).run c = (m >>= g).run c := by rw [if_pos h]

theorem run_if_neg {m m' : M Unit} {P : Prop} {_ : Decidable P} (h : ¬ P) :
    ((if P then m else m') >>= g).run c = (m' >>= g).run c := by rw [if_neg h]

theorem run_flush_send_even (h : c.pair &&& HSHK_PAIR_SEND = 0) :
    (l_hshk_flush_send >>= g).run c =
      (g ()).run { c with R0 := HSHK_OK, pair := c.pair &&& HSHK_PAIR_RECV } := by
  unfold l_hshk_flush_send
  simp only [bind_assoc, run_modify_bind, run_get_bind]
  exact run_if_pos h

theorem run_flush_recv_even (h : c.pair &&& HSHK_PAIR_RECV = 0) :
    (l_hshk_flush_recv >>= g).run c = (g ()).run { c with R0 := HSHK_OK } := by
  unfold l_hshk_flush_recv
  simp only [bind_assoc, run_modify_bind, run_get_bind]
  exact run_if_pos h

end Programs

section Accesses

variable {α β : Type} {F : Pair Bus IoWait Unit β (α × Cpu) → Prop} {p : Prog Bus IoWait β}
  {g : Unit → M α} {c : Cpu} {bus : Bus} {f : Bus → Bus}

theorem outCtrl_eq {t : Bus} (h : cpuLines t = cpuLines bus) : outCtrl t = outCtrl bus := by
  simp only [cpuLines, Prod.mk.injEq] at h
  obtain ⟨hreq, hdena, hdack, -⟩ := h
  rw [outCtrl, outCtrl, hreq, hdena, hdack]

theorem settles_ctrl_set (hp : Keeps cpuLines p)
    (hf : ∀ t, setOutCtrl (outCtrl t ||| c.R0) t = f t) (hfree : Free f (fun _ => ()) p bus)
    (h : Settles F ⟨p, (g ()).run { c with R1 := c.R0, R0 := outCtrl bus ||| c.R0 }, f bus⟩) :
    Settles F ⟨p, (l_hshk_ctrl_set >>= g).run c, bus⟩ := by
  rw [run_ctrl_set]
  refine Settles.right_update hp ?_ ?_ ?_ hfree h
  · intro t ht
    rw [outCtrl_eq ht]
  · intro t ht
    rw [outCtrl_eq ht]
  · intro t ht
    rw [← outCtrl_eq ht, hf]

theorem settles_ctrl_clr (hp : Keeps cpuLines p)
    (hf : ∀ t, setOutCtrl (outCtrl t &&& (c.R0 ^^^ 0xffff)) t = f t)
    (hfree : Free f (fun _ => ()) p bus)
    (h : Settles F ⟨p, (g ()).run { c with
      R1 := c.R0 ^^^ 0xffff, R0 := outCtrl bus &&& (c.R0 ^^^ 0xffff) }, f bus⟩) :
    Settles F ⟨p, (l_hshk_ctrl_clr >>= g).run c, bus⟩ := by
  rw [run_ctrl_clr]
  refine Settles.right_update hp ?_ ?_ ?_ hfree h
  · intro t ht
    rw [outCtrl_eq ht]
  · intro t ht
    rw [outCtrl_eq ht]
  · intro t ht
    rw [← outCtrl_eq ht, hf]

theorem settles_if_neg {m m' : M Unit} {P : Prop} {_ : Decidable P} (hP : ¬ P)
    (h : Settles F ⟨p, (m' >>= g).run c, bus⟩) :
    Settles F ⟨p, ((if P then m else m') >>= g).run c, bus⟩ := by
  rw [run_if_neg hP]
  exact h

theorem settles_wt_data {v : Word} {b : Byte} (hv : v.setWidth 8 = b)
    (hfree : Free (dataOut b) (fun _ => ()) p bus)
    (h : Settles F ⟨p, (g ()).run c, dataOut b bus⟩) :
    Settles F ⟨p, (wt HSHK_OUT_DATA v >>= g).run c, bus⟩ := by
  have hrun : (wt HSHK_OUT_DATA v >>= g).run c = .access (dataOut b) fun _ => (g ()).run c := by
    rw [run_wt_data, hv]
    rfl
  rw [hrun]
  exact Settles.right_access hfree.const h

theorem settles_rd_data {g : Word → M α} (hidle : Idle p bus)
    (h : Settles F ⟨p, (g (bus.HSHK_IN_DATA.setWidth 16)).run c, bus⟩) :
    Settles F ⟨p, (rd HSHK_IN_DATA >>= g).run c, bus⟩ :=
  Settles.right_access (free_of_idle hidle) h

end Accesses

section Bytes

theorem setWidth_masked (b : Byte) : (b.setWidth 16 &&& 0x00ff : Word).setWidth 8 = b := by
  apply BitVec.eq_of_getLsbD_eq
  intro i hi
  rw [BitVec.getLsbD_setWidth, BitVec.getLsbD_and, BitVec.getLsbD_setWidth]
  rcases i with _ | _ | _ | _ | _ | _ | _ | _ | i <;> first | omega | simp

theorem dena_high : (fun bus => inCtrl bus &&& HSHK_IN_DENA_BIT == HSHK_IN_DENA_BIT) =
    fun bus => bus.HSHK_IN_DENA == true := by
  funext bus
  rw [inCtrl_dena_high, beq_true]

theorem dena_low : (fun bus => inCtrl bus &&& HSHK_IN_DENA_BIT == 0) =
    fun bus => bus.HSHK_IN_DENA == false := by
  funext bus
  rw [inCtrl_dena_low, beq_false]

theorem dack_high : (fun bus => inCtrl bus &&& HSHK_OUT_DACK_BIT == HSHK_OUT_DACK_BIT) =
    fun bus => bus.HSHK_OUT_DACK == true := by
  funext bus
  rw [inCtrl_dack_high, beq_true]

theorem dack_low : (fun bus => inCtrl bus &&& HSHK_OUT_DACK_BIT == 0) =
    fun bus => bus.HSHK_OUT_DACK == false := by
  funext bus
  rw [inCtrl_dack_low, beq_false]

end Bytes

section Receive

variable {α : Type} {c : Cpu}

theorem recvByte_bind (g : Byte → M α) :
    mn1613.recvByte >>= g =
      g_hshk_recv_byte >>= fun _ => get >>= fun c => g (c.R1.setWidth 8) := by
  simp only [mn1613, bind_assoc, pure_bind]

theorem recv_first {g : Byte → M α} (h : c.pair = 0) :
    Takes true (fun c => c.pair = HSHK_PAIR_RECV) (fun b c' => (g b).run c')
      ((mn1613.recvByte >>= g).run c) := by
  rw [recvByte_bind]
  unfold g_hshk_recv_byte
  simp only [bind_assoc, run_get_bind]
  rw [run_flush_send_even (by rw [h]; rfl), run_get_bind, run_if_neg (not_not_intro rfl)]
  simp only [bind_assoc, run_get_bind, run_modify_bind]
  rw [run_if_pos (by rw [h]; rfl)]
  unfold l_hshk_recv_1
  simp only [bind_assoc, run_get_bind, run_modify_bind, run_wait_in_dena]
  rw [dena_high]
  constructor
  intro n β F p bus hp hidle hnext
  refine settles_if_neg (not_not_intro rfl) ?_
  simp only [bind_assoc]
  refine settles_rd_data hidle ?_
  simp only [run_modify_bind]
  refine settles_ctrl_set hp set_dack (free_of_idle hidle) ?_
  simp only [run_modify_bind, run_get_bind]
  rw [setWidth_masked]
  refine hnext _ ?_
  simp only [polled, h]
  decide

theorem recv_second {g : Byte → M α} (h : c.pair = HSHK_PAIR_RECV) :
    Takes false (fun c => c.pair = 0) (fun b c' => (g b).run c')
      ((mn1613.recvByte >>= g).run c) := by
  rw [recvByte_bind]
  unfold g_hshk_recv_byte
  simp only [bind_assoc, run_get_bind]
  rw [run_flush_send_even (by rw [h]; rfl), run_get_bind, run_if_neg (not_not_intro rfl)]
  simp only [bind_assoc, run_get_bind, run_modify_bind]
  rw [run_if_neg (by rw [h]; decide)]
  unfold l_hshk_recv_2
  simp only [bind_assoc, run_get_bind, run_modify_bind, run_wait_in_dena]
  rw [dena_low]
  constructor
  intro n β F p bus hp hidle hnext
  refine settles_if_neg (not_not_intro rfl) ?_
  simp only [bind_assoc]
  refine settles_rd_data hidle ?_
  simp only [run_modify_bind]
  refine settles_ctrl_clr hp clr_dack (free_of_idle hidle) ?_
  simp only [run_modify_bind, run_get_bind]
  rw [setWidth_masked]
  refine hnext _ ?_
  simp only [polled, h]
  decide

/-- The second half of a unit is taken and dropped. -/
theorem flush_recv_half {g : Unit → M α} (h : c.pair = HSHK_PAIR_RECV) :
    Takes false (fun c' => c'.pair = 0 ∧ c'.R0 = HSHK_OK ∧ c'.R3 = c.R3)
      (fun _ c' => (g ()).run c') ((l_hshk_flush_recv >>= g).run c) := by
  unfold l_hshk_flush_recv
  simp only [bind_assoc, run_get_bind, run_modify_bind]
  rw [run_if_neg (by rw [h]; decide)]
  simp only [bind_assoc, run_get_bind, run_modify_bind, run_wait_in_dena]
  rw [dena_low]
  constructor
  intro n β F p bus hp hidle hnext
  refine settles_if_neg (not_not_intro rfl) ?_
  simp only [bind_assoc, run_modify_bind]
  refine settles_ctrl_clr hp clr_dack (free_of_idle hidle) ?_
  refine hnext _ ⟨?_, rfl, rfl⟩
  simp only [polled, h]
  decide

end Receive

section Send

variable {α : Type} {g : Unit → M α} {c : Cpu}

theorem second_half {b : Byte} (hb : c.R0.setWidth 8 = b) : Gives false b
    (· = { c with R0 := HSHK_OK, R1 := HSHK_OK, pair := c.pair &&& HSHK_PAIR_RECV })
    (fun c' => (g ()).run c') ((l_hshk_second >>= g).run c) := by
  intro β F p bus hp hdata hdena hnext
  unfold l_hshk_second
  simp only [bind_assoc, run_get_bind]
  refine settles_wt_data hb hdata ?_
  simp only [run_modify_bind]
  refine settles_ctrl_clr hp clr_dena hdena ?_
  simp only [run_modify_bind, run_wait_out_dack]
  rw [dack_low]
  refine hnext _ ?_
  constructor
  intro n
  exact ⟨_, rfl, rfl⟩

theorem flush_send_half (h : c.pair = HSHK_PAIR_SEND) : Gives false 0
    (· = { c with R0 := HSHK_OK, R1 := HSHK_OK, pair := 0 })
    (fun c' => (g ()).run c') ((l_hshk_flush_send >>= g).run c) := by
  unfold l_hshk_flush_send
  simp only [bind_assoc, run_get_bind, run_modify_bind]
  rw [run_if_neg (by rw [h]; decide)]
  simp only [bind_assoc, run_modify_bind]
  refine Gives.mono (second_half (by rfl)) ?_
  rintro _ rfl
  refine ⟨_, rfl, ?_⟩
  simp only [h]
  rfl

theorem send_1 {b : Byte} (hb : c.R3.setWidth 8 = b) (h : c.pair = 0) : Gives true b
    (· = { c with R0 := HSHK_OK, R1 := HSHK_PAIR_SEND, pair := HSHK_PAIR_SEND })
    (fun c' => (g ()).run c') ((l_hshk_send_1 >>= g).run c) := by
  intro β F p bus hp hdata hdena hnext
  unfold l_hshk_send_1
  simp only [bind_assoc, run_get_bind, run_modify_bind]
  refine settles_wt_data hb hdata ?_
  simp only [run_modify_bind]
  refine settles_ctrl_set hp set_dena hdena ?_
  simp only [run_modify_bind, run_wait_out_dack]
  rw [dack_high]
  refine hnext _ ?_
  constructor
  intro n
  refine ⟨_, rfl, ?_⟩
  refine (run_if_neg (not_not_intro rfl)).trans ?_
  simp only [bind_assoc, run_modify_bind, polled, h]
  rfl

theorem send_2 {b : Byte} (hb : c.R3.setWidth 8 = b) (h : c.pair = HSHK_PAIR_SEND) :
    Gives false b
    (· = { c with R0 := HSHK_OK, R1 := HSHK_OK, pair := 0 })
    (fun c' => (g ()).run c') ((l_hshk_send_2 >>= g).run c) := by
  unfold l_hshk_send_2
  simp only [bind_assoc, run_modify_bind]
  refine Gives.mono (second_half hb) ?_
  rintro _ rfl
  refine ⟨_, rfl, ?_⟩
  rw [run_get_bind, run_if_neg (not_not_intro rfl)]
  simp only [h]
  rfl

theorem sendByte_bind (b : Byte) : (mn1613.sendByte b >>= g).run c =
    (g_hshk_send_byte >>= g).run { c with R0 := b.setWidth 16 } := by
  simp only [mn1613, bind_assoc, run_modify_bind]

theorem send_first (b : Byte) (h : c.pair = 0) :
    Gives true b (fun c => c.pair = HSHK_PAIR_SEND) (fun c' => (g ()).run c')
      ((mn1613.sendByte b >>= g).run c) := by
  rw [sendByte_bind]
  unfold g_hshk_send_byte
  simp only [bind_assoc, run_get_bind, run_modify_bind]
  rw [run_flush_recv_even (by rw [h]; rfl), run_get_bind, run_if_neg (not_not_intro rfl)]
  simp only [bind_assoc, run_get_bind, run_modify_bind]
  rw [run_if_pos (by rw [h]; rfl)]
  rw [bind_assoc]
  refine Gives.mono (send_1 (setWidth_byte b) ?_) ?_
  · exact h
  · rintro _ rfl
    exact ⟨_, rfl, rfl⟩

theorem send_second (b : Byte) (h : c.pair = HSHK_PAIR_SEND) :
    Gives false b (fun c => c.pair = 0) (fun c' => (g ()).run c')
      ((mn1613.sendByte b >>= g).run c) := by
  rw [sendByte_bind]
  unfold g_hshk_send_byte
  simp only [bind_assoc, run_get_bind, run_modify_bind]
  rw [run_flush_recv_even (by rw [h]; rfl), run_get_bind, run_if_neg (not_not_intro rfl)]
  simp only [bind_assoc, run_get_bind, run_modify_bind]
  rw [run_if_neg (by rw [h]; decide)]
  rw [bind_assoc]
  refine Gives.mono (send_2 (setWidth_byte b) ?_) ?_
  · exact h
  · rintro _ rfl
    exact ⟨_, rfl, rfl⟩

end Send

section Turns

variable {α : Type} {c : Cpu}

/-- A half-sent unit is completed before a byte is received. -/
theorem recv_flush {g : Byte → M α} (h : c.pair = HSHK_PAIR_SEND) :
    Gives false 0 (fun c => c.pair = 0) (fun c' => (mn1613.recvByte >>= g).run c')
      ((mn1613.recvByte >>= g).run c) := by
  simp only [recvByte_bind]
  unfold g_hshk_recv_byte
  simp only [bind_assoc, run_get_bind]
  refine Gives.mono (flush_send_half h) ?_
  rintro _ rfl
  refine ⟨{ c with R0 := HSHK_OK, R1 := HSHK_OK, pair := 0 }, rfl, ?_⟩
  have hrecv : (0 : Word) &&& HSHK_PAIR_RECV = 0 := by decide
  rw [run_flush_send_even BitVec.zero_and, hrecv]

/-- A half-received unit is completed before a byte is sent. -/
theorem send_flush {g : Unit → M α} (b : Byte) (h : c.pair = HSHK_PAIR_RECV) :
    Takes false (fun c => c.pair = 0) (fun _ c' => (mn1613.sendByte b >>= g).run c')
      ((mn1613.sendByte b >>= g).run c) := by
  simp only [sendByte_bind]
  unfold g_hshk_send_byte
  simp only [bind_assoc, run_get_bind, run_modify_bind]
  refine Takes.mono (flush_recv_half h) ?_
  rintro _ c' ⟨hpair, hok, hdata⟩
  refine ⟨{ c' with R3 := c.R3 }, hpair, ?_⟩
  rw [run_flush_recv_even (by rw [hpair]; rfl)]
  rcases c' with ⟨R0, R1, R2, R3, R4, TSR0, pair, mem, ports, events⟩
  cases hok
  cases hdata
  rfl

end Turns

section Ends

variable {α β : Type} {F : Pair Bus IoWait Unit β (α × Cpu) → Prop} {p : Prog Bus IoWait β}
  {g : Unit → M α} {c : Cpu} {bus : Bus}

theorem initiate (hp : Keeps cpuLines p) (hdena : bus.HSHK_OUT_DENA = false)
    (hreq : Free (reqOut true) (fun _ => ()) p bus)
    (h : ∀ c', c'.pair = 0 → Settles F ⟨p, (g ()).run c', reqOut true bus⟩) :
    Settles F ⟨p, (mn1613.initiateSend >>= g).run c, bus⟩ := by
  have houtCtrl : ∀ t, cpuLines t = cpuLines bus → outCtrl t = outCtrl bus := fun t => outCtrl_eq
  have hlow : outCtrl bus &&& HSHK_OUT_DENA_BIT = 0 := by
    unfold outCtrl
    rw [hdena]
    cases bus.HSHK_IN_DACK <;> cases bus.HSHK_OUT_REQ <;> decide
  simp only [mn1613, g_hshk_initiate_send, l_hshk_pair_reset, g_hshk_wait_ena_delay, bind_assoc,
    run_modify_bind, run_rd_outCtrl]
  refine Settles.right_own hp (fun _ _ => rfl) ?_ ?_
  · intro t t' ht ht'
    simp only [houtCtrl t ht, houtCtrl t' ht']
  · simp only [run_get_bind]
    rw [run_if_neg (not_not_intro hlow)]
    simp only [bind_assoc, run_modify_bind]
    refine settles_ctrl_clr hp clr_dena (free_dena_low hp hdena) ?_
    rw [denaOut_low hdena]
    simp only [run_modify_bind]
    refine settles_ctrl_set hp set_req hreq ?_
    simp only [run_modify_bind]
    exact h _ rfl

theorem accept (hp : Keeps cpuLines p) (hdack : bus.HSHK_IN_DACK = false)
    (h : ∀ c', c'.pair = 0 → Settles F ⟨p, (g ()).run c', bus⟩) :
    Settles F ⟨p, (mn1613.acceptRequest >>= g).run c, bus⟩ := by
  simp only [mn1613, g_hshk_accept_request, l_hshk_pair_reset, bind_assoc, run_modify_bind]
  refine settles_ctrl_clr hp clr_dack (free_dack_low hp hdack) ?_
  rw [dackIn_low hdack]
  simp only [run_modify_bind]
  exact h _ rfl

theorem finalizeSend_even (hc : c.pair = 0) (hp : Keeps cpuLines p) (hidle : Idle p bus)
    (h : ∀ c', Settles F ⟨p, (g ()).run c', reqOut false bus⟩) :
    Settles F ⟨p, (mn1613.finalizeSend >>= g).run c, bus⟩ := by
  simp only [mn1613, g_hshk_finalize_send, bind_assoc]
  rw [run_flush_send_even (by rw [hc]; rfl)]
  simp only [run_get_bind, run_modify_bind]
  refine settles_ctrl_clr hp clr_req (free_of_idle hidle) ?_
  simp only [run_modify_bind]
  exact h _

theorem finalizeSend_flush (hc : c.pair = HSHK_PAIR_SEND) :
    Gives false 0 (fun c => c.pair = 0) (fun c' => (mn1613.finalizeSend >>= g).run c')
      ((mn1613.finalizeSend >>= g).run c) := by
  simp only [mn1613, g_hshk_finalize_send, bind_assoc]
  refine Gives.mono (flush_send_half hc) ?_
  rintro _ rfl
  refine ⟨{ c with R0 := HSHK_OK, R1 := HSHK_OK, pair := 0 }, rfl, ?_⟩
  have hrecv : (0 : Word) &&& HSHK_PAIR_RECV = 0 := by decide
  rw [run_flush_send_even BitVec.zero_and, hrecv]

theorem finalizeRecv_even (hc : c.pair = 0) (hp : Keeps cpuLines p)
    (hdena : bus.HSHK_OUT_DENA = false) (h : ∀ c', Settles F ⟨p, (g ()).run c', bus⟩) :
    Settles F ⟨p, (mn1613.finalizeRecv >>= g).run c, bus⟩ := by
  simp only [mn1613, g_hshk_finalize_recv, bind_assoc, run_modify_bind]
  refine settles_ctrl_clr hp clr_dena (free_dena_low hp hdena) ?_
  have hzero : (0 &&& HSHK_PAIR_RECV : Word) &&& HSHK_PAIR_RECV = 0 := by decide
  rw [denaOut_low hdena, run_flush_send_even (by rw [hc]; rfl),
    run_flush_recv_even (by rw [hc]; exact hzero), run_modify_bind]
  exact h _

theorem finalizeRecv_flush (hc : c.pair = HSHK_PAIR_RECV) (hp : Keeps cpuLines p)
    (hdena : bus.HSHK_OUT_DENA = false)
    (h : ∀ q, Takes false (fun c : Cpu => c.pair = 0) (fun _ c' => (g ()).run c') q →
      Settles F ⟨p, q, bus⟩) :
    Settles F ⟨p, (mn1613.finalizeRecv >>= g).run c, bus⟩ := by
  simp only [mn1613, g_hshk_finalize_recv, bind_assoc, run_modify_bind]
  refine settles_ctrl_clr hp clr_dena (free_dena_low hp hdena) ?_
  rw [denaOut_low hdena, run_flush_send_even (by rw [hc]; rfl)]
  refine h _ (Takes.mono (flush_recv_half (by rw [hc]; rfl)) ?_)
  rintro _ c' ⟨hpair, hok, -⟩
  refine ⟨c', hpair, ?_⟩
  rw [run_modify_bind]
  rcases c' with ⟨R0, R1, R2, R3, R4, TSR0, pair, mem, ports, events⟩
  cases hok
  rfl

theorem finalizeRecv_send (hc : c.pair = HSHK_PAIR_SEND) (hp : Keeps cpuLines p)
    (hidle : Idle p bus)
    (h : ∀ q, Gives false 0 (fun c : Cpu => c.pair = 0) (fun c' => (g ()).run c') q →
      Settles F ⟨p, q, denaOut false bus⟩) :
    Settles F ⟨p, (mn1613.finalizeRecv >>= g).run c, bus⟩ := by
  simp only [mn1613, g_hshk_finalize_recv, bind_assoc, run_modify_bind]
  refine settles_ctrl_clr hp clr_dena (free_of_idle hidle) ?_
  refine h _ (Gives.mono (flush_send_half hc) ?_)
  rintro _ rfl
  refine ⟨_, ?_, (run_flush_recv_even BitVec.zero_and).trans (run_modify_bind _)⟩
  rfl

end Ends

/-- The routines of the monitor keep to the handshake. -/
def monitor : Monitor mn1613 where
  flushes := true
  Even c := c.pair = 0
  RecvHalf c := c.pair = HSHK_PAIR_RECV
  SendHalf c := c.pair = HSHK_PAIR_SEND
  initiate := initiate
  accept := accept
  recv_first := recv_first
  recv_second := recv_second
  recv_flush _ := recv_flush
  send_first := send_first
  send_second := send_second
  send_flush b _ := send_flush b
  finalizeSend := finalizeSend_even
  finalizeSend_flush := finalizeSend_flush
  finalizeRecv := finalizeRecv_even
  finalizeRecv_flush := finalizeRecv_flush
  finalizeRecv_send _ := finalizeRecv_send

end Mn1613
end BootMonitor
end RetroCpu
