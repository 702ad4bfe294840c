import RetroCpu.Handshake.Turns
import RetroCpu.Handshake.Mn1613Steps
import RetroCpu.Handshake.Tms9995Steps

/-!
# Whole scripts of sessions

Between two sessions one side may be ahead of the other.  `Leaving` lists what the I/O board
may still have to do; the processor can request a session of its own meanwhile, but not
directly behind another one of its own.
-/

namespace RetroCpu
namespace Handshake

open Interleave

section Scripts

/-- A session with the bytes that the handshake can carry: `flushes` says whether a half of a
unit is completed when the direction changes. -/
def Session.Carried (flushes : Bool) : Session → Prop
  | .fromCpu data => data ≠ []
  | .toCpu _ turns =>
      turns ≠ [] ∧ Alternate .toCpu turns ∧ (flushes = true ∨ WholeUnits turns)

def Session.IsFromCpu : Session → Prop
  | .fromCpu _ => True
  | .toCpu _ _ => False

/-- No session of the processor comes directly behind another one of its own. -/
def Apart : List Session → Prop
  | [] | [_] => True
  | session :: next :: script =>
      (session.IsFromCpu → ¬ next.IsFromCpu) ∧ Apart (next :: script)

end Scripts

section Restful

variable {α : Type} {g : Unit → Io α} {bus : Bus}

/-- What the program does on its own neither acknowledges anything nor looks at the data of
the processor. -/
structure Restful (p : Prog Bus IoWait (Except String α)) (bus : Bus) : Prop where
  stable : Stable (fun bus => bus.HSHK_OUT_DACK == false) p bus
  data : Free (dataOut 0) (fun _ => ()) p bus

theorem restful_of_idle {p : Prog Bus IoWait (Except String α)} (h : Idle p bus) :
    Restful p bus := ⟨stable_of_idle h, free_of_idle h⟩

theorem restful_drive {f : Bus → Bus} (hdack : (f bus).HSHK_OUT_DACK = false)
    (hdata : dataOut 0 (f bus) = f (dataOut 0 bus)) (h : Restful (g ()).run (f bus)) :
    Restful (drive f >>= g).run bus := by
  have hlow : ((f bus).HSHK_OUT_DACK == false) = true := by
    rw [hdack]
    rfl
  exact ⟨⟨hlow, h.stable⟩, free_drive hdata h.data⟩

theorem restful_wait {name : IoWait} {c : Bus → Bool} (hdata : c (dataOut 0 bus) = c bus)
    (h : Restful (g ()).run bus) : Restful (wait name c >>= g).run bus :=
  ⟨fun _ _ => h.stable, free_wait (fun hc => hdata.trans hc) fun _ => h.data⟩

theorem restful_transferBytes {data : List Byte} (hdata : data ≠ []) {outReq inReq : Bool}
    (hb : Calm outReq inReq bus) : Restful (transferBytesToCpu data >>= g).run bus := by
  have hunit : ∀ (b0 b1 : Byte) (g : Unit → Io α),
      Restful (transferUnitToCpu b0 b1 >>= g).run bus := by
    intro b0 b1 g
    rw [transferUnitToCpu_eq]
    simp only [bind_assoc]
    refine restful_drive hb.outDack rfl ?_
    refine restful_drive hb.outDack rfl ?_
    exact restful_of_idle (idle_transferSecond hb.inDack)
  rcases data with _ | ⟨b0, _ | ⟨b1, data⟩⟩
  · exact absurd rfl hdata
  · exact hunit b0 0 g
  · simp only [transferBytesToCpu, bind_assoc]
    exact hunit b0 b1 _

theorem restful_initiateSend {raiseIrq : Bool} {inReq : Bool} (hb : Calm false inReq bus)
    (h : ∀ bus', Calm false true bus' → Restful (g ()).run bus') :
    Restful (initiateSend raiseIrq >>= g).run bus := by
  have hnext := h { bus with
    HSHK_IN_DENA := false, INT_CAUSE := INT_CAUSE_HANDSHAKE, HSHK_IN_REQ := true }
    ⟨hb.free, hb.outReq, hb.outDena, hb.outDack, rfl, rfl, hb.inDack⟩
  cases raiseIrq with
  | false =>
      simp only [initiateSend, Bool.not_false, if_true, bind_assoc]
      refine restful_wait (by rfl) ?_
      refine restful_drive hb.outDack rfl ?_
      refine restful_drive hb.outDack rfl ?_
      refine restful_drive hb.outDack rfl ?_
      exact restful_wait (by rfl) hnext
  | true =>
      simp only [initiateSend, Bool.not_true, Bool.false_eq_true, if_false, bind_assoc]
      refine restful_wait (by rfl) ?_
      refine restful_drive hb.outDack rfl ?_
      refine restful_drive hb.outDack rfl ?_
      exact restful_drive hb.outDack rfl hnext

theorem restful_script {script : List Session} {g : List (List Byte) → Io α} {inReq : Bool}
    {flushes : Bool} (hscript : ∀ session ∈ script, session.Carried flushes)
    (hdone : ∀ received bus, Idle (g received).run bus) (hb : Calm false inReq bus) :
    Restful (ioScript script >>= g).run bus := by
  cases script with
  | nil => exact restful_of_idle (hdone [] bus)
  | cons session script =>
      have hcarried := hscript session List.mem_cons_self
      cases session with
      | fromCpu data =>
          simp only [ioScript, ioSession, waitForCpuRequest, bind_assoc]
          exact restful_of_idle (idle_io_wait hb.outReq)
      | toCpu raiseIrq turns =>
          obtain ⟨hne, halt, -⟩ := hcarried
          obtain ⟨⟨direction, data⟩, turns, rfl⟩ := List.exists_cons_of_ne_nil hne
          obtain ⟨rfl, hdata, -⟩ := halt
          simp only [ioScript, ioSession, bind_assoc]
          refine restful_initiateSend hb ?_
          intro bus' hb'
          simp only [ioTurns, bind_assoc]
          exact restful_transferBytes hdata hb'

end Restful

section Leaves

variable {α β : Type} {F : Pair Bus IoWait Unit (Except String α) β → Prop}
  {q : Prog Bus Unit β} {bus : Bus}

theorem restful_finalizeSend {g : Unit → Io α} (hb : Calm false true bus)
    (h : ∀ bus', Calm false false bus' → Restful (g ()).run bus') :
    Restful (finalizeSend >>= g).run bus := by
  simp only [finalizeSend, bind_assoc]
  refine restful_wait (by rfl) ?_
  refine restful_drive hb.outDack rfl ?_
  exact h _ ⟨hb.free, hb.outReq, hb.outDena, hb.outDack, rfl, hb.inDena, hb.inDack⟩

/-- What the I/O board may still have to do when the processor has ended a session: the
request of the board may still be up, and the session may have been one of the processor. -/
inductive Leaving : (inReq fromCpu : Bool) → Io Unit → Prop
  | start : Leaving false false (pure ())
  | send : Leaving true false finalizeSend
  | unit : Leaving true false (lastDack >>= fun _ => finalizeSend)
  | receive : Leaving false true finalizeReceive

variable {inReq fromCpu : Bool} {leave : Io Unit}

theorem Leaving.keeps (h : Leaving inReq fromCpu leave) : Keeps cpuLines leave.run := by
  cases h with
  | start => trivial
  | send => exact keeps_finalizeSend
  | unit => exact keeps_bind keeps_wait fun _ => keeps_finalizeSend
  | receive => exact keeps_wait

theorem settles_finalizeSend {g : Unit → Io α} (hb : Calm false true bus)
    (hq : ∀ t : Bus, t.HSHK_IN_DENA = false → Idle q t)
    (h : ∀ bus', Calm false false bus' → Settles F ⟨(g ()).run, q, bus'⟩) :
    Settles F ⟨(finalizeSend >>= g).run, q, bus⟩ := by
  have hdack : (!bus.HSHK_IN_DACK) = true := by
    rw [hb.inDack]
    rfl
  simp only [finalizeSend, bind_assoc]
  refine settles_wait hdack (stable_of_idle (hq _ hb.inDena)) ?_
  refine settles_drive (free_of_idle (hq _ hb.inDena)) ?_
  exact h _ ⟨hb.free, hb.outReq, hb.outDena, hb.outDack, rfl, hb.inDena, hb.inDack⟩

/-- While the processor waits, the I/O board ends the session. -/
theorem Leaving.alone {g : Unit → Io α} (hleave : Leaving inReq fromCpu leave)
    (hb : Calm false inReq bus) (hq : ∀ t : Bus, t.HSHK_IN_DENA = false → Idle q t)
    (h : ∀ bus', Calm false false bus' → Settles F ⟨(g ()).run, q, bus'⟩) :
    Settles F ⟨(leave >>= g).run, q, bus⟩ := by
  cases hleave with
  | start => exact h bus hb
  | send => exact settles_finalizeSend hb hq h
  | unit =>
      have hdack : (!bus.HSHK_IN_DACK) = true := by
        rw [hb.inDack]
        rfl
      simp only [bind_assoc]
      refine settles_wait hdack (stable_of_idle (hq _ hb.inDena)) ?_
      exact settles_finalizeSend hb hq h
  | receive =>
      have hreq : (!bus.HSHK_OUT_REQ) = true := by
        rw [hb.outReq]
        rfl
      exact settles_wait hreq (stable_of_idle (hq _ hb.inDena)) (h bus hb)

theorem settles_initiateSend {raiseIrq : Bool} {g : Unit → Io α} (hb : Calm false false bus)
    (hq : ∀ t : Bus, t.HSHK_IN_DENA = false → Idle q t)
    (h : ∀ bus', Calm false true bus' → Settles F ⟨(g ()).run, q, bus'⟩) :
    Settles F ⟨(initiateSend raiseIrq >>= g).run, q, bus⟩ := by
  have hnext := h { bus with
    HSHK_IN_DENA := false, INT_CAUSE := INT_CAUSE_HANDSHAKE, HSHK_IN_REQ := true }
    ⟨hb.free, hb.outReq, hb.outDena, hb.outDack, rfl, rfl, hb.inDack⟩
  have hinReq : (!bus.HSHK_IN_REQ) = true := by
    rw [hb.inReq]
    rfl
  have houtReq : (!bus.HSHK_OUT_REQ) = true := by
    rw [hb.outReq]
    rfl
  have hfree : (!bus.INTERRUPT_BUSY && !bus.HSHK_OUT_REQ && !bus.HSHK_IN_REQ) = true := by
    rw [hb.free, hb.outReq, hb.inReq]
    rfl
  cases raiseIrq with
  | false =>
      simp only [initiateSend, Bool.not_false, if_true, bind_assoc]
      refine settles_wait hinReq (stable_of_idle (hq _ hb.inDena)) ?_
      refine settles_drive (free_of_idle (hq _ hb.inDena)) ?_
      refine settles_drive (free_of_idle (hq _ rfl)) ?_
      refine settles_drive (free_of_idle (hq _ rfl)) ?_
      exact settles_wait houtReq (stable_of_idle (hq _ rfl)) hnext
  | true =>
      simp only [initiateSend, Bool.not_true, Bool.false_eq_true, if_false, bind_assoc]
      refine settles_wait hfree (stable_of_idle (hq _ hb.inDena)) ?_
      refine settles_drive (free_of_idle (hq _ hb.inDena)) ?_
      refine settles_drive (free_of_idle (hq _ rfl)) ?_
      exact settles_drive (free_of_idle (hq _ rfl)) hnext

/-- The I/O board comes to `r` on its own when the processor requests a session. -/
structure Requests (p r : Prog Bus IoWait (Except String α)) (bus : Bus) : Prop where
  dack : bus.HSHK_OUT_DACK = false
  req : Free (reqOut true) (fun _ => ()) p bus
  awaits : Awaits p r true false (reqOut true bus)

theorem requests_wait {name : IoWait} {g : Unit → Io α} {r : Prog Bus IoWait (Except String α)}
    (hdack : bus.HSHK_IN_DACK = false) (h : Requests (g ()).run r bus) :
    Requests (wait name (fun bus => !bus.HSHK_IN_DACK) >>= g).run r bus where
  dack := h.dack
  req := free_wait (fun hc => hc) fun _ => h.req
  awaits :=
    { data := fun b => free_wait (fun hc => hc) fun _ => h.awaits.data b
      dena := fun b => free_wait (fun hc => hc) fun _ => h.awaits.dena b
      run := by
        intro β F q b hq hnext
        have hlow : (!bus.HSHK_IN_DACK) = true := by
          rw [hdack]
          rfl
        exact settles_wait hlow (stable_of_idle (hq _ h.dack)) (h.awaits.run b hq hnext) }

theorem requests_drive {g : Unit → Io α} {r : Prog Bus IoWait (Except String α)}
    (h : Requests (g ()).run r { bus with HSHK_IN_REQ := false }) :
    Requests (drive (fun bus => { bus with HSHK_IN_REQ := false }) >>= g).run r bus where
  dack := h.dack
  req := free_drive rfl h.req
  awaits :=
    { data := fun b => free_drive rfl (h.awaits.data b)
      dena := fun b => free_drive rfl (h.awaits.dena b)
      run := by
        intro β F q b hq hnext
        exact settles_drive (free_of_idle (hq _ h.dack)) (h.awaits.run b hq hnext) }

theorem requests_waitForCpuRequest {k : Unit → Io α} (hb : Calm false false bus)
    (hk : ∀ t : Bus, t.HSHK_OUT_DENA = false → Idle (k ()).run t) :
    Requests (waitForCpuRequest >>= k).run (k ()).run bus := by
  have hcalm : Calm true false { reqOut true bus with HSHK_OUT_DACK := false } :=
    ⟨hb.free, rfl, hb.outDena, rfl, hb.inReq, hb.inDena, hb.inDack⟩
  simp only [waitForCpuRequest, bind_assoc]
  refine ⟨hb.outDack, free_blocked hb.outReq, ?_, ?_, ?_⟩
  · intro b
    refine free_wait (fun hc => hc) fun _ => free_drive rfl ?_
    exact free_of_idle (hk _ hb.outDena)
  · intro b
    refine free_wait (fun hc => hc) fun _ => free_drive rfl ?_
    exact free_of_idle (hk _ hb.outDena)
  · intro β F q b hq hnext
    refine settles_wait rfl (stable_of_idle (hq _ hb.outDack)) ?_
    exact settles_drive (free_of_idle (hq _ hb.outDack)) (hnext _ hcalm)

theorem Leaving.requests {k : Unit → Io α} (hleave : Leaving inReq false leave)
    (hb : Calm false inReq bus)
    (hk : ∀ t : Bus, t.HSHK_OUT_DENA = false → Idle (k ()).run t) :
    Requests (leave >>= fun _ => waitForCpuRequest >>= k).run (k ()).run bus := by
  have hend : Calm false false { bus with HSHK_IN_REQ := false } :=
    ⟨hb.free, hb.outReq, hb.outDena, hb.outDack, rfl, hb.inDena, hb.inDack⟩
  cases hleave with
  | start => exact requests_waitForCpuRequest hb hk
  | send =>
      simp only [finalizeSend, bind_assoc]
      exact requests_wait hb.inDack (requests_drive (requests_waitForCpuRequest hend hk))
  | unit =>
      simp only [lastDack, finalizeSend, bind_assoc]
      refine requests_wait hb.inDack (requests_wait hb.inDack (requests_drive ?_))
      exact requests_waitForCpuRequest hend hk

end Leaves

section Ends

variable {S α γ : Type} {cpu : CpuSide S} (M : Monitor cpu)
  {F : Pair Bus IoWait Unit (Except String α) (γ × S) → Prop} {g : Unit → Io α}
  {f : Unit → StateT S (Prog Bus Unit) γ}

/-- The turns end with the end of the session. -/
theorem turnsEnd_finalize (hg : ∀ a, Keeps cpuLines (g a).run)
    (hrest : ∀ bus, Calm false true bus → Restful (finalizeSend >>= g).run bus)
    (hunit : ∀ s bus, Calm false true bus →
      Settles F ⟨(lastDack >>= fun _ => finalizeSend >>= g).run, (f ()).run s, bus⟩)
    (hsend : ∀ s bus, Calm false true bus →
      Settles F ⟨(finalizeSend >>= g).run, (f ()).run s, bus⟩) :
    TurnsEnd M F false true (finalizeSend >>= g) (cpu.finalizeRecv >>= f) := by
  have hkeeps : Keeps cpuLines (finalizeSend >>= g).run := keeps_bind keeps_finalizeSend hg
  have hanswered : ∀ (q : Prog Bus Unit (γ × S)) (bus : Bus), Calm false true bus →
      Waits (fun bus => bus.HSHK_OUT_DACK == false) (fun t => ∀ bus', Calm false true bus' →
        Settles F ⟨(finalizeSend >>= g).run, t, bus'⟩) q →
      Settles F ⟨(finalizeSend >>= g).run, q, bus⟩ := by
    intro q bus hb hq
    refine Settles.right_waits hq ?_ (hrest bus hb).stable fun t ht => ht bus hb
    rw [hb.outDack]
    rfl
  constructor
  · exact hkeeps
  · intro s bus hs hb
    exact M.finalizeRecv hs (keeps_bind keeps_wait fun _ => hkeeps) hb.outDena fun s' =>
      hunit s' bus hb
  · intro s b bus hs hb
    refine M.finalizeRecv_flush hs (keeps_bind (keeps_transferSecond 0) fun _ => hkeeps)
      hb.outDena ?_
    intro q hq
    exact settles_second_to M (fun _ => hkeeps) hb hq fun s' bus' _ hb' => hunit s' bus' hb'
  · intro q bus hq hb
    refine hanswered q bus hb (Waits.mono hq ?_)
    rintro t ⟨s, hs, rfl⟩ bus' hb'
    exact M.finalizeRecv hs hkeeps hb'.outDena fun s' => hsend s' bus' hb'
  · intro hflush s b bus hs hb
    have hkeeps' := keeps_bind (keeps_receiveSecond b) fun _ => hkeeps
    refine M.finalizeRecv_send hflush hs hkeeps' (idle_receiveSecond rfl) ?_
    intro q hq
    have hcalm : ∀ d : Byte, Calm false true { bus with
        HSHK_OUT_DATA := d
        HSHK_OUT_DENA := false
        HSHK_OUT_DACK := false } := fun d =>
      ⟨hb.free, hb.outReq, rfl, rfl, hb.inReq, hb.inDena, hb.inDack⟩
    refine hq hkeeps' ?_ (free_dena_low hkeeps' rfl) ?_
    · -- the pad is dropped, so that its value does not matter
      simp only [receiveSecond, bind_assoc, pure_bind]
      refine free_wait (fun hc => hc) fun _ => ⟨rfl, rfl, rfl, ?_⟩
      exact free_drive rfl (hrest _ (hcalm b)).data
    · intro q' hq'
      have hwaits : ∀ t : Bus, t.HSHK_OUT_DACK = true → Idle q' t := by
        intro t ht
        refine Waits.idle hq' ?_
        rw [ht]
        rfl
      simp only [receiveSecond, bind_assoc, pure_bind]
      refine settles_wait rfl (stable_of_idle (hwaits _ rfl)) ?_
      refine settles_sample (hwaits _ rfl) ?_
      refine settles_drive (free_of_idle (hwaits _ rfl)) ?_
      refine hanswered q' _ (hcalm 0) (Waits.mono hq' ?_)
      rintro t ⟨s', hs', rfl⟩ bus' hb'
      exact hsend s' bus' hb'

end Ends

section Runs

variable {S α γ : Type} {cpu : CpuSide S} (M : Monitor cpu)
  {F : Pair Bus IoWait Unit (Except String α) (γ × S) → Prop}

/-- A script comes to its end with what was sent, whatever a session before it has left. -/
theorem settles_script (script : List Session)
    (hscript : ∀ session ∈ script, session.Carried M.flushes) (hapart : Apart script)
    {inReq fromCpu : Bool} {leave : Io Unit} (hleave : Leaving inReq fromCpu leave)
    (hfirst : fromCpu = true → ∀ session ∈ script.head?, ¬ session.IsFromCpu)
    {g : List (List Byte) → Io α} {f : List (List Byte) → StateT S (Prog Bus Unit) γ} {s : S}
    {bus : Bus} (hb : Calm false inReq bus) (hg : ∀ received, Keeps cpuLines (g received).run)
    (hgdone : ∀ received bus, Idle (g received).run bus)
    (hfdone : ∀ received s bus, Idle ((f received).run s) bus)
    (hend : ∀ s bus, Calm false false bus →
      Settles F ⟨(g (sent .fromCpu script)).run, (f (sent .toCpu script)).run s, bus⟩) :
    Settles F ⟨(leave >>= fun _ => ioScript script >>= g).run, (cpuScript cpu script >>= f).run s,
      bus⟩ := by
  induction script generalizing inReq fromCpu leave g f s bus with
  | nil => exact hleave.alone hb (fun t _ => hfdone [] s t) fun bus' hb' => hend s bus' hb'
  | cons session script ih =>
      have hcarried := hscript session List.mem_cons_self
      have hscript' : ∀ session ∈ script, session.Carried M.flushes := fun next hnext =>
        hscript next (List.mem_cons_of_mem _ hnext)
      have hapart' : Apart script := by
        cases script with
        | nil => trivial
        | cons next script => exact hapart.2
      have hkeeps : ∀ received, Keeps cpuLines
          (ioScript script >>= fun rest => g (received ++ rest)).run := fun received =>
        keeps_bind (keeps_ioScript script) fun _ => hg _
      cases session with
      | fromCpu data =>
          have hfalse : fromCpu = false := by
            cases fromCpu with
            | false => rfl
            | true => exact absurd trivial (hfirst rfl _ rfl)
          subst hfalse
          obtain ⟨n, hn⟩ : ∃ n, data.length = n + 1 :=
            Nat.exists_eq_succ_of_ne_zero (mt List.length_eq_zero_iff.mp hcarried)
          simp only [ioScript, ioSession, cpuScript, cpuSession, bind_assoc, pure_bind]
          have hend' : Keeps cpuLines (finalizeReceive >>= fun _ =>
              ioScript script >>= fun rest => g ([data] ++ rest)).run :=
            keeps_bind keeps_wait fun _ => hkeeps _
          have hkeeps' : ∀ received, Keeps cpuLines (finalizeReceive >>= fun _ =>
              ioScript script >>= fun rest => g ([received] ++ rest)).run := fun _ =>
            keeps_bind keeps_wait fun _ => hkeeps _
          -- both sides are at the end of the bytes
          have hanswered : ∀ (q : Prog Bus Unit (γ × S)) (bus' : Bus),
              Answered false M.Even (fun s' => (cpu.finalizeSend >>= fun _ =>
                cpuScript cpu script >>= fun rest => f ([] ++ rest)).run s') q →
              Calm true false bus' →
              Settles F ⟨(finalizeReceive >>= fun _ =>
                ioScript script >>= fun rest => g ([data] ++ rest)).run, q, bus'⟩ := by
            intro q bus' hq hb'
            have hblocked : Idle (finalizeReceive >>= fun _ =>
                ioScript script >>= fun rest => g ([data] ++ rest)).run bus' := by
              refine idle_io_wait ?_
              rw [hb'.outReq]
              rfl
            refine Settles.right_waits hq ?_ (stable_of_idle hblocked) ?_
            · rw [hb'.outDack]
              rfl
            · rintro t ⟨s', hs', rfl⟩
              refine M.finalizeSend hs' hend' hblocked ?_
              intro s''
              refine ih hscript' hapart' Leaving.receive ?_ ?_ (fun _ => hg _)
                (fun _ _ => hgdone _ _) (fun _ _ _ => hfdone _ _ _) hend
              · intro _ next hnext
                cases script with
                | nil => cases hnext
                | cons first script =>
                    cases hnext
                    exact hapart.1 trivial
              · exact ⟨hb'.free, rfl, hb'.outDena, hb'.outDack, hb'.inReq, hb'.inDena, hb'.inDack⟩
          have hrequests := hleave.requests (k := fun _ => receiveBytesFromCpu data.length >>=
              fun received => finalizeReceive >>= fun _ =>
                ioScript script >>= fun rest => g ([received] ++ rest)) hb (by
            intro t ht
            rw [hn]
            exact idle_receiveBytes ht)
          have hwhole := keeps_bind hleave.keeps fun _ => keeps_bind keeps_waitForCpuRequest
            fun _ => keeps_bind (keeps_receiveBytesFromCpu data.length) hkeeps'
          refine M.initiate hwhole hb.outDena hrequests.req ?_
          intro s' hs'
          refine settles_bytes_from M hkeeps' data hcarried ?_ ?_ hwhole hrequests.awaits hs'
          · exact fun _ q bus' hq hb' => hanswered q bus' hq hb'
          · intro _ b s'' bus' hs'' hb'
            refine settles_second_from M (fun _ => hend') hb' (M.finalizeSend_flush hs'') ?_
            exact fun q bus'' hq hb'' => hanswered q bus'' hq hb''
      | toCpu raiseIrq turns =>
          obtain ⟨hne, halt, hwhole⟩ := hcarried
          simp only [ioScript, ioSession, cpuScript, cpuSession, bind_assoc, pure_bind]
          have hrest : ∀ received bus', Calm false true bus' →
              Restful (finalizeSend >>= fun _ =>
                ioScript script >>= fun rest => g (received ++ rest)).run bus' := by
            intro received bus' hb'
            refine restful_finalizeSend hb' ?_
            intro bus'' hb''
            exact restful_script hscript' (fun _ _ => hgdone _ _) hb''
          have hturns : TurnsEnd M F false true
              (finalizeSend >>= fun _ => ioScript script >>= fun rest =>
                g (turnsSent .fromCpu turns ++ rest))
              (cpu.finalizeRecv >>= fun _ => cpuScript cpu script >>= fun rest =>
                f (turnsSent .toCpu turns ++ rest)) := by
            refine turnsEnd_finalize M (fun _ => hkeeps _) (hrest _) ?_ ?_
            · intro s' bus' hb'
              have hsettles := ih hscript' hapart' Leaving.unit (fun h => by cases h) hb'
                (fun rest => hg (turnsSent .fromCpu turns ++ rest)) (fun _ _ => hgdone _ _)
                (fun rest s t => hfdone (turnsSent .toCpu turns ++ rest) s t) (s := s') hend
              simpa only [bind_assoc] using hsettles
            · intro s' bus' hb'
              exact ih hscript' hapart' Leaving.send (fun h => by cases h) hb'
                (fun rest => hg (turnsSent .fromCpu turns ++ rest)) (fun _ _ => hgdone _ _)
                (fun rest s t => hfdone (turnsSent .toCpu turns ++ rest) s t) hend
          have hafter : ∀ received, Keeps cpuLines (finalizeSend >>= fun _ =>
              ioScript script >>= fun rest => g (received ++ rest)).run := fun received =>
            keeps_bind keeps_finalizeSend fun _ => hkeeps received
          refine M.accept ?_ hb.inDack ?_
          · exact keeps_bind hleave.keeps fun _ => keeps_bind (keeps_initiateSend raiseIrq)
              fun _ => keeps_bind (keeps_ioTurns turns) hafter
          intro s' hs'
          -- the processor waits for the first byte
          have hidle : ∀ t : Bus, t.HSHK_IN_DENA = false → Idle ((cpuTurns cpu turns >>=
              fun received => cpu.finalizeRecv >>= fun _ => cpuScript cpu script >>=
                fun rest => f (received ++ rest)).run s') t := by
            intro t ht
            obtain ⟨⟨direction, data⟩, turns, rfl⟩ := List.exists_cons_of_ne_nil hne
            obtain ⟨rfl, hdata, -⟩ := halt
            obtain ⟨b0, data, rfl⟩ := List.exists_cons_of_ne_nil hdata
            simp only [cpuTurns, List.length_cons, CpuSide.recvBytes, bind_assoc]
            refine Waits.idle (M.recv_first hs') ?_
            rw [ht]
            rfl
          refine hleave.alone hb hidle ?_
          intro bus' hb'
          refine settles_initiateSend hb' hidle ?_
          intro bus'' hb''
          exact (settles_turns M turns hwhole).1 halt hne hafter hs' hb'' hturns

end Runs

section Results

/-- The handshake carries every script of a monitor that it can carry. -/
theorem Monitor.session_carried {S : Type} {cpu : CpuSide S} (M : Monitor cpu) {script : List Session}
    {bus : Bus} (hbus : bus.Quiet) (hfree : bus.INTERRUPT_BUSY = false) (hapart : Apart script)
    (hscript : ∀ session ∈ script, session.Carried M.flushes) (s : S) :
    Lossless cpu script s bus := by
  have hb : Calm false false bus :=
    ⟨hfree, hbus.outReq, hbus.outDena, hbus.outDack, hbus.inReq, hbus.inDena, hbus.inDack⟩
  have hsettles := settles_script M (F := Delivered script) script hscript hapart
    Leaving.start (fun h => by cases h) (g := pure) (f := pure) (s := s) hb (fun _ => trivial)
    (fun _ bus => idle_done _ bus) (fun _ _ bus => idle_done _ bus) ?_
  · unfold Lossless
    simpa only [pure_bind, bind_pure] using hsettles
  · intro s' bus' hb'
    refine Settles.of_idle (idle_done _ _) (idle_done _ _) ⟨⟨s', rfl, rfl⟩, ?_⟩
    exact ⟨hb'.outReq, hb'.outDena, hb'.outDack, hb'.inReq, hb'.inDena, hb'.inDack⟩

/-- Every interleaving delivers every byte, with the MN1613 routines and, where `LDCR` and
`STCR` use the right half of a register, with the TMS9995 routines. -/
theorem lossless (script : List Session) (bus : Bus) (hbus : bus.Quiet)
    (hfree : bus.INTERRUPT_BUSY = false) (hapart : Apart script) :
    ((∀ session ∈ script, session.Carried true) → ∀ c, Lossless mn1613 script c bus) ∧
    ((∀ session ∈ script, session.Carried false) → ∀ c, Lossless (tms9995 .right) script c bus) :=
  ⟨fun hscript => BootMonitor.Mn1613.monitor.session_carried hbus hfree hapart hscript,
    fun hscript => BootMonitor.Tms9995.monitor.session_carried hbus hfree hapart hscript⟩

theorem quiet_createHandshakeBus : createHandshakeBus.Quiet := ⟨rfl, rfl, rfl, rfl, rfl, rfl⟩

/-- A session of each kind, with a direction change after one byte. -/
theorem lossless_mixed :
    Lossless mn1613 [.fromCpu [1, 2, 3], .toCpu true [(.toCpu, [4]), (.fromCpu, [5])]] {}
      createHandshakeBus := by
  refine (lossless _ _ quiet_createHandshakeBus rfl ?_).1 ?_ _
  · exact ⟨fun _ h => h, trivial⟩
  · intro session hsession
    rcases List.mem_cons.mp hsession with rfl | hsession
    · exact List.cons_ne_nil _ _
    · rw [List.mem_singleton] at hsession
      subst hsession
      exact ⟨List.cons_ne_nil _ _, ⟨rfl, List.cons_ne_nil _ _, rfl, List.cons_ne_nil _ _, trivial⟩,
        .inl rfl⟩

/-- Both sides have ended with what was sent. -/
def ended {S : Type} (script : List Session)
    (x : Pair Bus IoWait Unit (Except String (List (List Byte))) (List (List Byte) × S)) : Bool :=
  match x.left, x.right with
  | .done (.ok received), .done (received', _) =>
      received == sent .fromCpu script && received' == sent .toCpu script
  | _, _ => false

/-- A run that stops short of it. -/
theorem not_lossless_of_run {S : Type} {cpu : CpuSide S} {script : List Session} {s : S}
    {bus : Bus} (n : Nat)
    (hhalted : (rightFirst n ⟨(ioScript script).run, (cpuScript cpu script).run s, bus⟩).halted
      = true)
    (hended : ended script
      (rightFirst n ⟨(ioScript script).run, (cpuScript cpu script).run s, bus⟩) = false) :
    ¬ Lossless cpu script s bus := by
  intro h
  obtain ⟨⟨s', hleft, hright⟩, -⟩ := h.stuck (runs_rightFirst n _) (stuck_of_halted hhalted)
  rw [ended, hleft, hright] at hended
  simp at hended

/-- Two sessions of the processor back to back come to a standstill; the TMS9995 routines do
not complete a unit when the direction changes; and where the left half of a register is used
they send the wrong byte. -/
theorem not_lossless :
    ¬ Lossless mn1613 [.fromCpu [1], .fromCpu [2]] {} createHandshakeBus ∧
    ¬ Lossless (tms9995 .right) [.toCpu true [(.toCpu, [1]), (.fromCpu, [2])]] {}
      createHandshakeBus ∧
    ¬ Lossless (tms9995 .left) [.fromCpu [0xa5]] {} createHandshakeBus := by
  refine ⟨not_lossless_of_run 200 ?_ ?_, not_lossless_of_run 200 ?_ ?_,
    not_lossless_of_run 200 ?_ ?_⟩ <;> decide +kernel

end Results

end Handshake
end RetroCpu
