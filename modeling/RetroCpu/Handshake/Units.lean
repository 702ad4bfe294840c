import RetroCpu.Handshake.IoSteps

/-!
# Units and turns

A unit goes over in two halves; each side waits while the other drives its lines.  Between
two units the lines of both directions are at 0.
-/

namespace RetroCpu
namespace Handshake

open Interleave

section Between

/-- The lines between two units. -/
structure Calm (outReq inReq : Bool) (bus : Bus) : Prop where
  free : bus.INTERRUPT_BUSY = false
  outReq : bus.HSHK_OUT_REQ = outReq
  outDena : bus.HSHK_OUT_DENA = false
  outDack : bus.HSHK_OUT_DACK = false
  inReq : bus.HSHK_IN_REQ = inReq
  inDena : bus.HSHK_IN_DENA = false
  inDack : bus.HSHK_IN_DACK = false

/-- The lines in the middle of a unit to the processor. -/
def halfIn (b : Byte) (bus : Bus) : Bus :=
  { bus with HSHK_IN_DATA := b, HSHK_IN_DENA := true, HSHK_IN_DACK := true }

/-- The lines in the middle of a unit from the processor. -/
def halfOut (b : Byte) (bus : Bus) : Bus :=
  { bus with HSHK_OUT_DATA := b, HSHK_OUT_DENA := true, HSHK_OUT_DACK := true }

/-- The last wait of a unit to the processor. -/
def lastDack : Io Unit := wait .dackLow fun bus => !bus.HSHK_IN_DACK

/-- The second half of a unit to the processor. -/
def transferSecond (b1 : Byte) : Io Unit := do
  wait .dackHigh fun bus => bus.HSHK_IN_DACK
  drive fun bus => { bus with HSHK_IN_DATA := b1 }
  drive fun bus => { bus with HSHK_IN_DENA := false }
  lastDack

/-- The second half of a unit from the processor. -/
def receiveSecond (b0 : Byte) : Io (Byte × Byte) := do
  wait .denaLow fun bus => !bus.HSHK_OUT_DENA
  let b1 ← sample (·.HSHK_OUT_DATA)
  drive fun bus => { bus with HSHK_OUT_DACK := false }
  return (b0, b1)

theorem transferUnitToCpu_eq (b0 b1 : Byte) :
    transferUnitToCpu b0 b1 = (do
      drive fun bus => { bus with HSHK_IN_DATA := b0 }
      drive fun bus => { bus with HSHK_IN_DENA := true }
      transferSecond b1) := rfl

theorem receiveUnitFromCpu_eq :
    receiveUnitFromCpu = (do
      wait .denaHigh fun bus => bus.HSHK_OUT_DENA
      let b0 ← sample (·.HSHK_OUT_DATA)
      drive fun bus => { bus with HSHK_OUT_DACK := true }
      receiveSecond b0) := rfl

end Between

section Units

variable {S α β : Type} {cpu : CpuSide S} (M : Monitor cpu) {outReq inReq : Bool} {bus : Bus}
  {F : Pair Bus IoWait Unit (Except String α) β → Prop} {q : Prog Bus Unit β} {b0 b1 : Byte}

theorem keeps_transferSecond (b1 : Byte) : Keeps cpuLines (transferSecond b1).run := by
  refine keeps_bind keeps_wait fun _ => ?_
  refine keeps_bind (keeps_drive fun _ => rfl) fun _ => ?_
  exact keeps_bind (keeps_drive fun _ => rfl) fun _ => keeps_wait

theorem keeps_receiveSecond (b0 : Byte) : Keeps cpuLines (receiveSecond b0).run := by
  refine keeps_bind keeps_wait fun _ => ?_
  refine keeps_bind keeps_sample fun _ => ?_
  exact keeps_bind (keeps_drive fun _ => rfl) fun _ => trivial

theorem idle_transferSecond {g : Unit → Io α} (h : bus.HSHK_IN_DACK = false) :
    Idle (transferSecond b1 >>= g).run bus := by
  simp only [transferSecond, bind_assoc]
  exact idle_io_wait h

theorem idle_receiveSecond {g : Byte × Byte → Io α} (h : bus.HSHK_OUT_DENA = true) :
    Idle (receiveSecond b0 >>= g).run bus := by
  simp only [receiveSecond, bind_assoc]
  refine idle_io_wait ?_
  rw [h]
  rfl

theorem idle_receiveUnit {g : Byte × Byte → Io α} (h : bus.HSHK_OUT_DENA = false) :
    Idle (receiveUnitFromCpu >>= g).run bus := by
  simp only [receiveUnitFromCpu, bind_assoc]
  exact idle_io_wait h

/-- The first half of a unit to the processor. -/
theorem settles_first_to {r : Byte → S → Prog Bus Unit β} {g : Unit → Io α}
    (hg : ∀ a, Keeps cpuLines (g a).run) (hb : Calm outReq inReq bus)
    (hq : Takes true M.RecvHalf r q)
    (h : ∀ s, M.RecvHalf s → Settles F ⟨(transferSecond b1 >>= g).run, r b0 s, halfIn b0 bus⟩) :
    Settles F ⟨(transferUnitToCpu b0 b1 >>= g).run, q, bus⟩ := by
  have hlow : bus.HSHK_IN_DENA = false := hb.inDena
  have hdack : bus.HSHK_IN_DACK = false := hb.inDack
  have hwaits : ∀ t : Bus, t.HSHK_IN_DENA = false → Idle q t := by
    intro t ht
    refine Waits.idle hq ?_
    rw [ht]
    rfl
  rw [transferUnitToCpu_eq]
  simp only [bind_assoc]
  -- the I/O board drives its lines while the processor waits
  refine settles_drive (free_of_idle (hwaits _ hlow)) ?_
  refine settles_drive (free_of_idle (hwaits _ hlow)) ?_
  -- the processor answers while the I/O board waits
  refine Settles.right_waits hq rfl ?_ ?_
  · exact stable_of_idle (idle_transferSecond hdack)
  · intro t ht
    exact ht (keeps_bind (keeps_transferSecond b1) hg) (idle_transferSecond hdack) h

/-- The second half of a unit to the processor. -/
theorem settles_second_to {r : Byte → S → Prog Bus Unit β} {g : Unit → Io α}
    (hg : ∀ a, Keeps cpuLines (g a).run) (hb : Calm outReq inReq bus)
    (hq : Takes false M.Even r q)
    (h : ∀ s bus', M.Even s → Calm outReq inReq bus' →
      Settles F ⟨(lastDack >>= g).run, r b1 s, bus'⟩) :
    Settles F ⟨(transferSecond b1 >>= g).run, q, halfIn b0 bus⟩ := by
  have hwaits : ∀ t : Bus, t.HSHK_IN_DENA = true → Idle q t := by
    intro t ht
    refine Waits.idle hq ?_
    rw [ht]
    rfl
  simp only [transferSecond, bind_assoc]
  refine settles_wait rfl (stable_of_idle (hwaits _ rfl)) ?_
  refine settles_drive (free_of_idle (hwaits _ rfl)) ?_
  refine settles_drive (free_of_idle (hwaits _ rfl)) ?_
  refine Settles.right_waits hq rfl ?_ ?_
  · refine stable_of_idle ?_
    exact idle_io_wait rfl
  · intro t ht
    refine ht (keeps_bind keeps_wait hg) (idle_io_wait rfl) ?_
    intro s hs
    exact h s _ hs ⟨hb.free, hb.outReq, hb.outDena, hb.outDack, hb.inReq, rfl, rfl⟩

/-- The I/O board comes to `r` on its own while a byte is put out. -/
structure Awaits (p r : Prog Bus IoWait (Except String α)) (outReq inReq : Bool) (bus : Bus) :
    Prop where
  data (b : Byte) : Free (dataOut b) (fun _ => ()) p bus
  dena (b : Byte) : Free (denaOut true) (fun _ => ()) p (dataOut b bus)
  run {β : Type} {F : Pair Bus IoWait Unit (Except String α) β → Prop} {q : Prog Bus Unit β}
    (b : Byte) (hq : ∀ t : Bus, t.HSHK_OUT_DACK = false → Idle q t)
    (h : ∀ bus', Calm outReq inReq bus' → Settles F ⟨r, q, denaOut true (dataOut b bus')⟩) :
    Settles F ⟨p, q, denaOut true (dataOut b bus)⟩

/-- The first half of a unit from the processor. -/
theorem settles_first_from {p : Prog Bus IoWait (Except String α)} {r : S → Prog Bus Unit β}
    {g : Byte × Byte → Io α} (hp : Keeps cpuLines p)
    (hawaits : Awaits p (receiveUnitFromCpu >>= g).run outReq inReq bus)
    (hq : Gives true b0 M.SendHalf r q)
    (h : ∀ s bus', M.SendHalf s → Calm outReq inReq bus' →
      Settles F ⟨(receiveSecond b0 >>= g).run, r s, halfOut b0 bus'⟩) :
    Settles F ⟨p, q, bus⟩ := by
  -- the processor drives its lines, and waits
  refine hq hp (hawaits.data b0) (hawaits.dena b0) ?_
  intro q' hq'
  have hwaits : ∀ t : Bus, t.HSHK_OUT_DACK = false → Idle q' t := by
    intro t ht
    refine Waits.idle hq' ?_
    rw [ht]
    rfl
  -- the I/O board comes to the wait, and answers
  refine hawaits.run b0 hwaits ?_
  intro bus' hb
  have hdack : bus'.HSHK_OUT_DACK = false := hb.outDack
  rw [receiveUnitFromCpu_eq]
  simp only [bind_assoc]
  refine settles_wait rfl (stable_of_idle (hwaits _ hdack)) ?_
  refine settles_sample (hwaits _ hdack) ?_
  refine settles_drive (free_of_idle (hwaits _ hdack)) ?_
  refine Settles.right_waits hq' rfl (stable_of_idle (idle_receiveSecond rfl)) ?_
  rintro t ⟨s, hs, rfl⟩
  exact h s bus' hs hb

/-- The second half of a unit from the processor. -/
theorem settles_second_from {r : S → Prog Bus Unit β} {g : Byte × Byte → Io α}
    (hg : ∀ a, Keeps cpuLines (g a).run) (hb : Calm outReq inReq bus)
    (hq : Gives false b1 M.Even r q)
    (h : ∀ q' bus', Answered false M.Even r q' → Calm outReq inReq bus' →
      Settles F ⟨(g (b0, b1)).run, q', bus'⟩) :
    Settles F ⟨(receiveSecond b0 >>= g).run, q, halfOut b0 bus⟩ := by
  refine hq (keeps_bind (keeps_receiveSecond b0) hg) (free_of_idle (idle_receiveSecond rfl))
    (free_of_idle (idle_receiveSecond rfl)) ?_
  intro q' hq'
  have hwaits : ∀ t : Bus, t.HSHK_OUT_DACK = true → Idle q' t := by
    intro t ht
    refine Waits.idle hq' ?_
    rw [ht]
    rfl
  simp only [receiveSecond, bind_assoc, pure_bind]
  refine settles_wait rfl (stable_of_idle (hwaits _ rfl)) ?_
  refine settles_sample (hwaits _ rfl) ?_
  refine settles_drive (free_of_idle (hwaits _ rfl)) ?_
  exact h q' _ hq' ⟨hb.free, hb.outReq, rfl, rfl, hb.inReq, hb.inDena, hb.inDack⟩

end Units

section Bytes

variable {S α γ : Type} {cpu : CpuSide S} (M : Monitor cpu) {outReq inReq : Bool}
  {F : Pair Bus IoWait Unit (Except String α) (γ × S) → Prop}

/-- Bytes to the processor. -/
theorem settles_bytes_to {g : Unit → Io α} {f : List Byte → StateT S (Prog Bus Unit) γ}
    (hg : ∀ a, Keeps cpuLines (g a).run) (data : List Byte) (hdata : data ≠ [])
    (heven : data.length % 2 = 0 → ∀ s bus, M.Even s → Calm outReq inReq bus →
      Settles F ⟨(lastDack >>= g).run, (f data).run s, bus⟩)
    (hodd : data.length % 2 = 1 → ∀ s b bus, M.RecvHalf s → Calm outReq inReq bus →
      Settles F ⟨(transferSecond 0 >>= g).run, (f data).run s, halfIn b bus⟩)
    {s : S} {bus : Bus} (hs : M.Even s) (hb : Calm outReq inReq bus) :
    Settles F ⟨(transferBytesToCpu data >>= g).run, (cpu.recvBytes data.length >>= f).run s,
      bus⟩ := by
  induction data using transferBytesToCpu.induct generalizing f s bus with
  | case1 => exact absurd rfl hdata
  | case2 b0 =>
      simp only [transferBytesToCpu, List.length_singleton, CpuSide.recvBytes, bind_assoc,
        pure_bind]
      refine settles_first_to M hg hb (M.recv_first hs) ?_
      intro s' hs'
      exact hodd rfl s' b0 bus hs' hb
  | case3 b0 b1 data ih =>
      simp only [transferBytesToCpu, List.length_cons, CpuSide.recvBytes, bind_assoc, pure_bind]
      refine settles_first_to M ?_ hb (M.recv_first hs) ?_
      · exact fun _ => keeps_bind (keeps_transferBytesToCpu data) hg
      intro s' hs'
      refine settles_second_to M ?_ hb (M.recv_second hs') ?_
      · exact fun _ => keeps_bind (keeps_transferBytesToCpu data) hg
      intro s'' bus' hs'' hb'
      cases data with
      | nil =>
          simp only [transferBytesToCpu, CpuSide.recvBytes, pure_bind, List.length_nil]
          exact heven (by simp) s'' bus' hs'' hb'
      | cons b2 data =>
          -- the processor waits for the next unit, so that the last one can end
          have hidle : Idle ((cpu.recvBytes (b2 :: data).length >>= fun rest =>
              f (b0 :: b1 :: rest)).run s'') bus' := by
            simp only [List.length_cons, CpuSide.recvBytes, bind_assoc]
            refine Waits.idle (M.recv_first hs'') ?_
            rw [hb'.inDena]
            rfl
          refine settles_wait ?_ (stable_of_idle hidle) ?_
          · rw [hb'.inDack]
            rfl
          refine ih (by simp) ?_ ?_ hs'' hb'
          · intro hlen
            exact heven (by simp only [List.length_cons] at hlen ⊢; omega)
          · intro hlen
            exact hodd (by simp only [List.length_cons] at hlen ⊢; omega)

theorem idle_receiveBytes {g : List Byte → Io α} {n : Nat} {bus : Bus}
    (h : bus.HSHK_OUT_DENA = false) : Idle (receiveBytesFromCpu (n + 1) >>= g).run bus := by
  cases n with
  | zero =>
      simp only [receiveBytesFromCpu, bind_assoc]
      exact idle_receiveUnit h
  | succ n =>
      simp only [receiveBytesFromCpu, bind_assoc]
      exact idle_receiveUnit h

theorem awaits_receive {g : List Byte → Io α} {n : Nat} {bus : Bus} (hb : Calm outReq inReq bus) :
    Awaits (receiveBytesFromCpu (n + 1) >>= g).run (receiveBytesFromCpu (n + 1) >>= g).run
      outReq inReq bus where
  data _ := free_of_idle (idle_receiveBytes hb.outDena)
  dena _ := free_of_idle (idle_receiveBytes hb.outDena)
  run _ _ h := h bus hb

theorem receiveSecond_fst {b : Byte} {g : Byte → Io α} :
    (receiveSecond b >>= fun x => g x.1) = receiveSecond b >>= fun _ => g b := by
  simp only [receiveSecond, bind_assoc, pure_bind]

/-- Bytes from the processor. -/
theorem settles_bytes_from {g : List Byte → Io α} {f : Unit → StateT S (Prog Bus Unit) γ}
    (hg : ∀ a, Keeps cpuLines (g a).run) (data : List Byte) (hdata : data ≠ [])
    (heven : data.length % 2 = 0 → ∀ q bus, Answered false M.Even (fun s => (f ()).run s) q →
      Calm outReq inReq bus → Settles F ⟨(g data).run, q, bus⟩)
    (hodd : data.length % 2 = 1 → ∀ b s bus, M.SendHalf s → Calm outReq inReq bus →
      Settles F ⟨(receiveSecond b >>= fun _ => g data).run, (f ()).run s, halfOut b bus⟩)
    {p : Prog Bus IoWait (Except String α)} {s : S} {bus : Bus} (hp : Keeps cpuLines p)
    (hawaits : Awaits p (receiveBytesFromCpu data.length >>= g).run outReq inReq bus)
    (hs : M.Even s) : Settles F ⟨p, (cpu.sendBytes data >>= f).run s, bus⟩ := by
  induction data using transferBytesToCpu.induct generalizing g p s bus with
  | case1 => exact absurd rfl hdata
  | case2 b0 =>
      simp only [List.length_singleton, receiveBytesFromCpu, bind_assoc, pure_bind] at hawaits
      simp only [CpuSide.sendBytes, bind_assoc, pure_bind]
      refine settles_first_from M hp hawaits (M.send_first b0 hs) ?_
      intro s' bus' hs' hb'
      rw [receiveSecond_fst (g := fun b => g [b])]
      exact hodd rfl b0 s' bus' hs' hb'
  | case3 b0 b1 data ih =>
      simp only [List.length_cons, receiveBytesFromCpu, bind_assoc, pure_bind] at hawaits
      simp only [CpuSide.sendBytes, bind_assoc]
      refine settles_first_from M hp hawaits (M.send_first b0 hs) ?_
      intro s' bus' hs' hb'
      refine settles_second_from M ?_ hb' (M.send_second b1 hs') ?_
      · exact fun _ => keeps_bind (keeps_receiveBytesFromCpu data.length) fun _ => hg _
      intro q' bus'' hq' hb''
      cases data with
      | nil =>
          simp only [receiveBytesFromCpu, pure_bind, List.length_nil]
          exact heven (by simp) q' bus'' hq' hb''
      | cons b2 data =>
          -- the I/O board waits for the next unit, so that the last one can end
          refine Settles.right_waits hq' ?_ (stable_of_idle (idle_receiveBytes hb''.outDena)) ?_
          · rw [hb''.outDack]
            rfl
          · rintro t ⟨s'', hs'', rfl⟩
            refine ih (fun _ => hg _) (by simp) ?_ ?_ ?_ (awaits_receive hb'') hs''
            · intro hlen
              exact heven (by simp only [List.length_cons] at hlen ⊢; omega)
            · intro hlen
              exact hodd (by simp only [List.length_cons] at hlen ⊢; omega)
            · exact keeps_bind (keeps_receiveBytesFromCpu _) fun _ => hg _

end Bytes

end Handshake
end RetroCpu
