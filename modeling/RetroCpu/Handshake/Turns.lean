import RetroCpu.Handshake.Units

/-!
# Turns of a session

A session of the I/O board goes through its turns; a half of a unit that the processor has
not taken or given when the direction changes is completed first.
-/

namespace RetroCpu
namespace Handshake

open Interleave

section Alternation

def Direction.other : Direction → Direction
  | .toCpu => .fromCpu
  | .fromCpu => .toCpu

/-- The directions take turns, and each turn has a byte. -/
def Alternate : Direction → List Turn → Prop
  | _, [] => True
  | direction, (d, data) :: turns => d = direction ∧ data ≠ [] ∧ Alternate direction.other turns

/-- Every turn ends with a whole unit, but for a last one to the processor. -/
def WholeUnits : List Turn → Prop
  | [] => True
  | [(.toCpu, _)] => True
  | (_, data) :: turns => data.length % 2 = 0 ∧ WholeUnits turns

/-- What the turns send in a direction. -/
def turnsSent (direction : Direction) (turns : List Turn) : List (List Byte) :=
  (turns.filter (·.1 = direction)).map (·.2)

theorem WholeUnits.tail {turn : Turn} {turns : List Turn} (h : WholeUnits (turn :: turns)) :
    WholeUnits turns := by
  rcases turn with ⟨_ | _, data⟩
  · cases turns with
    | nil => trivial
    | cons turn turns => exact h.2
  · exact h.2

theorem WholeUnits.even_from {data : List Byte} {turns : List Turn}
    (h : WholeUnits ((.fromCpu, data) :: turns)) : data.length % 2 = 0 := h.1

theorem WholeUnits.even_to {data : List Byte} {turn : Turn} {turns : List Turn}
    (h : WholeUnits ((.toCpu, data) :: turn :: turns)) : data.length % 2 = 0 := h.1

end Alternation

section Turns

variable {S α γ : Type} {cpu : CpuSide S} (M : Monitor cpu) {outReq inReq : Bool}
  (F : Pair Bus IoWait Unit (Except String α) (γ × S) → Prop)

/-- The end of the turns, in each state in which they can leave the two sides. -/
structure TurnsEnd (outReq inReq : Bool) (p : Io α) (f : StateT S (Prog Bus Unit) γ) : Prop where
  keeps : Keeps cpuLines p.run
  even (s : S) (bus : Bus) (hs : M.Even s) (hb : Calm outReq inReq bus) :
    Settles F ⟨(lastDack >>= fun _ => p).run, f.run s, bus⟩
  recvHalf (s : S) (b : Byte) (bus : Bus) (hs : M.RecvHalf s) (hb : Calm outReq inReq bus) :
    Settles F ⟨(transferSecond 0 >>= fun _ => p).run, f.run s, halfIn b bus⟩
  answered (q : Prog Bus Unit (γ × S)) (bus : Bus)
    (hq : Answered false M.Even (fun s => f.run s) q) (hb : Calm outReq inReq bus) :
    Settles F ⟨p.run, q, bus⟩
  sendHalf (hflush : M.flushes = true) (s : S) (b : Byte) (bus : Bus) (hs : M.SendHalf s)
    (hb : Calm outReq inReq bus) :
    Settles F ⟨(receiveSecond b >>= fun _ => p).run, f.run s, halfOut b bus⟩

variable {F}

theorem stable_transferBytes {g : Unit → Io α} {data : List Byte} (hdata : data ≠ []) {bus : Bus}
    (hb : Calm outReq inReq bus) :
    Stable (fun bus => bus.HSHK_OUT_DACK == false) (transferBytesToCpu data >>= g).run bus := by
  have hdack : (bus.HSHK_OUT_DACK == false) = true := by
    rw [hb.outDack]
    rfl
  have hunit : ∀ (b0 b1 : Byte) (g : Unit → Io α), Stable (fun bus => bus.HSHK_OUT_DACK == false)
      (transferUnitToCpu b0 b1 >>= g).run bus := by
    intro b0 b1 g
    rw [transferUnitToCpu_eq]
    simp only [bind_assoc]
    exact ⟨hdack, hdack, stable_of_idle (idle_transferSecond hb.inDack)⟩
  rcases data with _ | ⟨b0, _ | ⟨b1, data⟩⟩
  · exact absurd rfl hdata
  · exact hunit b0 0 g
  · simp only [transferBytesToCpu, bind_assoc]
    exact hunit b0 b1 _

theorem awaits_lastDack {g : List Byte → Io α} {n : Nat} {bus : Bus}
    (hb : Calm outReq inReq bus) :
    Awaits (lastDack >>= fun _ => receiveBytesFromCpu (n + 1) >>= g).run
      (receiveBytesFromCpu (n + 1) >>= g).run outReq inReq bus where
  data _ := free_wait (fun h => h) fun _ => free_of_idle (idle_receiveBytes hb.outDena)
  dena _ := free_wait (fun h => h) fun _ => free_of_idle (idle_receiveBytes hb.outDena)
  run b hq h := by
    have hdack : (!bus.HSHK_IN_DACK) = true := by
      rw [hb.inDack]
      rfl
    exact settles_wait hdack (stable_of_idle (hq _ hb.outDack)) (h bus hb)

variable {g : List (List Byte) → Io α} {f : List (List Byte) → StateT S (Prog Bus Unit) γ}

/-- The turns come to their end, when they start with one to the processor. -/
def SettlesTo (outReq inReq : Bool) (turns : List Turn) : Prop :=
  ∀ ⦃g : List (List Byte) → Io α⦄ ⦃f : List (List Byte) → StateT S (Prog Bus Unit) γ⦄ ⦃s : S⦄
    ⦃bus : Bus⦄, (∀ a, Keeps cpuLines (g a).run) → M.Even s → Calm outReq inReq bus →
    TurnsEnd M F outReq inReq (g (turnsSent .fromCpu turns)) (f (turnsSent .toCpu turns)) →
    Settles F ⟨(ioTurns turns >>= g).run, (cpuTurns cpu turns >>= f).run s, bus⟩

/-- The turns come to their end behind one to the processor. -/
def SettlesFrom (outReq inReq : Bool) (turns : List Turn) : Prop :=
  ∀ ⦃g : List (List Byte) → Io α⦄ ⦃f : List (List Byte) → StateT S (Prog Bus Unit) γ⦄ ⦃s : S⦄
    ⦃bus : Bus⦄, (∀ a, Keeps cpuLines (g a).run) → M.Even s → Calm outReq inReq bus →
    TurnsEnd M F outReq inReq (g (turnsSent .fromCpu turns)) (f (turnsSent .toCpu turns)) →
    Settles F ⟨(lastDack >>= fun _ => ioTurns turns >>= g).run, (cpuTurns cpu turns >>= f).run s,
      bus⟩

/-- A half that the processor has not taken is taken with the next turn, or at the end. -/
theorem settles_recvHalf {turns : List Turn} (halt : Alternate .fromCpu turns)
    (hflush : turns ≠ [] → M.flushes = true)
    (hturns : SettlesFrom (F := F) M outReq inReq turns)
    (hg : ∀ a, Keeps cpuLines (g a).run)
    (hend : TurnsEnd M F outReq inReq (g (turnsSent .fromCpu turns)) (f (turnsSent .toCpu turns)))
    {s : S} {b : Byte} {bus : Bus} (hs : M.RecvHalf s) (hb : Calm outReq inReq bus) :
    Settles F ⟨(transferSecond 0 >>= fun _ => ioTurns turns >>= g).run,
      (cpuTurns cpu turns >>= f).run s, halfIn b bus⟩ := by
  rcases turns with _ | ⟨⟨direction, data⟩, turns⟩
  · exact hend.recvHalf s b bus hs hb
  · obtain ⟨rfl, hdata, -⟩ := halt
    obtain ⟨b0, data, rfl⟩ := List.exists_cons_of_ne_nil hdata
    refine settles_second_to M (r := fun _ s' =>
      (cpuTurns cpu ((.fromCpu, b0 :: data) :: turns) >>= f).run s') ?_ hb ?_ ?_
    · exact fun _ => keeps_bind (keeps_ioTurns _) hg
    · simp only [cpuTurns, CpuSide.sendBytes, bind_assoc]
      exact M.send_flush b0 (hflush (List.cons_ne_nil _ _)) hs
    · intro s' bus' hs' hb'
      exact hturns hg hs' hb' hend

/-- Behind the last half from the processor. -/
theorem settles_answered {turns : List Turn} (halt : Alternate .toCpu turns)
    (hturns : turns ≠ [] → SettlesTo (F := F) M outReq inReq turns)
    (hg : ∀ a, Keeps cpuLines (g a).run)
    (hend : TurnsEnd M F outReq inReq (g (turnsSent .fromCpu turns)) (f (turnsSent .toCpu turns)))
    {q : Prog Bus Unit (γ × S)} {bus : Bus}
    (hq : Answered false M.Even (fun s => (cpuTurns cpu turns >>= f).run s) q)
    (hb : Calm outReq inReq bus) : Settles F ⟨(ioTurns turns >>= g).run, q, bus⟩ := by
  rcases turns with _ | ⟨⟨direction, data⟩, turns⟩
  · exact hend.answered q bus hq hb
  · obtain ⟨rfl, hdata, -⟩ := halt
    refine Settles.right_waits hq ?_ ?_ ?_
    · rw [hb.outDack]
      rfl
    · simp only [ioTurns, bind_assoc]
      exact stable_transferBytes hdata hb
    · rintro t ⟨s, hs, rfl⟩
      exact hturns (List.cons_ne_nil _ _) hg hs hb hend

/-- A half that the processor has not given is given with the next turn, or at the end. -/
theorem settles_sendHalf {turns : List Turn} (halt : Alternate .toCpu turns)
    (hflush : M.flushes = true)
    (hturns : turns ≠ [] → SettlesTo (F := F) M outReq inReq turns)
    (hg : ∀ a, Keeps cpuLines (g a).run)
    (hend : TurnsEnd M F outReq inReq (g (turnsSent .fromCpu turns)) (f (turnsSent .toCpu turns)))
    {s : S} {b : Byte} {bus : Bus} (hs : M.SendHalf s) (hb : Calm outReq inReq bus) :
    Settles F ⟨(receiveSecond b >>= fun _ => ioTurns turns >>= g).run,
      (cpuTurns cpu turns >>= f).run s, halfOut b bus⟩ := by
  rcases turns with _ | ⟨⟨direction, data⟩, turns⟩
  · exact hend.sendHalf hflush s b bus hs hb
  · obtain ⟨rfl, hdata, -⟩ := id halt
    obtain ⟨b0, data, rfl⟩ := List.exists_cons_of_ne_nil hdata
    have hgives : Gives false 0 M.Even
        (fun s' => (cpuTurns cpu ((.toCpu, b0 :: data) :: turns) >>= f).run s')
        ((cpuTurns cpu ((.toCpu, b0 :: data) :: turns) >>= f).run s) := by
      simp only [cpuTurns, List.length_cons, CpuSide.recvBytes, bind_assoc]
      exact M.recv_flush hflush hs
    refine settles_second_from M (fun _ => keeps_bind (keeps_ioTurns _) hg) hb hgives ?_
    intro q' bus' hq' hb'
    exact settles_answered M halt hturns hg hend hq' hb'

/-- The turns come to their end. -/
theorem settles_turns (turns : List Turn) (hwhole : M.flushes = true ∨ WholeUnits turns) :
    (Alternate .toCpu turns → turns ≠ [] → SettlesTo (F := F) M outReq inReq turns) ∧
    (Alternate .fromCpu turns → SettlesFrom (F := F) M outReq inReq turns) := by
  induction turns with
  | nil =>
      refine ⟨fun _ h => absurd rfl h, ?_⟩
      intro _ g f s bus hg hs hb hend
      exact hend.even s bus hs hb
  | cons turn turns ih =>
      obtain ⟨direction, data⟩ := turn
      obtain ⟨ihTo, ihFrom⟩ := ih (hwhole.imp_right WholeUnits.tail)
      constructor
      · rintro ⟨rfl, hdata, halt⟩ - g f s bus hg hs hb hend
        simp only [ioTurns, cpuTurns, bind_assoc, pure_bind]
        refine settles_bytes_to M (fun _ => keeps_bind (keeps_ioTurns turns) hg) data hdata ?_ ?_
          hs hb
        · intro _ s' bus' hs' hb'
          exact ihFrom halt hg hs' hb' hend
        · intro hodd s' b bus' hs' hb'
          refine settles_recvHalf M (f := fun rest => f (data :: rest)) halt ?_ (ihFrom halt) hg hend
            hs' hb'
          intro hne
          refine hwhole.resolve_right ?_
          intro hunits
          obtain ⟨turn, turns, rfl⟩ := List.exists_cons_of_ne_nil hne
          have heven := hunits.even_to
          omega
      · rintro ⟨rfl, hdata, halt⟩ g f s bus hg hs hb hend
        simp only [ioTurns, cpuTurns, bind_assoc, pure_bind]
        obtain ⟨n, hn⟩ : ∃ n, data.length = n + 1 :=
          Nat.exists_eq_succ_of_ne_zero (mt List.length_eq_zero_iff.mp hdata)
        have hkeeps : ∀ a, Keeps cpuLines (ioTurns turns >>= fun rest => g (a :: rest)).run :=
          fun a => keeps_bind (keeps_ioTurns turns) fun _ => hg _
        have hawaits : Awaits (lastDack >>= fun _ => receiveBytesFromCpu data.length >>= fun first =>
            ioTurns turns >>= fun rest => g (first :: rest)).run
            (receiveBytesFromCpu data.length >>= fun first =>
              ioTurns turns >>= fun rest => g (first :: rest)).run outReq inReq bus := by
          rw [hn]
          exact awaits_lastDack hb
        refine settles_bytes_from M hkeeps data hdata ?_ ?_ ?_ hawaits hs
        · intro _ q bus' hq hb'
          exact settles_answered M halt (ihTo halt) (fun _ => hg _) hend hq hb'
        · intro hodd b s' bus' hs' hb'
          refine settles_sendHalf M halt ?_ (ihTo halt) (fun _ => hg _) hend hs' hb'
          refine hwhole.resolve_right ?_
          intro hunits
          have heven := hunits.even_from
          omega
        · exact keeps_bind keeps_wait fun _ => keeps_bind (keeps_receiveBytesFromCpu _) hkeeps

end Turns

end Handshake
end RetroCpu
