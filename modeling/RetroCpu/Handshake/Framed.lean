import RetroCpu.Handshake.Lossless
import RetroCpu.Lib.Untimed

/-!
# Frames of a length that their own bytes fix

`receiveFramedAdaptive` asks for one byte after the other until it has enough, and takes them
in units of two.  Whatever the interleaving, it ends with the bytes it asked for when the
processor sends these bytes, or one more that fills up the last unit.
-/

namespace RetroCpu
namespace Handshake

open Interleave

section Untimed

variable {remaining : List Byte → Int}

/-- The loop of `receiveFramedAdaptive`, where every unit comes -/
def untimedLoop (remaining : List Byte → Int) : Nat → List Byte → List Byte → Io (List Byte)
  | 0, _, _ => ExceptT.mk .stop
  | fuel + 1, bytes, pending =>
      if remaining bytes ≤ 0 then pure bytes
      else
        match pending with
        | b :: pending => untimedLoop remaining fuel (bytes ++ [b]) pending
        | [] => do
            let unit ← receiveUnitFromCpu
            untimedLoop remaining fuel (bytes ++ [unit.1]) [unit.2]

attribute [grind =] untimedLoop

theorem alike_adaptiveLoop (fuel : Nat) (bytes pending : List Byte) :
    Alike (adaptiveLoop remaining fuel bytes pending).run
      (untimedLoop remaining fuel bytes pending).run := by
  induction fuel generalizing bytes pending with
  | zero => exact Alike.refl _
  | succ fuel ih =>
      rw [adaptiveLoop.eq_def, untimedLoop.eq_def]
      dsimp only
      by_cases henough : remaining bytes ≤ 0
      · rw [if_pos henough, if_pos henough]
        exact Alike.refl _
      · rw [if_neg henough, if_neg henough]
        cases pending with
        | nil =>
            exact ⟨rfl, fun _ => ⟨rfl, fun _ => ⟨rfl, fun _ => ⟨rfl, fun _ => ⟨rfl, fun _ =>
              ⟨rfl, fun _ => ih _ _⟩⟩⟩⟩⟩⟩
        | cons b pending => exact ih _ _

/-- A unit, and the loop behind its first byte -/
def unitLoop (remaining : List Byte → Int) (fuel : Nat) (bytes : List Byte) : Io (List Byte) := do
  let unit ← receiveUnitFromCpu
  untimedLoop remaining fuel (bytes ++ [unit.1]) [unit.2]

/-- `receiveFramedAdaptive`, where every unit comes -/
def untimedFramed (fuel : Nat) (remaining : List Byte → Int) : Io (List Byte) := do
  waitForCpuRequest
  let bytes ← unitLoop remaining fuel []
  finalizeReceive
  return bytes

theorem alike_receiveFramedAdaptive (fuel : Nat) :
    Alike (receiveFramedAdaptive fuel remaining).run (untimedFramed fuel remaining).run := by
  simp only [receiveFramedAdaptive, untimedFramed, unitLoop, bind_assoc, ExceptT.run_bind]
  refine (Alike.refl _).bind fun r => ?_
  cases r with
  | error e => exact Alike.refl _
  | ok _ =>
      refine (Alike.refl _).bind fun r => ?_
      cases r with
      | error e => exact Alike.refl _
      | ok unit => exact (alike_adaptiveLoop fuel _ _).bind fun r => Alike.refl _

theorem untimedLoop_enough {fuel : Nat} {bytes pending : List Byte} (h : remaining bytes ≤ 0) :
    untimedLoop remaining (fuel + 1) bytes pending = pure bytes := by
  rw [untimedLoop.eq_def]
  exact if_pos h

theorem untimedLoop_pending {fuel : Nat} {b : Byte} {bytes pending : List Byte}
    (h : 0 < remaining bytes) :
    untimedLoop remaining (fuel + 1) bytes (b :: pending) =
      untimedLoop remaining fuel (bytes ++ [b]) pending := by
  rw [untimedLoop, if_neg (by omega)]

theorem untimedLoop_unit {fuel : Nat} {bytes : List Byte} (h : 0 < remaining bytes) :
    untimedLoop remaining (fuel + 1) bytes [] = unitLoop remaining fuel bytes := by
  rw [untimedLoop.eq_def]
  exact if_neg (by omega)

theorem keeps_untimedLoop (fuel : Nat) (bytes pending : List Byte) :
    Keeps cpuLines (untimedLoop remaining fuel bytes pending).run := by
  induction fuel generalizing bytes pending with
  | zero => trivial
  | succ fuel ih =>
      rw [untimedLoop.eq_def]
      dsimp only
      split
      · trivial
      · cases pending with
        | nil => exact keeps_bind keeps_receiveUnitFromCpu fun _ => ih _ _
        | cons b pending => exact ih _ _

theorem keeps_unitLoop (fuel : Nat) (bytes : List Byte) :
    Keeps cpuLines (unitLoop remaining fuel bytes).run :=
  keeps_bind keeps_receiveUnitFromCpu fun _ => keeps_untimedLoop fuel _ _

end Untimed

section Asked

/-- The loop asks for just the first `n` of some bytes, and these are the bytes up to a pad. -/
structure Asked (remaining : List Byte → Int) (bytes data : List Byte) (n : Nat) : Prop where
  more : ∀ i, 0 < i → i < n → 0 < remaining (bytes ++ data.take i)
  enough : remaining (bytes ++ data.take n) ≤ 0
  le : n ≤ data.length
  padded : data.length = n ∨ data.length = n + 1 ∧ n % 2 = 1

variable {remaining : List Byte → Int} {bytes data : List Byte} {b0 b1 : Byte} {n : Nat}

theorem Asked.next (h : Asked remaining bytes (b0 :: b1 :: data) (n + 2)) :
    Asked remaining (bytes ++ [b0, b1]) data n where
  more i hi hlt := by
    have hmore := h.more (i + 2) (by omega) (by omega)
    rw [List.take_succ_cons, List.take_succ_cons] at hmore
    simpa only [List.append_assoc, List.cons_append, List.nil_append] using hmore
  enough := by
    have henough := h.enough
    rw [List.take_succ_cons, List.take_succ_cons] at henough
    simpa only [List.append_assoc, List.cons_append, List.nil_append] using henough
  le := by
    have hle := h.le
    simp only [List.length_cons] at hle
    omega
  padded := by
    have hpadded := h.padded
    simp only [List.length_cons] at hpadded
    omega

end Asked

section Units

variable {S α γ : Type} {cpu : CpuSide S} (M : Monitor cpu) {outReq inReq : Bool}
  {F : Pair Bus IoWait Unit (Except String α) (γ × S) → Prop} {remaining : List Byte → Int}

theorem idle_unitLoop {g : List Byte → Io α} {fuel : Nat} {bytes : List Byte} {bus : Bus}
    (h : bus.HSHK_OUT_DENA = false) : Idle (unitLoop remaining fuel bytes >>= g).run bus := by
  simp only [unitLoop, bind_assoc]
  exact idle_receiveUnit h

theorem awaits_unitLoop {g : List Byte → Io α} {fuel : Nat} {bytes : List Byte} {bus : Bus}
    (hb : Calm outReq inReq bus) :
    Awaits (unitLoop remaining fuel bytes >>= g).run (unitLoop remaining fuel bytes >>= g).run
      outReq inReq bus where
  data _ := free_of_idle (idle_unitLoop hb.outDena)
  dena _ := free_of_idle (idle_unitLoop hb.outDena)
  run _ _ h := h bus hb

/-- Bytes from the processor, as long as the loop asks for them. -/
theorem settles_unitLoop {g : List Byte → Io α} {f : Unit → StateT S (Prog Bus Unit) γ}
    (hg : ∀ a, Keeps cpuLines (g a).run) (data : List Byte) (hdata : data ≠ [])
    {bytes : List Byte} {n fuel : Nat} (hasked : Asked remaining bytes data n)
    (hfuel : n < fuel)
    (heven : data.length % 2 = 0 → ∀ q bus, Answered false M.Even (fun s => (f ()).run s) q →
      Calm outReq inReq bus → Settles F ⟨(g (bytes ++ data.take n)).run, q, bus⟩)
    (hodd : data.length % 2 = 1 → ∀ b s bus, M.SendHalf s → Calm outReq inReq bus →
      Settles F ⟨(receiveSecond b >>= fun _ => g (bytes ++ data.take n)).run, (f ()).run s,
        halfOut b bus⟩)
    {p : Prog Bus IoWait (Except String α)} {s : S} {bus : Bus} (hp : Keeps cpuLines p)
    (hawaits : Awaits p (unitLoop remaining fuel bytes >>= g).run outReq inReq bus)
    (hs : M.Even s) : Settles F ⟨p, (cpu.sendBytes data >>= f).run s, bus⟩ := by
  induction data using transferBytesToCpu.induct generalizing bytes n fuel p s bus with
  | case1 => exact absurd rfl hdata
  | case2 b0 =>
      obtain ⟨fuel, rfl⟩ : ∃ k, fuel = k + 1 := ⟨fuel - 1, by omega⟩
      have hn : n = 1 := by
        have hle := hasked.le
        have hpadded := hasked.padded
        simp only [List.length_singleton] at hle hpadded
        omega
      subst hn
      have hstop : ∀ b, untimedLoop remaining (fuel + 1) (bytes ++ [b0]) [b] =
          pure (bytes ++ [b0]) := fun b => untimedLoop_enough hasked.enough
      simp only [unitLoop, bind_assoc] at hawaits
      simp only [CpuSide.sendBytes, bind_assoc, pure_bind]
      refine settles_first_from M hp hawaits (M.send_first b0 hs) ?_
      intro s' bus' hs' hb'
      have hsecond : (receiveSecond b0 >>= fun x =>
          untimedLoop remaining (fuel + 1) (bytes ++ [x.1]) [x.2] >>= g) =
          receiveSecond b0 >>= fun _ => g (bytes ++ [b0]) := by
        simp only [receiveSecond, bind_assoc, pure_bind, hstop]
      rw [hsecond]
      exact hodd rfl b0 s' bus' hs' hb'
  | case3 b0 b1 data ih =>
      obtain ⟨fuel, rfl⟩ : ∃ k, fuel = k + 1 := ⟨fuel - 1, by omega⟩
      have hkeeps : ∀ x : Byte × Byte, Keeps cpuLines
          (untimedLoop remaining (fuel + 1) (bytes ++ [x.1]) [x.2] >>= g).run := fun x =>
        keeps_bind (keeps_untimedLoop _ _ _) hg
      simp only [unitLoop, bind_assoc] at hawaits
      simp only [CpuSide.sendBytes, bind_assoc]
      refine settles_first_from M hp hawaits (M.send_first b0 hs) ?_
      intro s' bus' hs' hb'
      refine settles_second_from M hkeeps hb' (M.send_second b1 hs') ?_
      intro q' bus'' hq' hb''
      dsimp only
      rcases n with _ | _ | n
      · -- at least the first byte is asked for
        have hpadded := hasked.padded
        simp only [List.length_cons] at hpadded
        omega
      · -- the second byte is a pad
        have hnil : data = [] := by
          have hpadded := hasked.padded
          simp only [List.length_cons] at hpadded
          exact List.length_eq_zero_iff.mp (by omega)
        subst hnil
        rw [untimedLoop_enough (by exact hasked.enough), pure_bind]
        exact heven (by simp) q' bus'' hq' hb''
      · have hmore : 0 < remaining (bytes ++ [b0]) := hasked.more 1 (by omega) (by omega)
        rw [untimedLoop_pending hmore, List.append_assoc]
        have hnext := hasked.next
        cases data with
        | nil =>
            obtain ⟨fuel, rfl⟩ : ∃ k, fuel = k + 1 := ⟨fuel - 1, by omega⟩
            have hn : n = 0 := by
              have hle := hnext.le
              simp only [List.length_nil] at hle
              omega
            subst hn
            rw [untimedLoop_enough (by exact hasked.enough), pure_bind]
            exact heven (by simp) q' bus'' hq' hb''
        | cons b2 data =>
            obtain ⟨fuel, rfl⟩ : ∃ k, fuel = k + 1 := ⟨fuel - 1, by omega⟩
            have hpos : 0 < n := by
              have hpadded := hnext.padded
              simp only [List.length_cons] at hpadded
              omega
            have hgo : 0 < remaining (bytes ++ [b0, b1]) := hasked.more 2 (by omega) (by omega)
            have htake : ∀ rest : List Byte, bytes ++ [b0, b1] ++ rest = bytes ++ b0 :: b1 :: rest := by
              intro rest
              rw [List.append_assoc]
              rfl
            change Settles F ⟨(untimedLoop remaining (fuel + 1) (bytes ++ [b0, b1]) [] >>= g).run,
              q', bus''⟩
            rw [untimedLoop_unit hgo]
            -- the I/O board waits for the next unit, so that the last one can end
            refine Settles.right_waits hq' ?_ (stable_of_idle (idle_unitLoop hb''.outDena)) ?_
            · rw [hb''.outDack]
              rfl
            · rintro t ⟨s'', hs'', rfl⟩
              refine ih (List.cons_ne_nil _ _) hnext (by omega) ?_ ?_ ?_ (awaits_unitLoop hb'')
                hs''
              · intro hlen q bus hq hb
                rw [htake]
                exact heven (by simp only [List.length_cons] at hlen ⊢; omega) q bus hq hb
              · intro hlen b s bus hs hb
                rw [htake]
                exact hodd (by simp only [List.length_cons] at hlen ⊢; omega) b s bus hs hb
              · exact keeps_bind (keeps_unitLoop _ _) hg

end Units

section Frames

variable {S : Type} {cpu : CpuSide S}

/-- The processor sends a frame in a session of its own. -/
def CpuSide.sendFrame (cpu : CpuSide S) (frame : List Byte) : StateT S (Prog Bus Unit) Unit := do
  cpu.initiateSend
  cpu.sendBytes frame
  cpu.finalizeSend

/-- Both sides have ended, the I/O board with some bytes, and have left the lines at 0. -/
def Received (bytes : List Byte)
    (x : Pair Bus IoWait Unit (Except String (List Byte)) (Unit × S)) : Prop :=
  (x.left = .done (.ok bytes) ∧ ∃ s, x.right = .done ((), s)) ∧ x.state.Quiet

/-- A frame comes to the I/O board, as far as it asks for it. -/
theorem settles_receiveFramedAdaptive (M : Monitor cpu) {remaining : List Byte → Int}
    {frame : List Byte} (hframe : frame ≠ []) {n fuel : Nat} (hasked : Asked remaining [] frame n)
    (hfuel : n < fuel) (s : S) {bus : Bus} (hbus : bus.Quiet) (hfree : bus.INTERRUPT_BUSY = false) :
    Settles (Received (frame.take n))
      ⟨(receiveFramedAdaptive fuel remaining).run, (cpu.sendFrame frame).run s, bus⟩ := by
  have hb : Calm false false bus :=
    ⟨hfree, hbus.outReq, hbus.outDena, hbus.outDack, hbus.inReq, hbus.inDena, hbus.inDack⟩
  refine Settles.alike ?_ ?_ (alike_receiveFramedAdaptive fuel).symm
  · rintro p q r t halike ⟨⟨hleft, hright⟩, hquiet⟩
    change p = _ at hleft
    subst hleft
    refine ⟨⟨?_, hright⟩, hquiet⟩
    cases q with
    | done b => exact congrArg Prog.done (Eq.symm halike)
    | stop => cases halike
    | access f k => cases halike
    | wait name c k => cases halike
  · have hkeeps : ∀ bytes : List Byte, Keeps cpuLines
        (finalizeReceive >>= fun _ => (pure bytes : Io (List Byte))).run := fun bytes =>
      keeps_bind keeps_wait fun _ => trivial
    -- both sides are at the end of the bytes
    have hanswered : ∀ (q : Prog Bus Unit (Unit × S)) (bus' : Bus),
        Answered false M.Even (fun s' => (cpu.finalizeSend >>= fun _ => pure ()).run s') q →
        Calm true false bus' →
        Settles (Received (frame.take n)) ⟨(finalizeReceive >>= fun _ =>
          (pure (frame.take n) : Io (List Byte))).run, q, bus'⟩ := by
      intro q bus' hq hb'
      have hblocked : Idle (finalizeReceive >>= fun _ =>
          (pure (frame.take n) : Io (List Byte))).run bus' := by
        refine idle_io_wait ?_
        rw [hb'.outReq]
        rfl
      refine Settles.right_waits hq ?_ (stable_of_idle hblocked) ?_
      · rw [hb'.outDack]
        rfl
      · rintro t ⟨s', hs', rfl⟩
        refine M.finalizeSend hs' (hkeeps _) hblocked ?_
        intro s''
        refine settles_wait rfl (stable_of_idle (idle_done _ _)) ?_
        refine Settles.of_idle (idle_done _ _) (idle_done _ _) ⟨⟨rfl, s'', rfl⟩, ?_⟩
        exact ⟨rfl, hb'.outDena, hb'.outDack, hb'.inReq, hb'.inDena, hb'.inDack⟩
    have hrequests := requests_waitForCpuRequest (k := fun _ => unitLoop remaining fuel [] >>=
      fun bytes => finalizeReceive >>= fun _ => (pure bytes : Io (List Byte))) hb
      fun t ht => idle_unitLoop ht
    have hwhole : Keeps cpuLines (untimedFramed fuel remaining).run :=
      keeps_bind keeps_waitForCpuRequest fun _ => keeps_bind (keeps_unitLoop _ _) hkeeps
    have hsend : cpu.sendFrame frame = cpu.initiateSend >>= fun _ => cpu.sendBytes frame >>=
        fun _ => cpu.finalizeSend >>= fun _ => pure () := by
      rw [CpuSide.sendFrame]
      simp only [bind_pure_unit]
    rw [hsend]
    refine M.initiate hwhole hb.outDena hrequests.req ?_
    intro s' hs'
    refine settles_unitLoop M hkeeps frame hframe hasked hfuel ?_ ?_ hwhole hrequests.awaits hs'
    · exact fun _ q bus' hq hb' => hanswered q bus' hq hb'
    · intro _ b s'' bus' hs'' hb'
      refine settles_second_from M (fun _ => hkeeps _) hb' (M.finalizeSend_flush hs'') ?_
      exact fun q bus'' hq hb'' => hanswered q bus'' hq hb''

end Frames

end Handshake
end RetroCpu
