import RetroCpu.Handshake.Monitor

/-!
# The I/O board's side of the handshake, access by access

Rules that execute an operation of the I/O board while the processor waits.
-/

namespace RetroCpu
namespace Handshake

open Interleave

section Steps

variable {α β : Type} {F : Pair Bus IoWait Unit (Except String α) β → Prop}
  {q : Prog Bus Unit β} {bus : Bus} {g : Unit → Io α} {f : Bus → Bus} {c : Bus → Bool}
  {name : IoWait}

theorem settles_drive (hfree : Free f (fun _ => ()) q bus)
    (h : Settles F ⟨(g ()).run, q, f bus⟩) : Settles F ⟨(drive f >>= g).run, q, bus⟩ :=
  Settles.left_access hfree.const h

theorem settles_wait (hc : c bus = true) (hstable : Stable c q bus)
    (h : Settles F ⟨(g ()).run, q, bus⟩) : Settles F ⟨(wait name c >>= g).run, q, bus⟩ :=
  Settles.left_wait hc hstable fun _ => h

theorem settles_sample {γ : Type} {read : Bus → γ} {g : γ → Io α} (hidle : Idle q bus)
    (h : Settles F ⟨(g (read bus)).run, q, bus⟩) :
    Settles F ⟨(sample read >>= g).run, q, bus⟩ :=
  Settles.left_access (free_of_idle hidle) h

theorem idle_io_wait (hc : c bus = false) : Idle (wait name c >>= g).run bus := idle_wait hc

variable {d : Bus → Bus}

theorem free_drive (hcomm : f (d bus) = d (f bus))
    (h : Free f (fun _ => ()) (g ()).run (d bus)) :
    Free f (fun _ => ()) (drive d >>= g).run bus := ⟨rfl, hcomm, rfl, h⟩

theorem free_wait (hc : c bus = true → c (f bus) = true)
    (h : c bus = true → Free f (fun _ => ()) (g ()).run bus) :
    Free f (fun _ => ()) (wait name c >>= g).run bus := fun hpass => ⟨hc hpass, fun _ => h hpass⟩

theorem free_blocked (hc : c bus = false) : Free f (fun _ => ()) (wait name c >>= g).run bus :=
  free_of_idle (idle_io_wait hc)

end Steps

section Keeps

variable {α γ τ : Type} {own : Bus → τ}

theorem keeps_bind {m : Io γ} {g : γ → Io α} (hm : Keeps own m.run)
    (hg : ∀ a, Keeps own (g a).run) : Keeps own (m >>= g).run := by
  refine Keeps.bind hm ?_
  rintro (e | a)
  · trivial
  · exact hg a

theorem keeps_drive {f : Bus → Bus} (h : ∀ bus, own (f bus) = own bus) :
    Keeps own (drive f).run := ⟨h, fun _ => trivial⟩

theorem keeps_sample {read : Bus → γ} : Keeps own (sample read).run :=
  ⟨fun _ => rfl, fun _ => trivial⟩

theorem keeps_wait {name : IoWait} {c : Bus → Bool} : Keeps own (wait name c).run :=
  fun _ => trivial

/-- The I/O board leaves the lines of the processor alone. -/
theorem keeps_initiateSend (raiseIrq : Bool) : Keeps cpuLines (initiateSend raiseIrq).run := by
  have hdrives : Keeps cpuLines (do
      drive fun bus => { bus with HSHK_IN_DENA := false }
      drive fun bus => { bus with INT_CAUSE := INT_CAUSE_HANDSHAKE }
      drive fun bus => { bus with HSHK_IN_REQ := true } : Io Unit).run :=
    keeps_bind (keeps_drive fun _ => rfl) fun _ =>
      keeps_bind (keeps_drive fun _ => rfl) fun _ => keeps_drive fun _ => rfl
  cases raiseIrq with
  | false =>
      refine keeps_bind keeps_wait fun _ => ?_
      refine keeps_bind (keeps_drive fun _ => rfl) fun _ => ?_
      refine keeps_bind (keeps_drive fun _ => rfl) fun _ => ?_
      exact keeps_bind (keeps_drive fun _ => rfl) fun _ => keeps_wait
  | true => exact keeps_bind keeps_wait fun _ => hdrives

theorem keeps_transferUnitToCpu (b0 b1 : Byte) :
    Keeps cpuLines (transferUnitToCpu b0 b1).run := by
  refine keeps_bind (keeps_drive fun _ => rfl) fun _ => ?_
  refine keeps_bind (keeps_drive fun _ => rfl) fun _ => ?_
  refine keeps_bind keeps_wait fun _ => ?_
  refine keeps_bind (keeps_drive fun _ => rfl) fun _ => ?_
  exact keeps_bind (keeps_drive fun _ => rfl) fun _ => keeps_wait

theorem keeps_transferBytesToCpu (data : List Byte) :
    Keeps cpuLines (transferBytesToCpu data).run := by
  induction data using transferBytesToCpu.induct with
  | case1 => trivial
  | case2 b0 => exact keeps_transferUnitToCpu b0 0
  | case3 b0 b1 data ih => exact keeps_bind (keeps_transferUnitToCpu b0 b1) fun _ => ih

theorem keeps_finalizeSend : Keeps cpuLines finalizeSend.run :=
  keeps_bind keeps_wait fun _ => keeps_drive fun _ => rfl

theorem keeps_waitForCpuRequest : Keeps cpuLines waitForCpuRequest.run :=
  keeps_bind keeps_wait fun _ => keeps_drive fun _ => rfl

theorem keeps_receiveUnitFromCpu : Keeps cpuLines receiveUnitFromCpu.run := by
  refine keeps_bind keeps_wait fun _ => ?_
  refine keeps_bind keeps_sample fun _ => ?_
  refine keeps_bind (keeps_drive fun _ => rfl) fun _ => ?_
  refine keeps_bind keeps_wait fun _ => ?_
  refine keeps_bind keeps_sample fun _ => ?_
  exact keeps_bind (keeps_drive fun _ => rfl) fun _ => trivial

theorem keeps_receiveBytesFromCpu (n : Nat) : Keeps cpuLines (receiveBytesFromCpu n).run := by
  induction n using receiveBytesFromCpu.induct with
  | case1 => trivial
  | case2 => exact keeps_bind keeps_receiveUnitFromCpu fun _ => trivial
  | case3 n ih =>
      exact keeps_bind keeps_receiveUnitFromCpu fun _ => keeps_bind ih fun _ => trivial

theorem keeps_ioTurns (turns : List Turn) : Keeps cpuLines (ioTurns turns).run := by
  induction turns using ioTurns.induct with
  | case1 => trivial
  | case2 data turns ih => exact keeps_bind (keeps_transferBytesToCpu data) fun _ => ih
  | case3 data turns ih =>
      exact keeps_bind (keeps_receiveBytesFromCpu data.length) fun _ =>
        keeps_bind ih fun _ => trivial

theorem keeps_ioSession (session : Session) : Keeps cpuLines (ioSession session).run := by
  cases session with
  | fromCpu data =>
      refine keeps_bind keeps_waitForCpuRequest fun _ => ?_
      refine keeps_bind (keeps_receiveBytesFromCpu data.length) fun _ => ?_
      exact keeps_bind keeps_wait fun _ => trivial
  | toCpu raiseIrq turns =>
      refine keeps_bind (keeps_initiateSend raiseIrq) fun _ => ?_
      refine keeps_bind (keeps_ioTurns turns) fun _ => ?_
      exact keeps_bind keeps_finalizeSend fun _ => trivial

theorem keeps_ioScript (script : List Session) : Keeps cpuLines (ioScript script).run := by
  induction script with
  | nil => trivial
  | cons session script ih =>
      exact keeps_bind (keeps_ioSession session) fun _ => keeps_bind ih fun _ => trivial

end Keeps

end Handshake
end RetroCpu
