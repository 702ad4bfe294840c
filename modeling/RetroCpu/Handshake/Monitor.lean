import RetroCpu.Handshake.Sessions

/-!
# What the routines of a monitor do to the lines

`Monitor` lists it for each routine and each state of the pair: which line the routine waits
for, and which lines it drives before it goes on.  `Takes` and `Gives` are the two halves of
a unit in each direction.
-/

namespace RetroCpu
namespace Handshake

open Interleave

section Lines

/-- The lines that the processor drives. -/
def cpuLines (bus : Bus) : Bool × Bool × Bool × Byte :=
  (bus.HSHK_OUT_REQ, bus.HSHK_OUT_DENA, bus.HSHK_IN_DACK, bus.HSHK_OUT_DATA)

def reqOut (v : Bool) (bus : Bus) : Bus := { bus with HSHK_OUT_REQ := v }
def denaOut (v : Bool) (bus : Bus) : Bus := { bus with HSHK_OUT_DENA := v }
def dataOut (b : Byte) (bus : Bus) : Bus := { bus with HSHK_OUT_DATA := b }
def dackIn (v : Bool) (bus : Bus) : Bus := { bus with HSHK_IN_DACK := v }

/-- A line that is low is not changed by lowering it. -/
theorem denaOut_low {bus : Bus} (h : bus.HSHK_OUT_DENA = false) : denaOut false bus = bus := by
  rcases bus with ⟨busy, cause, outReq, outDena⟩
  cases h
  rfl

theorem dackIn_low {bus : Bus} (h : bus.HSHK_IN_DACK = false) : dackIn false bus = bus := by
  rcases bus with ⟨busy, cause, outReq, outDena, outDack, outData, inReq, inDena, inDack⟩
  cases h
  rfl

theorem free_dena_low {β : Type} {p : Prog Bus IoWait β} {bus : Bus} (hp : Keeps cpuLines p)
    (h : bus.HSHK_OUT_DENA = false) :
    Free (denaOut false) (fun _ => ()) p bus := by
  refine free_of_keeps (v := cpuLines bus) ?_ (fun _ _ _ _ => rfl) hp rfl
  intro t ht
  simp only [cpuLines, Prod.mk.injEq] at ht
  exact denaOut_low (ht.2.1.trans h)

theorem free_dack_low {β : Type} {p : Prog Bus IoWait β} {bus : Bus} (hp : Keeps cpuLines p)
    (h : bus.HSHK_IN_DACK = false) :
    Free (dackIn false) (fun _ => ()) p bus := by
  refine free_of_keeps (v := cpuLines bus) ?_ (fun _ _ _ _ => rfl) hp rfl
  intro t ht
  simp only [cpuLines, Prod.mk.injEq] at ht
  exact dackIn_low (ht.2.2.1.trans h)

theorem setWidth_byte (b : Byte) : (b.setWidth 16 : BitVec 16).setWidth 8 = b := by
  rw [BitVec.setWidth_setWidth_of_le b (by decide), BitVec.setWidth_eq]

end Lines

section Halves

variable {S α : Type}

/-- The program answers the half `dena` of a unit and goes on with the byte. -/
def Answers (dena : Bool) (After : S → Prop) (r : Byte → S → Prog Bus Unit α)
    (q : Prog Bus Unit α) : Prop :=
  ∀ ⦃β : Type⦄ ⦃F : Pair Bus IoWait Unit β α → Prop⦄ ⦃p : Prog Bus IoWait β⦄ ⦃bus : Bus⦄,
    Keeps cpuLines p → Idle p bus →
    (∀ s, After s → Settles F ⟨p, r bus.HSHK_IN_DATA s, dackIn dena bus⟩) →
    Settles F ⟨p, q, bus⟩

/-- The program waits for the half `dena` of a unit and answers it. -/
def Takes (dena : Bool) (After : S → Prop) (r : Byte → S → Prog Bus Unit α) :
    Prog Bus Unit α → Prop :=
  Waits (fun bus => bus.HSHK_IN_DENA == dena) (Answers dena After r)

/-- The program waits for the answer to the half `dena` of a unit. -/
def Answered (dena : Bool) (After : S → Prop) (r : S → Prog Bus Unit α) :
    Prog Bus Unit α → Prop :=
  Waits (fun bus => bus.HSHK_OUT_DACK == dena) fun q => ∃ s, After s ∧ q = r s

/-- The program puts out the half `dena` of a unit and waits for the answer. -/
def Gives (dena : Bool) (b : Byte) (After : S → Prop) (r : S → Prog Bus Unit α)
    (q : Prog Bus Unit α) : Prop :=
  ∀ ⦃β : Type⦄ ⦃F : Pair Bus IoWait Unit β α → Prop⦄ ⦃p : Prog Bus IoWait β⦄ ⦃bus : Bus⦄,
    Keeps cpuLines p → Free (dataOut b) (fun _ => ()) p bus →
    Free (denaOut dena) (fun _ => ()) p (dataOut b bus) →
    (∀ q', Answered dena After r q' → Settles F ⟨p, q', denaOut dena (dataOut b bus)⟩) →
    Settles F ⟨p, q, bus⟩

variable {dena : Bool} {b : Byte} {After After' : S → Prop}

theorem Takes.mono {r r' : Byte → S → Prog Bus Unit α} {q : Prog Bus Unit α}
    (hq : Takes dena After r q) (h : ∀ b s, After s → ∃ s', After' s' ∧ r b s = r' b s') :
    Takes dena After' r' q := by
  refine Waits.mono hq ?_
  intro t ht β F p bus hp hidle hnext
  refine ht hp hidle ?_
  intro s hs
  obtain ⟨s', hs', hr⟩ := h bus.HSHK_IN_DATA s hs
  rw [hr]
  exact hnext s' hs'

theorem Gives.mono {r r' : S → Prog Bus Unit α} {q : Prog Bus Unit α}
    (hq : Gives dena b After r q) (h : ∀ s, After s → ∃ s', After' s' ∧ r s = r' s') :
    Gives dena b After' r' q := by
  intro β F p bus hp hdata hdena hnext
  refine hq hp hdata hdena ?_
  intro q' hq'
  refine hnext q' (Waits.mono hq' ?_)
  rintro t ⟨s, hs, rfl⟩
  exact h s hs

end Halves

section Contract

variable {S : Type}

/-- What the routines of a monitor do to the lines, in each state of the pair.  `flushes`
says whether a half of a unit is completed when the direction changes. -/
structure Monitor (cpu : CpuSide S) where
  flushes : Bool
  Even : S → Prop
  RecvHalf : S → Prop
  SendHalf : S → Prop
  initiate {α β : Type} {F : Pair Bus IoWait Unit β (α × S) → Prop} {p : Prog Bus IoWait β}
    {g : Unit → StateT S (Prog Bus Unit) α} {s : S} {bus : Bus}
    (hp : Keeps cpuLines p) (hdena : bus.HSHK_OUT_DENA = false)
    (hreq : Free (reqOut true) (fun _ => ()) p bus)
    (h : ∀ s', Even s' → Settles F ⟨p, (g ()).run s', reqOut true bus⟩) :
    Settles F ⟨p, (cpu.initiateSend >>= g).run s, bus⟩
  accept {α β : Type} {F : Pair Bus IoWait Unit β (α × S) → Prop} {p : Prog Bus IoWait β}
    {g : Unit → StateT S (Prog Bus Unit) α} {s : S} {bus : Bus}
    (hp : Keeps cpuLines p) (hdack : bus.HSHK_IN_DACK = false)
    (h : ∀ s', Even s' → Settles F ⟨p, (g ()).run s', bus⟩) :
    Settles F ⟨p, (cpu.acceptRequest >>= g).run s, bus⟩
  recv_first {α : Type} {g : Byte → StateT S (Prog Bus Unit) α} {s : S} (hs : Even s) :
    Takes true RecvHalf (fun b s' => (g b).run s') ((cpu.recvByte >>= g).run s)
  recv_second {α : Type} {g : Byte → StateT S (Prog Bus Unit) α} {s : S} (hs : RecvHalf s) :
    Takes false Even (fun b s' => (g b).run s') ((cpu.recvByte >>= g).run s)
  recv_flush {α : Type} {g : Byte → StateT S (Prog Bus Unit) α} {s : S}
    (hflush : flushes = true) (hs : SendHalf s) :
    Gives false 0 Even (fun s' => (cpu.recvByte >>= g).run s') ((cpu.recvByte >>= g).run s)
  send_first {α : Type} {g : Unit → StateT S (Prog Bus Unit) α} {s : S} (b : Byte) (hs : Even s) :
    Gives true b SendHalf (fun s' => (g ()).run s') ((cpu.sendByte b >>= g).run s)
  send_second {α : Type} {g : Unit → StateT S (Prog Bus Unit) α} {s : S} (b : Byte)
    (hs : SendHalf s) : Gives false b Even (fun s' => (g ()).run s') ((cpu.sendByte b >>= g).run s)
  send_flush {α : Type} {g : Unit → StateT S (Prog Bus Unit) α} {s : S} (b : Byte)
    (hflush : flushes = true) (hs : RecvHalf s) :
    Takes false Even (fun _ s' => (cpu.sendByte b >>= g).run s') ((cpu.sendByte b >>= g).run s)
  finalizeSend {α β : Type} {F : Pair Bus IoWait Unit β (α × S) → Prop} {p : Prog Bus IoWait β}
    {g : Unit → StateT S (Prog Bus Unit) α} {s : S} {bus : Bus} (hs : Even s)
    (hp : Keeps cpuLines p) (hidle : Idle p bus)
    (h : ∀ s', Settles F ⟨p, (g ()).run s', reqOut false bus⟩) :
    Settles F ⟨p, (cpu.finalizeSend >>= g).run s, bus⟩
  finalizeSend_flush {α : Type} {g : Unit → StateT S (Prog Bus Unit) α} {s : S}
    (hs : SendHalf s) :
    Gives false 0 Even (fun s' => (cpu.finalizeSend >>= g).run s') ((cpu.finalizeSend >>= g).run s)
  finalizeRecv {α β : Type} {F : Pair Bus IoWait Unit β (α × S) → Prop} {p : Prog Bus IoWait β}
    {g : Unit → StateT S (Prog Bus Unit) α} {s : S} {bus : Bus} (hs : Even s)
    (hp : Keeps cpuLines p) (hdena : bus.HSHK_OUT_DENA = false)
    (h : ∀ s', Settles F ⟨p, (g ()).run s', bus⟩) :
    Settles F ⟨p, (cpu.finalizeRecv >>= g).run s, bus⟩
  finalizeRecv_flush {α β : Type} {F : Pair Bus IoWait Unit β (α × S) → Prop}
    {p : Prog Bus IoWait β} {g : Unit → StateT S (Prog Bus Unit) α} {s : S} {bus : Bus}
    (hs : RecvHalf s) (hp : Keeps cpuLines p) (hdena : bus.HSHK_OUT_DENA = false)
    (h : ∀ q, Takes false Even (fun _ s' => (g ()).run s') q → Settles F ⟨p, q, bus⟩) :
    Settles F ⟨p, (cpu.finalizeRecv >>= g).run s, bus⟩
  finalizeRecv_send {α β : Type} {F : Pair Bus IoWait Unit β (α × S) → Prop}
    {p : Prog Bus IoWait β} {g : Unit → StateT S (Prog Bus Unit) α} {s : S} {bus : Bus}
    (hflush : flushes = true) (hs : SendHalf s) (hp : Keeps cpuLines p) (hidle : Idle p bus)
    (h : ∀ q, Gives false 0 Even (fun s' => (g ()).run s') q →
      Settles F ⟨p, q, denaOut false bus⟩) :
    Settles F ⟨p, (cpu.finalizeRecv >>= g).run s, bus⟩

end Contract

end Handshake
end RetroCpu
