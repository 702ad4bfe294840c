import RetroCpu.EmuTs.HshkAgent

/-!
# When the two directions block each other

A call that holds the lock waits for `HSHK_OUT_REQ` = 0, and a CPU whose request is up waits
for the `handleOneRequest` behind that call.  This happens exactly when a request comes up
before a call that has not started, or a call is made before the loop has seen a request.
-/

namespace RetroCpu
namespace HshkAgent

section Claims

/-- The lock is held by a call that waits for `HSHK_OUT_REQ` = 0, and the CPU waits to be
served. -/
def Deadlock (s : State) : Prop := s.holder = some .callWait ∧ s.cpu = .send

/-- A call is on the bus while the request of the CPU is up. -/
def Overlap (s : State) : Prop := s.holder = some .callTransfer ∧ s.HSHK_OUT_REQ = true

/-- Nothing is left to do: every request is served, and every call is answered. -/
structure AtRest (s : State) : Prop where
  holder : s.holder = none
  queue : s.queue = []
  cpu : s.cpu = .run
  served : s.served = s.raised
  answered : s.answered = s.called

/-- However the two sides go on by themselves, they come to rest. -/
inductive Settles : State → Prop
  | intro {s : State} (steps : ∀ event s', event.Internal → step s event = some s' → Settles s')
      (rest : (∀ event, event.Internal → step s event = none) → AtRest s) : Settles s

/-- The request of the CPU is in the hands of `handleOneRequest`. -/
def Expected (s : State) : Prop :=
  s.holder = some .serveWait ∨ s.holder = some .serveReceive ∨ s.holder = some .serveReceiveEnd ∨
    .serve ∈ s.queue

/-- The condition on an event: no call is made while a request is up that the loop has not
seen, and no request comes up while a call waits for the bus or for the CPU. -/
def Clear (s : State) : Event → Prop
  | .call => s.HSHK_OUT_REQ = true → Expected s
  | .raise => s.holder ≠ some .callWait ∧ s.holder ≠ some .callTransfer ∧ .call ∉ s.queue
  | _ => True

/-- No condition. -/
def Any (_ : State) (_ : Event) : Prop := True

/-- The states of the runs whose events meet a condition. -/
inductive Reached (condition : State → Event → Prop) : State → Prop
  | start : Reached condition {}
  | step {s s' : State} {event : Event} : Reached condition s → condition s event →
      step s event = some s' → Reached condition s'

end Claims

section Shapes

/-- `n` calls in the queue. -/
abbrev calls (n : Nat) : List Op := List.replicate n .call

/-- The states of such runs, each with the requests and the calls that are not over and a bound
on the steps that are left. -/
inductive Shape : Option Holder → List Op → (polling : Bool) → Cpu → (irq busy outReq inReq : Bool) →
    (requests calls steps : Nat) → Prop
  | idle : Shape none [] true .run false false false false 0 0 0
  | idleBusy : Shape none [] true .handlerEnd false true false false 0 0 1
  | idleRaised : Shape none [] true .send false false true false 1 0 40
  | callWait (n : Nat) :
      Shape (some .callWait) (calls n) true .run false false false false 0 (n + 1) (10 * n + 8)
  | callWaitBusy (n : Nat) :
      Shape (some .callWait) (calls n) true .handlerEnd false true false false 0 (n + 1)
        (10 * n + 9)
  | callAsked (n : Nat) :
      Shape (some .callTransfer) (calls n) true .run true false false true 0 (n + 1) (10 * n + 6)
  | callTaken (n : Nat) :
      Shape (some .callTransfer) (calls n) true .handler false true false true 0 (n + 1)
        (10 * n + 5)
  | callEndBusy (n : Nat) :
      Shape (some .callEnd) (calls n) true .handlerEnd false true false true 0 (n + 1) (10 * n + 4)
  | callEnd (n : Nat) :
      Shape (some .callEnd) (calls n) true .run false false false true 0 (n + 1) (10 * n + 2)
  | callEndRaised : Shape (some .callEnd) [] true .send false false true true 1 1 45
  | callEndSeen (n : Nat) :
      Shape (some .callEnd) (.serve :: calls n) false .send false false true true 1 (n + 1)
        (10 * n + 35)
  | serveWait (n : Nat) :
      Shape (some .serveWait) (calls n) false .send false false true false 1 n (10 * n + 30)
  | serveReceive (n : Nat) :
      Shape (some .serveReceive) (calls n) false .send false false true false 1 n (10 * n + 29)
  | serveSent (n : Nat) :
      Shape (some .serveReceiveEnd) (calls n) false .sent false false true false 1 n (10 * n + 28)
  | serveReceiveEnd (n : Nat) :
      Shape (some .serveReceiveEnd) (calls n) false .waitReply false false false false 1 n
        (10 * n + 27)
  | serveForward (n : Nat) :
      Shape (some .serveForward) (calls n) false .waitReply false false false false 1 n
        (10 * n + 26)
  | replyWait (n : Nat) :
      Shape (some .replyWait) (calls n) false .waitReply false false false false 1 n (10 * n + 25)
  | replyStart (n : Nat) :
      Shape (some .replyStart) (calls n) false .waitReply false false false true 1 n (10 * n + 24)
  | replyTransfer (n : Nat) :
      Shape (some .replyTransfer) (calls n) false .waitReply false false false true 1 n
        (10 * n + 23)
  | replyEnd (n : Nat) :
      Shape (some .replyEnd) (calls n) false .run false false false true 1 n (10 * n + 22)
  | replyEndRaised : Shape (some .replyEnd) [] false .send false false true true 2 0 45

/-- A state with a shape, at most `steps` from rest. -/
def Within (steps : Nat) (s : State) : Prop :=
  ∃ requests calls, Shape s.holder s.queue s.polling s.cpu s.irq s.INTERRUPT_BUSY s.HSHK_OUT_REQ
    s.HSHK_IN_REQ requests calls steps ∧
    s.raised = s.served + requests ∧ s.called = s.answered + calls

variable {s s' : State} {m : Nat}

theorem calls_succ (n : Nat) : calls n ++ [.call] = calls (n + 1) := List.replicate_succ'.symm

/-- A call behind the operations that are there; a request that is up is in their hands. -/
theorem Shape.enqueue {o : Holder} {queue : List Op} {polling : Bool} {cpu : Cpu}
    {irq busy outReq inReq : Bool} {requests pending : Nat}
    (h : Shape (some o) queue polling cpu irq busy outReq inReq requests pending m)
    (hclear : outReq = true → o = .serveWait ∨ o = .serveReceive ∨ o = .serveReceiveEnd ∨
      .serve ∈ queue) :
    ∃ m', Shape (some o) (queue ++ [.call]) polling cpu irq busy outReq inReq requests (pending + 1)
      m' := by
  cases h with
  | callWait n =>
      rw [calls_succ]
      exact ⟨_, .callWait (n + 1)⟩
  | callWaitBusy n =>
      rw [calls_succ]
      exact ⟨_, .callWaitBusy (n + 1)⟩
  | callAsked n =>
      rw [calls_succ]
      exact ⟨_, .callAsked (n + 1)⟩
  | callTaken n =>
      rw [calls_succ]
      exact ⟨_, .callTaken (n + 1)⟩
  | callEndBusy n =>
      rw [calls_succ]
      exact ⟨_, .callEndBusy (n + 1)⟩
  | callEnd n =>
      rw [calls_succ]
      exact ⟨_, .callEnd (n + 1)⟩
  | callEndRaised =>
      rcases hclear rfl with h | h | h | h
      all_goals cases h
  | callEndSeen n =>
      rw [List.cons_append, calls_succ]
      exact ⟨_, .callEndSeen (n + 1)⟩
  | serveWait =>
      rw [calls_succ]
      exact ⟨_, .serveWait (pending + 1)⟩
  | serveReceive =>
      rw [calls_succ]
      exact ⟨_, .serveReceive (pending + 1)⟩
  | serveSent =>
      rw [calls_succ]
      exact ⟨_, .serveSent (pending + 1)⟩
  | serveReceiveEnd =>
      rw [calls_succ]
      exact ⟨_, .serveReceiveEnd (pending + 1)⟩
  | serveForward =>
      rw [calls_succ]
      exact ⟨_, .serveForward (pending + 1)⟩
  | replyWait =>
      rw [calls_succ]
      exact ⟨_, .replyWait (pending + 1)⟩
  | replyStart =>
      rw [calls_succ]
      exact ⟨_, .replyStart (pending + 1)⟩
  | replyTransfer =>
      rw [calls_succ]
      exact ⟨_, .replyTransfer (pending + 1)⟩
  | replyEnd =>
      rw [calls_succ]
      exact ⟨_, .replyEnd (pending + 1)⟩
  | replyEndRaised =>
      rcases hclear rfl with h | h | h | h
      all_goals cases h

theorem within_call (h : Within m s) (hclear : Clear s .call) : ∃ m', Within m' (call s) := by
  obtain ⟨holder, queue, polling, cpu, irq, busy, outReq, inReq, raised, served, called,
    answered⟩ := s
  obtain ⟨requests, pending, hshape, hraised, hcalled⟩ := h
  dsimp only at hshape hraised hcalled
  have hcalled' : called + 1 = answered + (pending + 1) := by omega
  cases holder with
  | none =>
      cases hshape with
      | idle => exact ⟨_, _, _, .callWait 0, hraised, hcalled'⟩
      | idleBusy => exact ⟨_, _, _, .callWaitBusy 0, hraised, hcalled'⟩
      | idleRaised =>
          rcases hclear rfl with h | h | h | h
          all_goals cases h
  | some o =>
      have hclear' : outReq = true → o = .serveWait ∨ o = .serveReceive ∨ o = .serveReceiveEnd ∨
          .serve ∈ queue := by
        intro hup
        rcases hclear hup with hwait | hreceive | hend | hqueue
        · exact .inl (Option.some.inj hwait)
        · exact .inr (.inl (Option.some.inj hreceive))
        · exact .inr (.inr (.inl (Option.some.inj hend)))
        · exact .inr (.inr (.inr hqueue))
      obtain ⟨m', hshape'⟩ := hshape.enqueue hclear'
      exact ⟨m', _, _, hshape', hraised, hcalled'⟩

theorem within_raise (h : Within m s) (hclear : Clear s .raise) (hstep : raise s = some s') :
    ∃ m', Within m' s' := by
  obtain ⟨holder, queue, polling, cpu, irq, busy, outReq, inReq, raised, served, called,
    answered⟩ := s
  obtain ⟨requests, pending, hshape, hraised, hcalled⟩ := h
  dsimp only at hshape hraised hcalled
  have hraised' : raised + 1 = served + (requests + 1) := by omega
  obtain ⟨hwait, htransfer, hqueue⟩ := hclear
  have hnone : ∀ n, Op.call ∉ calls n → n = 0 := by
    intro n hn
    cases n with
    | zero => rfl
    | succ n => exact absurd List.mem_cons_self hn
  cases hshape with
  | idle =>
      cases hstep
      exact ⟨_, _, _, .idleRaised, hraised', hcalled⟩
  | callWait n => exact absurd rfl hwait
  | callAsked n => exact absurd rfl htransfer
  | callEnd n =>
      obtain rfl := hnone n hqueue
      cases hstep
      exact ⟨_, _, _, .callEndRaised, hraised', hcalled⟩
  | replyEnd =>
      obtain rfl := hnone pending hqueue
      cases hstep
      exact ⟨_, _, _, .replyEndRaised, hraised', hcalled⟩
  | _ => cases hstep

theorem within_poll (h : Within m s) (hstep : poll s = some s') : ∃ m' < m, Within m' s' := by
  obtain ⟨holder, queue, polling, cpu, irq, busy, outReq, inReq, raised, served, called,
    answered⟩ := s
  obtain ⟨requests, pending, hshape, hraised, hcalled⟩ := h
  dsimp only at hshape hraised hcalled
  cases hshape with
  | idleRaised =>
      cases hstep
      exact ⟨_, by omega, _, _, .serveWait 0, hraised, hcalled⟩
  | callEndRaised =>
      cases hstep
      exact ⟨_, by omega, _, _, .callEndSeen 0, hraised, hcalled⟩
  | _ => cases hstep

/-- The lock goes to the next call, or it is free. -/
theorem within_agent (h : Within m s) (hstep : agent s = some s') : ∃ m' < m, Within m' s' := by
  obtain ⟨holder, queue, polling, cpu, irq, busy, outReq, inReq, raised, served, called,
    answered⟩ := s
  obtain ⟨requests, pending, hshape, hraised, hcalled⟩ := h
  dsimp only at hshape hraised hcalled
  have hanswered : ∀ n, called = answered + (n + 1) → called = answered + 1 + n := by omega
  have hserved : ∀ n, raised = served + (n + 1) → raised = served + 1 + n := by omega
  cases hshape with
  | callWait n =>
      cases hstep
      exact ⟨_, by omega, _, _, .callAsked n, hraised, hcalled⟩
  | callEndBusy n =>
      cases hstep
      cases n with
      | zero => exact ⟨_, by omega, _, _, .idleBusy, hraised, hcalled⟩
      | succ n => exact ⟨_, by omega, _, _, .callWaitBusy n, hraised, hanswered _ hcalled⟩
  | callEnd n =>
      cases hstep
      cases n with
      | zero => exact ⟨_, by omega, _, _, .idle, hraised, hcalled⟩
      | succ n => exact ⟨_, by omega, _, _, .callWait n, hraised, hanswered _ hcalled⟩
  | callEndRaised =>
      cases hstep
      exact ⟨_, by omega, _, _, .idleRaised, hraised, hcalled⟩
  | callEndSeen n =>
      cases hstep
      exact ⟨_, by omega, _, _, .serveWait _, hraised, hanswered _ hcalled⟩
  | serveWait =>
      cases hstep
      exact ⟨_, by omega, _, _, .serveReceive _, hraised, hcalled⟩
  | serveReceiveEnd =>
      cases hstep
      exact ⟨_, by omega, _, _, .serveForward _, hraised, hcalled⟩
  | serveForward =>
      cases hstep
      exact ⟨_, by omega, _, _, .replyWait _, hraised, hcalled⟩
  | replyWait =>
      cases hstep
      exact ⟨_, by omega, _, _, .replyStart _, hraised, hcalled⟩
  | replyStart =>
      cases hstep
      exact ⟨_, by omega, _, _, .replyTransfer _, hraised, hcalled⟩
  | replyEnd =>
      cases hstep
      cases pending with
      | zero => exact ⟨_, by omega, _, _, .idle, hraised, hcalled⟩
      | succ n => exact ⟨_, by omega, _, _, .callWait n, hraised, hcalled⟩
  | replyEndRaised =>
      cases hstep
      exact ⟨_, by omega, _, _, .idleRaised, hserved _ hraised, hcalled⟩
  | _ => cases hstep

theorem within_accept (h : Within m s) (hstep : accept s = some s') : ∃ m' < m, Within m' s' := by
  obtain ⟨holder, queue, polling, cpu, irq, busy, outReq, inReq, raised, served, called,
    answered⟩ := s
  obtain ⟨requests, pending, hshape, hraised, hcalled⟩ := h
  dsimp only at hshape hraised hcalled
  cases hshape with
  | callAsked n =>
      cases hstep
      exact ⟨_, by omega, _, _, .callTaken n, hraised, hcalled⟩
  | _ => cases hstep

theorem within_cpu (h : Within m s) (hstep : cpu s = some s') : ∃ m' < m, Within m' s' := by
  obtain ⟨holder, queue, polling, cpu, irq, busy, outReq, inReq, raised, served, called,
    answered⟩ := s
  obtain ⟨requests, pending, hshape, hraised, hcalled⟩ := h
  dsimp only at hshape hraised hcalled
  cases hshape with
  | idleBusy =>
      cases hstep
      exact ⟨_, by omega, _, _, .idle, hraised, hcalled⟩
  | callWaitBusy n =>
      cases hstep
      exact ⟨_, by omega, _, _, .callWait n, hraised, hcalled⟩
  | callEndBusy n =>
      cases hstep
      exact ⟨_, by omega, _, _, .callEnd n, hraised, hcalled⟩
  | serveSent =>
      cases hstep
      exact ⟨_, by omega, _, _, .serveReceiveEnd _, hraised, hcalled⟩
  | _ => cases hstep

theorem within_transfer (h : Within m s) (hstep : transfer s = some s') :
    ∃ m' < m, Within m' s' := by
  obtain ⟨holder, queue, polling, cpu, irq, busy, outReq, inReq, raised, served, called,
    answered⟩ := s
  obtain ⟨requests, pending, hshape, hraised, hcalled⟩ := h
  dsimp only at hshape hraised hcalled
  cases hshape with
  | callTaken n =>
      cases hstep
      exact ⟨_, by omega, _, _, .callEndBusy n, hraised, hcalled⟩
  | serveReceive =>
      cases hstep
      exact ⟨_, by omega, _, _, .serveSent _, hraised, hcalled⟩
  | replyTransfer =>
      cases hstep
      exact ⟨_, by omega, _, _, .replyEnd _, hraised, hcalled⟩
  | _ => cases hstep

end Shapes

section Runs

variable {s s' : State} {m : Nat} {event : Event}

theorem within_internal (h : Within m s) (hinternal : event.Internal)
    (hstep : step s event = some s') : ∃ m' < m, Within m' s' := by
  cases event with
  | call => exact absurd rfl hinternal.1
  | raise => exact absurd rfl hinternal.2
  | poll => exact within_poll h hstep
  | agent => exact within_agent h hstep
  | accept => exact within_accept h hstep
  | cpu => exact within_cpu h hstep
  | transfer => exact within_transfer h hstep

theorem within_step (h : Within m s) (hclear : Clear s event) (hstep : step s event = some s') :
    ∃ m', Within m' s' := by
  by_cases hinternal : event.Internal
  · obtain ⟨m', -, h'⟩ := within_internal h hinternal hstep
    exact ⟨m', h'⟩
  · cases event with
    | call =>
        cases hstep
        exact within_call h hclear
    | raise => exact within_raise h hclear hstep
    | _ => exact absurd (by decide) hinternal

/-- A state that is not at rest has a step of its own. -/
theorem exists_internal (h : Within m s) :
    AtRest s ∨ ∃ event s', event.Internal ∧ step s event = some s' := by
  obtain ⟨holder, queue, polling, cpu, irq, busy, outReq, inReq, raised, served, called,
    answered⟩ := s
  obtain ⟨requests, pending, hshape, hraised, hcalled⟩ := h
  dsimp only at hshape hraised hcalled
  have hagent : Event.agent.Internal := by decide
  have hcpu : Event.cpu.Internal := by decide
  have htransfer : Event.transfer.Internal := by decide
  cases hshape with
  | idle => exact .inl ⟨rfl, rfl, rfl, hraised.symm, hcalled.symm⟩
  | idleBusy => exact .inr ⟨.cpu, _, hcpu, rfl⟩
  | idleRaised => exact .inr ⟨.poll, _, by decide, rfl⟩
  | callWaitBusy n => exact .inr ⟨.cpu, _, hcpu, rfl⟩
  | callAsked n => exact .inr ⟨.accept, _, by decide, rfl⟩
  | callTaken n => exact .inr ⟨.transfer, _, htransfer, rfl⟩
  | serveReceive => exact .inr ⟨.transfer, _, htransfer, rfl⟩
  | serveSent => exact .inr ⟨.cpu, _, hcpu, rfl⟩
  | replyTransfer => exact .inr ⟨.transfer, _, htransfer, rfl⟩
  | _ => exact .inr ⟨.agent, _, hagent, rfl⟩

theorem within_settles (h : Within m s) : Settles s := by
  induction m using Nat.strongRecOn generalizing s with
  | ind m ih =>
      refine .intro (fun event s' hinternal hstep => ?_) fun hstuck => ?_
      · obtain ⟨m', hlt, h'⟩ := within_internal h hinternal hstep
        exact ih m' hlt h'
      · rcases exists_internal h with hrest | ⟨event, s', hinternal, hstep⟩
        · exact hrest
        · rw [hstuck event hinternal] at hstep
          cases hstep

theorem Reached.within (h : Reached Clear s) : ∃ m, Within m s := by
  induction h with
  | start => exact ⟨_, _, _, .idle, rfl, rfl⟩
  | step _ hclear hstep ih =>
      obtain ⟨m, hm⟩ := ih
      exact within_step hm hclear hstep

theorem Shape.not_deadlock {queue : List Op} {polling irq busy outReq inReq : Bool}
    {requests pending : Nat} : ¬ Shape (some .callWait) queue polling .send irq busy outReq inReq
      requests pending m := by
  intro h
  cases h

theorem Shape.not_overlap {queue : List Op} {polling irq busy inReq : Bool} {cpu : Cpu}
    {requests pending : Nat} : ¬ Shape (some .callTransfer) queue polling cpu irq busy true inReq
      requests pending m := by
  intro h
  cases h

/-- No deadlock, no two transactions on the bus, and every request is served and every call
answered by steps of the two sides alone. -/
def Sound (s : State) : Prop := ¬ Deadlock s ∧ ¬ Overlap s ∧ Settles s

/-- Every state of a run whose events meet the condition is sound. -/
theorem no_deadlock (s : State) (h : Reached Clear s) : Sound s := by
  obtain ⟨m, hm⟩ := h.within
  refine ⟨?_, ?_, within_settles hm⟩
  · rintro ⟨hholder, hcpu⟩
    obtain ⟨_, _, hshape, -⟩ := hm
    rw [hholder, hcpu] at hshape
    exact hshape.not_deadlock
  · rintro ⟨hholder, hup⟩
    obtain ⟨_, _, hshape, -⟩ := hm
    rw [hholder, hup] at hshape
    exact hshape.not_overlap

/-- The condition is exact: where an event does not meet it, the two sides are blocked or both
on the bus, at once or when the operation before is over. -/
theorem unclear_blocks (h : Reached Clear s) (hclear : ¬ Clear s event)
    (hstep : step s event = some s') :
    ∃ s'', (s'' = s' ∨ step s' .agent = some s'') ∧ (Deadlock s'' ∨ Overlap s'') := by
  obtain ⟨m, hm⟩ := h.within
  obtain ⟨holder, queue, polling, cpu, irq, busy, outReq, inReq, raised, served, called,
    answered⟩ := s
  obtain ⟨requests, pending, hshape, -⟩ := hm
  dsimp only at hshape
  cases event with
  | call =>
      cases hstep
      cases hshape with
      | idleRaised => exact ⟨_, .inl rfl, .inl ⟨rfl, rfl⟩⟩
      | callEndRaised => exact ⟨_, .inr rfl, .inl ⟨rfl, rfl⟩⟩
      | replyEndRaised => exact ⟨_, .inr rfl, .inl ⟨rfl, rfl⟩⟩
      | callEndSeen n => exact absurd (fun _ => .inr (.inr (.inr List.mem_cons_self))) hclear
      | serveWait => exact absurd (fun _ => .inl rfl) hclear
      | serveReceive => exact absurd (fun _ => .inr (.inl rfl)) hclear
      | serveSent => exact absurd (fun _ => .inr (.inr (.inl rfl))) hclear
      | _ => exact absurd Bool.false_ne_true.elim hclear
  | raise =>
      have hwaiting : ∀ n, ¬ Op.call ∉ calls n → ∃ k, n = k + 1 := by
        intro n hn
        cases n with
        | zero => exact absurd List.not_mem_nil hn
        | succ k => exact ⟨k, rfl⟩
      cases hshape with
      | idle => exact absurd ⟨nofun, nofun, List.not_mem_nil⟩ hclear
      | callWait n =>
          cases hstep
          exact ⟨_, .inl rfl, .inl ⟨rfl, rfl⟩⟩
      | callAsked n =>
          cases hstep
          exact ⟨_, .inl rfl, .inr ⟨rfl, rfl⟩⟩
      | callEnd n =>
          cases hstep
          obtain ⟨k, rfl⟩ := hwaiting n fun hqueue => hclear ⟨nofun, nofun, hqueue⟩
          exact ⟨_, .inr rfl, .inl ⟨rfl, rfl⟩⟩
      | replyEnd =>
          cases hstep
          obtain ⟨k, rfl⟩ := hwaiting pending fun hqueue => hclear ⟨nofun, nofun, hqueue⟩
          exact ⟨_, .inr rfl, .inl ⟨rfl, rfl⟩⟩
      | _ => cases hstep
  | _ => exact absurd trivial hclear

/-- The CPU has raised its request. -/
def requested : State := { cpu := .send, HSHK_OUT_REQ := true, raised := 1 }

/-- A call behind a request that the loop has seen. -/
theorem no_deadlock_behind :
    Sound (call { requested with holder := some .serveWait, polling := false }) := by
  have hraise : Reached Clear requested :=
    .step .start (show Clear {} .raise from ⟨by decide, by decide, by decide⟩) rfl
  have hpoll : Reached Clear { requested with holder := some .serveWait, polling := false } :=
    .step hraise (show Clear requested .poll from trivial) rfl
  refine no_deadlock _ (.step hpoll (show Clear _ .call from fun _ => ?_) rfl)
  exact .inl rfl

/-- A call takes the lock, and the CPU raises its request before the call looks at the lines. -/
theorem deadlock_reached : ¬ ∀ s, Reached Any s → Sound s := by
  intro hall
  have hcall : Reached Any (call {}) := .step .start (show Any {} .call from trivial) rfl
  have hsound := hall { requested with holder := some .callWait, called := 1 }
    (.step hcall (show Any (call {}) .raise from trivial) rfl)
  exact hsound.1 ⟨rfl, rfl⟩

end Runs

end HshkAgent
end RetroCpu
