import RetroCpu.Lib.StepRuns

/-!
# Tasks of an event loop

A task runs without interruption until it waits for an answer from the outside, and goes on
when the answer is there.  Tasks share a state.  An event loop starts a task for every key
that it is given, whatever else is still waiting, and the waits end in any order.

`run_finish` says when nobody can tell such a run from one that does the keys one after the
other: a key comes when nothing waits, or when what waits is harmless to it.
-/

namespace RetroCpu
namespace Await

open StepRuns (after Always)

section Tasks

/-- A task on the states `σ` that asks for `ρ` and is answered `β`. -/
inductive Task (σ ρ β α : Type)
  | done (a : α)
  | read (k : σ → Task σ ρ β α)
  | write (f : σ → σ) (t : Task σ ρ β α)
  | wait (request : ρ) (k : β → Task σ ρ β α)

variable {σ ρ β α γ : Type}

namespace Task

def bind : Task σ ρ β α → (α → Task σ ρ β γ) → Task σ ρ β γ
  | .done a, g => g a
  | .read k, g => .read fun s => (k s).bind g
  | .write f t, g => .write f (t.bind g)
  | .wait request k, g => .wait request fun b => (k b).bind g

instance : Monad (Task σ ρ β) where
  pure := .done
  bind := bind

def get : Task σ ρ β σ := .read .done

def modify (f : σ → σ) : Task σ ρ β Unit := .write f (.done ())

def await (request : ρ) : Task σ ρ β β := .wait request .done

end Task

end Tasks

section Loops

variable {κ σ ρ β W : Type}

/-- What is left of the task of a key that waits for an answer. -/
structure Waiting (κ σ ρ β : Type) where
  key : κ
  request : ρ
  resume : β → Task σ ρ β Unit

structure Loop (κ σ ρ β W : Type) where
  shared : σ
  world : W
  waiting : List (Waiting κ σ ρ β)

inductive Event (κ : Type)
  | press (key : κ)
  | complete (i : Nat)
deriving DecidableEq

/-- A task runs up to its next wait. -/
def upToWait (key : κ) : Task σ ρ β Unit → σ → σ × Option (Waiting κ σ ρ β)
  | .done _, s => (s, none)
  | .read k, s => upToWait key (k s) s
  | .write f t, s => upToWait key t (f s)
  | .wait request k, s => (s, some ⟨key, request, k⟩)

variable (perform : ρ → W → Option β × W) (start : κ → Task σ ρ β Unit)

/-- A task goes on in the place of the one that waited. -/
def goOn (key : κ) (t : Task σ ρ β Unit) (l : Loop κ σ ρ β W) : Loop κ σ ρ β W :=
  { l with
    shared := (upToWait key t l.shared).1
    waiting := l.waiting ++ (upToWait key t l.shared).2.toList }

/-- The outside answers a request, or refuses it, which is the end of the task. -/
def step (l : Loop κ σ ρ β W) : Event κ → Loop κ σ ρ β W
  | .press key => goOn key (start key) l
  | .complete i =>
      match l.waiting[i]? with
      | none => l
      | some x =>
          let rest : Loop κ σ ρ β W :=
            { l with world := (perform x.request l.world).2, waiting := l.waiting.eraseIdx i }
          match (perform x.request l.world).1 with
          | none => rest
          | some answer => goOn x.key (x.resume answer) rest

/-- A task on its own, to its end. -/
def alone : Task σ ρ β Unit → σ × W → σ × W
  | .done _, s => s
  | .read k, s => alone (k s.1) s
  | .write f t, s => alone t (f s.1, s.2)
  | .wait request k, s =>
      match (perform request s.2).1 with
      | none => (s.1, (perform request s.2).2)
      | some answer => alone (k answer) (s.1, (perform request s.2).2)

/-- What waits, on its own to its end. -/
def Waiting.finish (x : Waiting κ σ ρ β) (s : σ × W) : σ × W :=
  alone perform (.wait x.request x.resume) s

/-- Everything that waits is done, the oldest first. -/
def finish (l : Loop κ σ ρ β W) : σ × W :=
  l.waiting.foldl (fun s x => x.finish perform s) (l.shared, l.world)

/-- The keys of a run. -/
def keysOf : List (Event κ) → List κ
  | [] => []
  | .press key :: events => key :: keysOf events
  | .complete _ :: events => keysOf events

/-- The keys one after the other. -/
def inOrder (keys : List κ) (s : σ × W) : σ × W :=
  keys.foldl (fun s key => alone perform (start key) s) s

variable {perform start}

/-- A property of all waits of a task. -/
def EveryWait (Q : Waiting κ σ ρ β → Prop) (key : κ) : Task σ ρ β Unit → Prop
  | .done _ => True
  | .read k => ∀ s, EveryWait Q key (k s)
  | .write _ t => EveryWait Q key t
  | .wait request k => Q ⟨key, request, k⟩ ∧ ∀ answer, EveryWait Q key (k answer)

/-- What waits is harmless to a key that comes now: the key does not wait, and it does not
matter which of the two is done first. -/
def HarmlessTo (perform : ρ → W → Option β × W) (start : κ → Task σ ρ β Unit)
    (x : Waiting κ σ ρ β) (key : κ) (s : σ) : Prop :=
  (upToWait key (start key) s).2 = none ∧
    ∀ world, x.finish perform (alone perform (start key) (s, world)) =
      alone perform (start key) (x.finish perform (s, world))

/-- A key comes when nothing waits, or only one task that lets it in. -/
def InTurn (letsIn : Waiting κ σ ρ β → κ → σ → Prop) (l : Loop κ σ ρ β W) : Event κ → Prop
  | .press key => l.waiting = [] ∨ ∃ x, l.waiting = [x] ∧ letsIn x key l.shared
  | .complete _ => True

section Alone

variable {Q : Waiting κ σ ρ β → Prop} {key : κ} {t : Task σ ρ β Unit} {s : σ} {world : W}
variable {x : Waiting κ σ ρ β}

theorem alone_of_upToWait (h : (upToWait key t s).2 = none) :
    alone perform t (s, world) = ((upToWait key t s).1, world) := by
  induction t generalizing s with
  | done a => rfl
  | read k ih => exact ih s h
  | write f t ih => exact ih h
  | wait request k ih => cases h

theorem alone_of_waiting (h : (upToWait key t s).2 = some x) :
    alone perform t (s, world) = x.finish perform ((upToWait key t s).1, world) := by
  induction t generalizing s with
  | done a => cases h
  | read k ih => exact ih s h
  | write f t ih => exact ih h
  | wait request k ih =>
      cases h
      rfl

/-- The waits of a task are those at which it stops and those of what is left of it. -/
theorem EveryWait.upToWait (h : EveryWait Q key t) (hx : (upToWait key t s).2 = some x) :
    Q x ∧ ∀ answer, EveryWait Q x.key (x.resume answer) := by
  induction t generalizing s with
  | done a => cases hx
  | read k ih => exact ih s (h s) hx
  | write f t ih => exact ih h hx
  | wait request k ih =>
      cases hx
      exact h

theorem EveryWait.both {Q' R : Waiting κ σ ρ β → Prop} (h : EveryWait Q key t)
    (h' : EveryWait Q' key t)
    (hR : ∀ request k, Q ⟨key, request, k⟩ → Q' ⟨key, request, k⟩ → R ⟨key, request, k⟩) :
    EveryWait R key t := by
  induction t with
  | done a => trivial
  | read k ih => exact fun s => ih s (h s) (h' s)
  | write g t ih => exact ih h h'
  | wait request k ih =>
      exact ⟨hR request k h.1 h'.1, fun answer => ih answer (h.2 answer) (h'.2 answer)⟩

end Alone

section Requests

/-- The world keeps a list of what it was asked. -/
def recording (perform : ρ → W → Option β × W) (request : ρ) (world : W × List ρ) :
    Option β × (W × List ρ) :=
  ((perform request world.1).1, ((perform request world.1).2, world.2 ++ [request]))

/-- All that a task asks for from a state, whatever it is answered. -/
def Asks (R : ρ → Prop) : Task σ ρ β Unit → σ → Prop
  | .done _, _ => True
  | .read k, s => Asks R (k s) s
  | .write f t, s => Asks R t (f s)
  | .wait request k, s => R request ∧ ∀ answer, Asks R (k answer) s

theorem Asks.recorded {R : ρ → Prop} {t : Task σ ρ β Unit} {s : σ} (h : Asks R t s)
    {world : W × List ρ} {request : ρ}
    (hrequest : request ∈ (alone (recording perform) t (s, world)).2.2) :
    request ∈ world.2 ∨ R request := by
  induction t generalizing s world with
  | done a => exact .inl hrequest
  | read k ih => exact ih s h hrequest
  | write f t ih => exact ih h hrequest
  | wait asked k ih =>
      rw [alone] at hrequest
      have hnow : request ∈ (recording perform asked world).2.2 →
          request ∈ world.2 ∨ R request := by
        intro hmem
        rcases List.mem_append.mp hmem with hbefore | hlast
        · exact .inl hbefore
        · rw [List.mem_singleton.mp hlast]
          exact .inr h.1
      cases hanswer : (recording perform asked world).1 with
      | none =>
          simp only [hanswer] at hrequest
          exact hnow hrequest
      | some answer =>
          simp only [hanswer] at hrequest
          rcases ih answer (h.2 answer) hrequest with hbefore | hR
          · exact hnow hbefore
          · exact .inr hR

end Requests

section Blind

variable {P : σ → Prop} {f : σ → σ} {t : Task σ ρ β Unit}

/-- All that a task reads and writes is the same whether `f` is done before or after it. -/
def Blind (P : σ → Prop) (f : σ → σ) : Task σ ρ β Unit → Prop
  | .done _ => True
  | .read k => (∀ s, P s → k (f s) = k s) ∧ ∀ s, Blind P f (k s)
  | .write g t => (∀ s, P s → g (f s) = f (g s) ∧ P (g s)) ∧ Blind P f t
  | .wait _ k => ∀ answer, Blind P f (k answer)

theorem Blind.swap (perform : ρ → W → Option β × W) (h : Blind P f t) (s : σ × W) (hs : P s.1) :
    P (alone perform t s).1 ∧
      alone perform t (f s.1, s.2) = (f (alone perform t s).1, (alone perform t s).2) := by
  induction t generalizing s with
  | done a => exact ⟨hs, rfl⟩
  | read k ih =>
      rw [alone, alone, h.1 s.1 hs]
      exact ih s.1 (h.2 s.1) s hs
  | write g t ih =>
      obtain ⟨hswap, hkeep⟩ := h.1 s.1 hs
      rw [alone, alone, hswap]
      exact ih h.2 (g s.1, s.2) hkeep
  | wait request k ih =>
      cases hanswer : (perform request s.2).1 with
      | none =>
          rw [alone, alone]
          rw [hanswer]
          exact ⟨hs, rfl⟩
      | some answer =>
          rw [alone, alone]
          rw [hanswer]
          exact ih answer (h answer) (s.1, (perform request s.2).2) hs

/-- What is left of a task that is blind to all of a kind is so too. -/
theorem everyWait_of_blind {C : (σ → Prop) → (σ → σ) → Prop} {Q : Waiting κ σ ρ β → Prop}
    {key : κ} (h : ∀ P f, C P f → Blind P f t)
    (hQ : ∀ request k, (∀ P f, C P f → ∀ answer, Blind P f (k answer)) →
      Q ⟨key, request, k⟩) :
    EveryWait Q key t := by
  induction t with
  | done a => trivial
  | read k ih => exact fun s => ih s fun P f hC => (h P f hC).2 s
  | write g t ih => exact ih fun P f hC => (h P f hC).2
  | wait request k ih =>
      refine ⟨hQ request k fun P f hC => h P f hC, fun answer => ?_⟩
      exact ih answer fun P f hC => h P f hC answer

end Blind

section Runs

variable {letsIn : Waiting κ σ ρ β → κ → σ → Prop} {l : Loop κ σ ρ β W} {event : Event κ}

/-- What waits lets in only keys to which it is harmless. -/
def LetsInHarmless (perform : ρ → W → Option β × W) (start : κ → Task σ ρ β Unit)
    (letsIn : Waiting κ σ ρ β → κ → σ → Prop) (x : Waiting κ σ ρ β) : Prop :=
  ∀ key s, letsIn x key s → HarmlessTo perform start x key s

/-- At most one task waits, and it and all that is left of it let in harmless keys only. -/
inductive Orderly (perform : ρ → W → Option β × W) (start : κ → Task σ ρ β Unit)
    (letsIn : Waiting κ σ ρ β → κ → σ → Prop) : List (Waiting κ σ ρ β) → Prop
  | nil : Orderly perform start letsIn []
  | one {x : Waiting κ σ ρ β} (hx : LetsInHarmless perform start letsIn x)
      (hrest : ∀ answer,
        EveryWait (LetsInHarmless perform start letsIn) x.key (x.resume answer)) :
      Orderly perform start letsIn [x]

/-- A task that goes on when nothing waits. -/
theorem goOn_alone {key : κ} {t : Task σ ρ β Unit} (shared : σ) (world : W)
    (ht : EveryWait (LetsInHarmless perform start letsIn) key t) :
    Orderly perform start letsIn (goOn key t ⟨shared, world, []⟩).waiting ∧
      finish perform (goOn key t ⟨shared, world, []⟩) = alone perform t (shared, world) := by
  cases hx : (upToWait key t shared).2 with
  | none =>
      have hwaiting : (goOn key t ⟨shared, world, []⟩).waiting = [] := by
        rw [goOn, hx]
        rfl
      constructor
      · rw [hwaiting]
        exact .nil
      · rw [finish, hwaiting, alone_of_upToWait hx]
        rfl
  | some x =>
      have hwaiting : (goOn key t ⟨shared, world, []⟩).waiting = [x] := by
        rw [goOn, hx]
        rfl
      obtain ⟨hQ, hrest⟩ := ht.upToWait hx
      constructor
      · rw [hwaiting]
        exact .one hQ hrest
      · rw [finish, hwaiting, alone_of_waiting hx]
        rfl

/-- A key that is let in leaves what waits where it is. -/
theorem goOn_harmless {key : κ} {x : Waiting κ σ ρ β} {shared : σ} (world : W)
    (h : HarmlessTo perform start x key shared) :
    (goOn key (start key) ⟨shared, world, [x]⟩).waiting = [x] ∧
      finish perform (goOn key (start key) ⟨shared, world, [x]⟩) =
        alone perform (start key) (x.finish perform (shared, world)) := by
  obtain ⟨hnone, hswap⟩ := h
  have hwaiting : (goOn key (start key) ⟨shared, world, [x]⟩).waiting = [x] := by
    rw [goOn, hnone]
    rfl
  refine ⟨hwaiting, ?_⟩
  rw [finish, hwaiting, ← hswap world, alone_of_upToWait hnone]
  rfl

/-- One step of an orderly loop: a key is as good as done after what waits, and a wait that
ends changes nothing of what all comes to. -/
theorem step_orderly (hstart : ∀ key,
      EveryWait (LetsInHarmless perform start letsIn) key (start key))
    (hl : Orderly perform start letsIn l.waiting) (hevent : InTurn letsIn l event) :
    Orderly perform start letsIn (step perform start l event).waiting ∧
      finish perform (step perform start l event) =
        inOrder perform start (keysOf [event]) (finish perform l) := by
  obtain ⟨shared, world, waiting⟩ := l
  cases event with
  | press key =>
      rcases hevent with hnone | ⟨x, hx, hlet⟩
      · cases hnone
        exact goOn_alone shared world (hstart key)
      · cases hx
        cases hl with
        | one hharmless hrest =>
            obtain ⟨hwaiting, hfinish⟩ := goOn_harmless world (hharmless key shared hlet)
            refine ⟨?_, hfinish⟩
            rw [step, hwaiting]
            exact .one hharmless hrest
  | complete i =>
      cases hl with
      | nil => exact ⟨.nil, rfl⟩
      | @one x hx hrest =>
          cases i with
          | succ i => exact ⟨.one hx hrest, rfl⟩
          | zero =>
              have hfinish : finish perform ⟨shared, world, [x]⟩ =
                x.finish perform (shared, world) := rfl
              cases hanswer : (perform x.request world).1 with
              | none =>
                  have hstep : step perform start ⟨shared, world, [x]⟩ (.complete 0) =
                      ⟨shared, (perform x.request world).2, []⟩ := by
                    simp only [step, List.getElem?_cons_zero, hanswer, List.eraseIdx_zero,
                      List.tail_cons]
                  rw [hstep]
                  refine ⟨.nil, ?_⟩
                  rw [hfinish, Waiting.finish, alone, hanswer]
                  rfl
              | some answer =>
                  have hstep : step perform start ⟨shared, world, [x]⟩ (.complete 0) =
                      goOn x.key (x.resume answer)
                        ⟨shared, (perform x.request world).2, []⟩ := by
                    simp only [step, List.getElem?_cons_zero, hanswer, List.eraseIdx_zero,
                      List.tail_cons]
                  rw [hstep]
                  obtain ⟨horderly, hgoOn⟩ :=
                    goOn_alone shared (perform x.request world).2 (hrest answer)
                  refine ⟨horderly, hgoOn.trans ?_⟩
                  rw [hfinish, Waiting.finish, alone, hanswer]
                  rfl

theorem keysOf_cons (event : Event κ) (events : List (Event κ)) :
    keysOf (event :: events) = keysOf [event] ++ keysOf events := by
  cases event <;> rfl

/-- The run comes to what the keys come to one after the other. -/
theorem run_finish {events : List (Event κ)}
    (hstart : ∀ key, EveryWait (LetsInHarmless perform start letsIn) key (start key))
    (hl : Orderly perform start letsIn l.waiting)
    (h : Always (step perform start) (InTurn letsIn) l events) :
    finish perform (after (step perform start) l events) =
      inOrder perform start (keysOf events) (finish perform l) := by
  induction events generalizing l with
  | nil => rfl
  | cons event events ih =>
      obtain ⟨hfirst, hrest⟩ := h
      obtain ⟨horderly, hfinish⟩ := step_orderly hstart hl hfirst
      rw [keysOf_cons]
      calc finish perform (after (step perform start) (step perform start l event) events)
          = inOrder perform start (keysOf events) (finish perform (step perform start l event)) :=
            ih horderly hrest
        _ = inOrder perform start (keysOf [event] ++ keysOf events) (finish perform l) := by
            rw [hfinish, inOrder, inOrder, inOrder, List.foldl_append]

end Runs

end Loops

end Await
end RetroCpu
