import Mathlib.Logic.Function.Iterate
import Mathlib.Tactic.SplitIfs
import RetroCpu.Lib.StepRuns

/-!
# The timer of the I/O board (`io_timer.ts`)

`IoTimer` on a scheduler that never gives out a handle twice and calls only what is scheduled.
`expire` calls `onExpire` last, in both of its branches; what `onExpire` itself does to the
timer is therefore a run of further acts, and the states inside `onExpire` are states of runs.
-/

namespace RetroCpu
namespace EmuTs
namespace IoTimer

open StepRuns

section Scheduler

/-- `IoTimerHandle` -/
abbrev Handle := Nat

/-- `IoTimerScheduler`: the scheduled callbacks with their delays, and the next handle. -/
structure Scheduler where
  pending : List (Handle × Int)
  next : Handle
deriving DecidableEq, Repr

def Scheduler.setTimeout (s : Scheduler) (ms : Int) : Handle × Scheduler :=
  (s.next, { pending := s.pending ++ [(s.next, ms)], next := s.next + 1 })

def Scheduler.clearTimeout (s : Scheduler) (handle : Handle) : Scheduler :=
  { s with pending := s.pending.filter fun entry => entry.1 ≠ handle }

/-- The handles of the scheduled callbacks. -/
def Scheduler.handles (s : Scheduler) : List Handle := s.pending.map Prod.fst

end Scheduler

section Timer

/-- The fields of `IoTimer`, its scheduler, and the callbacks that have led to `onExpire`. -/
structure World where
  handle : Option Handle
  periodMs : Int
  count : Int
  remaining : Int
  fired : Nat
  scheduler : Scheduler
  delivered : List Handle
deriving DecidableEq, Repr

/-- A new timer. -/
def initial : World where
  handle := none
  periodMs := 0
  count := 0
  remaining := 0
  fired := 0
  scheduler := { pending := [], next := 0 }
  delivered := []

/-- A number of the language; `other` stands for those that are not integers. -/
inductive Number where
  | integer (n : Int)
  | other
deriving DecidableEq, Repr

/-- `isUint16` -/
def isUint16 : Number → Bool
  | .integer n => 0 ≤ n && n ≤ 0xffff
  | .other => false

def Number.toInt : Number → Int
  | .integer n => n
  | .other => 0

/-- `IoTimerConfig` -/
structure IoTimerConfig where
  periodMs : Number
  count : Number
deriving DecidableEq, Repr

def IoTimerConfig.valid (params : IoTimerConfig) : Bool :=
  isUint16 params.periodMs && isUint16 params.count

/-- `RESPONSE_CODE` -/
inductive ResponseCode where
  | OK
  | NG_OTHER_ERROR
deriving DecidableEq, Repr

/-- `running` -/
def World.running (w : World) : Bool := w.handle.isSome

/-- `stop` -/
def stop (w : World) : World :=
  let w :=
    match w.handle with
    | some handle => { w with scheduler := w.scheduler.clearTimeout handle, handle := none }
    | none => w
  { w with periodMs := 0, count := 0, remaining := 0 }

variable (minPeriodMs : Int)

/-- `arm` -/
def arm (w : World) : World :=
  let waitMs := max w.periodMs minPeriodMs
  let (handle, scheduler) := w.scheduler.setTimeout waitMs
  { w with handle := some handle, scheduler := scheduler }

/-- `configure` -/
def configure (params : IoTimerConfig) (w : World) : ResponseCode × World :=
  if !isUint16 params.periodMs || !isUint16 params.count then (.NG_OTHER_ERROR, w)
  else
    let w := stop w
    if params.periodMs.toInt = 0 then (.OK, w)
    else
      (.OK, arm minPeriodMs
        { w with
          periodMs := params.periodMs.toInt
          count := params.count.toInt
          remaining := params.count.toInt
          fired := 0 })

/-- `expire` -/
def expire (onExpire : World → World) (w : World) : World :=
  let w := { w with fired := w.fired + 1 }
  if 0 < w.count then
    let w := { w with remaining := w.remaining - 1 }
    if w.remaining ≤ 0 then onExpire (stop w)
    else onExpire (arm minPeriodMs w)
  else onExpire (arm minPeriodMs w)

/-- The scheduler calls the callback of a handle, if it is still scheduled. -/
def fire (onExpire : World → World) (handle : Handle) (w : World) : World :=
  if handle ∈ w.scheduler.handles then
    expire minPeriodMs onExpire
      { w with scheduler := w.scheduler.clearTimeout handle, handle := none }
  else w

/-- `onExpire` is called. -/
def deliver (handle : Handle) (w : World) : World := { w with delivered := w.delivered ++ [handle] }

/-- What users and the scheduler do, in `onExpire` and outside. -/
inductive Act where
  | configure (params : IoTimerConfig)
  | stop
  | fire (handle : Handle)
deriving DecidableEq, Repr

/-- One act; a callback runs up to its call of `onExpire`. -/
def act (w : World) : Act → World
  | .configure params => (configure minPeriodMs params w).2
  | .stop => stop w
  | .fire handle => fire minPeriodMs (deliver handle) handle w

/-- The acts that put an end to the configuration in force. -/
def Act.Replaces : Act → Prop
  | .configure params => params.valid
  | .stop => True
  | .fire _ => False

instance Act.Replaces.decidable : (a : Act) → Decidable a.Replaces
  | .configure params => inferInstanceAs (Decidable (params.valid = true))
  | .stop => .isTrue trivial
  | .fire _ => .isFalse id

/-- The scheduler calls its next callback. -/
def tick (w : World) : World :=
  match w.scheduler.handles with
  | [] => w
  | handle :: _ => act minPeriodMs w (.fire handle)

theorem expire_onExpire (f g : World → World) (w : World) :
    expire minPeriodMs (fun w => f (g w)) w = f (expire minPeriodMs g w) := by
  unfold expire
  dsimp only
  split_ifs <;> rfl

/-- The calls that `onExpire` makes are acts behind the act that called it. -/
theorem fire_onExpire {handle : Handle} {w : World} (h : handle ∈ w.scheduler.handles)
    (calls : List Act) :
    fire minPeriodMs (fun w => after (act minPeriodMs) (deliver handle w) calls) handle w =
      after (act minPeriodMs) (act minPeriodMs w (.fire handle)) calls := by
  rw [act, fire, fire, if_pos h, if_pos h]
  exact expire_onExpire minPeriodMs (fun w => after (act minPeriodMs) w calls) (deliver handle) _

end Timer

section Soundness

variable {minPeriodMs : Int} {w : World}

/-- The handle is that of the one callback that is scheduled. -/
structure Sound (w : World) : Prop where
  scheduled : w.scheduler.handles = w.handle.toList
  used : ∀ handle ∈ w.scheduler.handles, handle < w.scheduler.next

theorem clear_handles (s : Scheduler) (handle : Handle) :
    (s.clearTimeout handle).handles = s.handles.filter (· ≠ handle) := by
  unfold Scheduler.clearTimeout Scheduler.handles
  rw [List.filter_map]
  rfl

theorem stop_handles (h : Sound w) : (stop w).scheduler.handles = [] := by
  have hscheduled := h.scheduled
  unfold stop
  cases hhandle : w.handle with
  | none =>
      rw [hhandle] at hscheduled
      exact hscheduled
  | some handle =>
      rw [hhandle] at hscheduled
      simp only [clear_handles, hscheduled]
      simp

theorem stop_handle (w : World) : (stop w).handle = none := by
  unfold stop
  cases hhandle : w.handle <;> simp [hhandle]

theorem stop_next (w : World) : (stop w).scheduler.next = w.scheduler.next := by
  unfold stop
  cases w.handle <;> rfl

theorem stop_delivered (w : World) : (stop w).delivered = w.delivered := by
  unfold stop
  cases w.handle <;> rfl

theorem sound_stop (h : Sound w) : Sound (stop w) := by
  constructor
  · rw [stop_handles h, stop_handle]
    rfl
  · rw [stop_handles h]
    exact fun _ hmem => absurd hmem List.not_mem_nil

theorem arm_handles (h : w.scheduler.handles = []) :
    (arm minPeriodMs w).scheduler.handles = [w.scheduler.next] := by
  have hpending : w.scheduler.pending = [] := List.map_eq_nil_iff.mp h
  simp [arm, Scheduler.setTimeout, Scheduler.handles, hpending]

theorem sound_arm (minPeriodMs : Int) (w : World) (h : w.scheduler.handles = []) : Sound (arm minPeriodMs w) := by
  constructor
  · rw [arm_handles h]
    rfl
  · rw [arm_handles h]
    intro handle hmem
    rw [List.mem_singleton.mp hmem]
    exact Nat.lt_succ_self _

/-- What the call of a scheduled callback does. -/
structure Fired (handle : Handle) (w w' : World) : Prop where
  delivered : w'.delivered = w.delivered ++ [handle]
  next : w.scheduler.next ≤ w'.scheduler.next
  sound : Sound w'
  counting : w'.handle = none ∧ 0 < w.count ∧ w.remaining ≤ 1 ∨
    w'.handle = some w.scheduler.next ∧ w'.count = w.count ∧
      (0 < w.count → 1 < w.remaining ∧ w'.remaining = w.remaining - 1)

theorem fire_scheduled (minPeriodMs : Int) (h : Sound w) {handle : Handle} (hmem : handle ∈ w.scheduler.handles) :
    Fired handle w (act minPeriodMs w (.fire handle)) := by
  have hscheduled := h.scheduled
  have hone : w.scheduler.handles = [handle] := by
    cases hhandle : w.handle with
    | none =>
        rw [hscheduled, hhandle] at hmem
        exact absurd hmem List.not_mem_nil
    | some own =>
        rw [hscheduled, hhandle] at hmem ⊢
        rw [List.mem_singleton.mp hmem]
        rfl
  have hclear : (w.scheduler.clearTimeout handle).handles = [] := by
    rw [clear_handles, hone]
    simp
  rw [act, fire, if_pos hmem]
  unfold expire
  dsimp only
  split_ifs with hcount hlast
  · refine ⟨rfl, Nat.le_refl _, ⟨hclear, fun own hown => ?_⟩, .inl ⟨rfl, hcount, by omega⟩⟩
    exact absurd (hclear ▸ hown) List.not_mem_nil
  · have hsound := sound_arm minPeriodMs { w with
        scheduler := w.scheduler.clearTimeout handle, handle := none, fired := w.fired + 1,
        remaining := w.remaining - 1 } hclear
    exact ⟨rfl, Nat.le_succ _, ⟨hsound.scheduled, hsound.used⟩,
      .inr ⟨rfl, rfl, fun _ => ⟨by omega, rfl⟩⟩⟩
  · have hsound := sound_arm minPeriodMs { w with
        scheduler := w.scheduler.clearTimeout handle, handle := none,
        fired := w.fired + 1 } hclear
    exact ⟨rfl, Nat.le_succ _, ⟨hsound.scheduled, hsound.used⟩,
      .inr ⟨rfl, rfl, fun hpos => absurd hpos hcount⟩⟩

theorem fire_unscheduled {handle : Handle} (hmem : handle ∉ w.scheduler.handles) :
    act minPeriodMs w (.fire handle) = w :=
  if_neg hmem

theorem configure_invalid {params : IoTimerConfig} (h : params.valid = false) :
    configure minPeriodMs params w = (.NG_OTHER_ERROR, w) := by
  apply if_pos
  unfold IoTimerConfig.valid at h
  cases hperiod : isUint16 params.periodMs <;> simp_all

/-- The state in which a valid configuration with a period arms the timer. -/
def configured (params : IoTimerConfig) (w : World) : World :=
  { stop w with
    periodMs := params.periodMs.toInt
    count := params.count.toInt
    remaining := params.count.toInt
    fired := 0 }

theorem configure_valid {params : IoTimerConfig} (h : params.valid = true) :
    configure minPeriodMs params w =
      (.OK, if params.periodMs.toInt = 0 then stop w else arm minPeriodMs (configured params w)) := by
  obtain ⟨hperiod, hcount⟩ := Bool.and_eq_true_iff.mp h
  rw [configure, hperiod, hcount]
  exact (apply_ite (Prod.mk ResponseCode.OK) _ _ _).symm

theorem replaces_delivered {a : Act} (h : a.Replaces) :
    (act minPeriodMs w a).delivered = w.delivered := by
  cases a with
  | configure params =>
      rw [act, configure_valid h]
      dsimp only
      split_ifs
      · exact stop_delivered w
      · exact stop_delivered w
  | stop => exact stop_delivered w
  | fire handle => exact h.elim

theorem sound_act (h : Sound w) (a : Act) : Sound (act minPeriodMs w a) := by
  cases a with
  | configure params =>
      cases hvalid : params.valid with
      | false => rwa [act, configure_invalid hvalid]
      | true =>
          rw [act, configure_valid hvalid]
          dsimp only
          split_ifs
          · exact sound_stop h
          · exact sound_arm _ _ (stop_handles h)
  | stop => exact sound_stop h
  | fire handle =>
      by_cases hmem : handle ∈ w.scheduler.handles
      · exact (fire_scheduled minPeriodMs h hmem).sound
      · rwa [fire_unscheduled hmem]

theorem next_act (h : Sound w) (a : Act) :
    w.scheduler.next ≤ (act minPeriodMs w a).scheduler.next := by
  cases a with
  | configure params =>
      cases hvalid : params.valid with
      | false =>
          have hsame : act minPeriodMs w (.configure params) = w :=
            congrArg Prod.snd (configure_invalid hvalid)
          exact Nat.le_of_eq (congrArg (·.scheduler.next) hsame.symm)
      | true =>
          rw [act, configure_valid hvalid, ← stop_next w]
          dsimp only
          split_ifs
          · exact Nat.le_refl _
          · exact Nat.le_succ _
  | stop => exact Nat.le_of_eq (stop_next w).symm
  | fire handle =>
      by_cases hmem : handle ∈ w.scheduler.handles
      · exact (fire_scheduled minPeriodMs h hmem).next
      · exact Nat.le_of_eq (congrArg (·.scheduler.next) (fire_unscheduled hmem).symm)

/-- Every state of a run is sound. -/
theorem sound_after (minPeriodMs : Int) (h : Sound w) (acts : List Act) : Sound (after (act minPeriodMs) w acts) := by
  induction acts generalizing w with
  | nil => exact h
  | cons a acts ih => exact ih (sound_act h a)

theorem sound_initial : Sound initial :=
  ⟨rfl, fun _ hmem => absurd hmem List.not_mem_nil⟩

end Soundness

section Counting

variable {minPeriodMs : Int} {n base k : Nat} {w : World}

/-- A configuration with count `n` that was made after `base` expiries has led to `k`. -/
structure Counting (n base k : Nat) (w : World) : Prop where
  sound : Sound w
  length : w.delivered.length = base + k
  counting : n = 0 ∧ w.running = true ∧ w.count = 0 ∨
    k < n ∧ w.running = true ∧ w.count = n ∧ w.remaining = n - k ∨
    0 < n ∧ k = n ∧ w.running = false

theorem Counting.fire (h : Counting n base k w) {handle : Handle}
    (hmem : handle ∈ w.scheduler.handles) :
    Counting n base (k + 1) (act minPeriodMs w (.fire handle)) := by
  obtain ⟨hdelivered, -, hsound, hcases⟩ := fire_scheduled minPeriodMs h.sound hmem
  refine ⟨hsound, ?_, ?_⟩
  · rw [hdelivered, List.length_append, h.length]
    rfl
  · have hrunning : w.running = true := by
      rw [h.sound.scheduled] at hmem
      cases hhandle : w.handle with
      | none => exact absurd (hhandle ▸ hmem) List.not_mem_nil
      | some own => rw [World.running, hhandle]; rfl
    unfold World.running at *
    rcases hcases with ⟨hnone, hpos, hlast⟩ | ⟨hsome, hcount, hstep⟩
    · rcases h.counting with ⟨-, -, hzero⟩ | ⟨hlt, -, hn, hleft⟩ | ⟨-, -, hstopped⟩
      · omega
      · exact .inr (.inr ⟨by omega, by omega, by rw [hnone]; rfl⟩)
      · exact absurd (hrunning.symm.trans hstopped) (by decide)
    · rcases h.counting with ⟨hn, -, hzero⟩ | ⟨hlt, -, hn, hleft⟩ | ⟨-, -, hstopped⟩
      · exact .inl ⟨hn, by rw [hsome]; rfl, hcount.trans hzero⟩
      · obtain ⟨hmore, hremaining⟩ := hstep (by omega)
        exact .inr (.inl ⟨by omega, by rw [hsome]; rfl, hcount.trans hn, by omega⟩)
      · exact absurd (hrunning.symm.trans hstopped) (by decide)

/-- Until the configuration is replaced, the expiries are counted. -/
theorem Counting.after {acts : List Act} (h : Counting n base k w)
    (hacts : ∀ a ∈ acts, ¬ a.Replaces) :
    ∃ j, Counting n base j (after (act minPeriodMs) w acts) := by
  induction acts generalizing k w with
  | nil => exact ⟨k, h⟩
  | cons a acts ih =>
      have hquiet := hacts a List.mem_cons_self
      have hrest := fun b hb => hacts b (List.mem_cons_of_mem a hb)
      cases a with
      | configure params =>
          have hinvalid : act minPeriodMs w (.configure params) = w :=
            congrArg Prod.snd (configure_invalid (Bool.eq_false_iff.mpr hquiet))
          exact ih (hinvalid.symm ▸ h) hrest
      | stop => exact absurd trivial hquiet
      | fire handle =>
          by_cases hmem : handle ∈ w.scheduler.handles
          · exact ih (h.fire hmem) hrest
          · exact ih ((fire_unscheduled hmem).symm ▸ h) hrest

theorem Counting.tick_running (h : Counting n base k w) (hrunning : w.running = true) :
    Counting n base (k + 1) (tick minPeriodMs w) := by
  obtain ⟨handle, hhandle⟩ := Option.isSome_iff_exists.mp hrunning
  have hone : w.scheduler.handles = [handle] := by rw [h.sound.scheduled, hhandle]; rfl
  rw [tick, hone]
  exact h.fire (by rw [hone]; exact List.mem_singleton_self _)

theorem Counting.tick_stopped (h : Counting n base k w) (hstopped : w.running = false) :
    tick minPeriodMs w = w := by
  have hnone : w.scheduler.handles = [] := by
    rw [h.sound.scheduled, Option.not_isSome_iff_eq_none.mp (Bool.eq_false_iff.mp hstopped)]
    rfl
  rw [tick, hnone]

/-- The scheduler goes on calling what is scheduled. -/
theorem Counting.ticks (minPeriodMs : Int) (h : Counting n base k w) (m : Nat) :
    ∃ j, Counting n base j ((tick minPeriodMs)^[m] w) ∧
      (n = 0 → j = k + m) ∧ (0 < n → j = min n (k + m)) := by
  induction m generalizing k w with
  | zero =>
      refine ⟨k, h, fun _ => rfl, fun hn => ?_⟩
      rcases h.counting with ⟨hzero, -⟩ | ⟨hlt, -⟩ | ⟨-, hk, -⟩
      · omega
      · omega
      · omega
  | succ m ih =>
      rw [Function.iterate_succ_apply]
      rcases h.counting with ⟨hzero, hrunning, -⟩ | ⟨hlt, hrunning, -⟩ | ⟨hpos, hk, hstopped⟩
      · obtain ⟨j, hj, hendless, hcount⟩ := ih (h.tick_running hrunning)
        exact ⟨j, hj, fun hn => by have := hendless hn; omega, fun hn => by omega⟩
      · obtain ⟨j, hj, hendless, hcount⟩ := ih (h.tick_running hrunning)
        exact ⟨j, hj, fun hn => by omega, fun hn => by have := hcount hn; omega⟩
      · rw [h.tick_stopped hstopped]
        obtain ⟨j, hj, hendless, hcount⟩ := ih h
        exact ⟨j, hj, fun hn => by omega, fun hn => by have := hcount hn; omega⟩

/-- A valid configuration with a period starts to count. -/
theorem counting_configure (h : Sound w) {p : Nat} (hp : 0 < p) (hp16 : p ≤ 0xffff)
    (hn16 : n ≤ 0xffff) :
    Counting n w.delivered.length 0
      (act minPeriodMs w (.configure ⟨.integer p, .integer n⟩)) := by
  have hvalid : IoTimerConfig.valid ⟨.integer p, .integer n⟩ = true := by
    simp only [IoTimerConfig.valid, isUint16, Bool.and_eq_true, decide_eq_true_eq]
    omega
  refine ⟨sound_act h _, congrArg List.length (replaces_delivered hvalid), ?_⟩
  have hperiod : (Number.integer p).toInt ≠ 0 := by
    simp only [Number.toInt]
    omega
  rw [act, configure_valid hvalid]
  dsimp only
  rw [if_neg hperiod]
  rcases Nat.eq_zero_or_pos n with rfl | hpos
  · exact .inl ⟨rfl, rfl, rfl⟩
  · exact .inr (.inl ⟨hpos, rfl, rfl, (Int.sub_zero _).symm⟩)

end Counting

section Conformance

variable {minPeriodMs : Int} {n base k : Nat} {w : World}

theorem act_delivered (h : Sound w) (a : Act) :
    ∃ expiries, (act minPeriodMs w a).delivered = w.delivered ++ expiries ∧
      ∀ handle ∈ expiries, handle ∈ w.scheduler.handles := by
  cases a with
  | configure params =>
      refine ⟨[], ?_, fun _ hmem => absurd hmem List.not_mem_nil⟩
      rw [List.append_nil]
      cases hvalid : params.valid with
      | false => rw [act, configure_invalid hvalid]
      | true => exact replaces_delivered hvalid
  | stop =>
      exact ⟨[], (stop_delivered w).trans (List.append_nil _).symm,
        fun _ hmem => absurd hmem List.not_mem_nil⟩
  | fire handle =>
      by_cases hmem : handle ∈ w.scheduler.handles
      · refine ⟨[handle], (fire_scheduled minPeriodMs h hmem).delivered, ?_⟩
        intro other hother
        rwa [List.mem_singleton.mp hother]
      · rw [fire_unscheduled hmem]
        exact ⟨[], (List.append_nil _).symm, fun _ hnil => absurd hnil List.not_mem_nil⟩

theorem act_handles (h : Sound w) (a : Act) :
    ∀ handle ∈ (act minPeriodMs w a).scheduler.handles,
      ¬ a.Replaces ∧ handle ∈ w.scheduler.handles ∨ w.scheduler.next ≤ handle := by
  intro handle hmem
  cases a with
  | configure params =>
      cases hvalid : params.valid with
      | false =>
          rw [act, configure_invalid hvalid] at hmem
          exact .inl ⟨Bool.eq_false_iff.mp hvalid, hmem⟩
      | true =>
          rw [act, configure_valid hvalid] at hmem
          dsimp only at hmem
          split_ifs at hmem
          · exact absurd (stop_handles h ▸ hmem) List.not_mem_nil
          · have hone : (arm minPeriodMs (configured params w)).scheduler.handles =
                [(stop w).scheduler.next] := arm_handles (stop_handles h)
            rw [hone] at hmem
            rw [List.mem_singleton.mp hmem]
            exact .inr (Nat.le_of_eq (stop_next w).symm)
  | stop => exact absurd (stop_handles h ▸ hmem) List.not_mem_nil
  | fire own =>
      by_cases hown : own ∈ w.scheduler.handles
      · obtain ⟨-, -, hsound, hcases⟩ := fire_scheduled minPeriodMs h hown
        rw [hsound.scheduled] at hmem
        rcases hcases with ⟨hnone, -⟩ | ⟨hsome, -⟩
        · exact absurd (hnone ▸ hmem) List.not_mem_nil
        · rw [hsome] at hmem
          exact .inr (Nat.le_of_eq (List.mem_singleton.mp hmem).symm)
      · rw [fire_unscheduled hown] at hmem
        exact .inl ⟨id, hmem⟩

/-- The handles of later expiries were given out later. -/
theorem delivered_after {bound : Handle} (h : Sound w) (hbound : bound ≤ w.scheduler.next)
    (hown : ∀ handle ∈ w.scheduler.handles, bound ≤ handle) (acts : List Act) :
    ∃ expiries, (after (act minPeriodMs) w acts).delivered = w.delivered ++ expiries ∧
      ∀ handle ∈ expiries, bound ≤ handle := by
  induction acts generalizing w with
  | nil => exact ⟨[], (List.append_nil _).symm, fun _ hmem => absurd hmem List.not_mem_nil⟩
  | cons a acts ih =>
      obtain ⟨first, hfirst, hscheduled⟩ := act_delivered h a
      have hlater : ∀ handle ∈ (act minPeriodMs w a).scheduler.handles, bound ≤ handle := by
        intro handle hmem
        rcases act_handles h a handle hmem with ⟨-, hkept⟩ | hnew
        · exact hown handle hkept
        · exact Nat.le_trans hbound hnew
      obtain ⟨rest, hrest, hrestBound⟩ :=
        ih (sound_act h a) (Nat.le_trans hbound (next_act h a)) hlater
      refine ⟨first ++ rest, ?_, ?_⟩
      · rw [← List.append_assoc, ← hfirst]
        exact hrest
      · intro handle hmem
        rcases List.mem_append.mp hmem with hmem | hmem
        · exact hown handle (hscheduled handle hmem)
        · exact hrestBound handle hmem

/-- What `IoTimer` promises in a state of a run. -/
structure Conforms (minPeriodMs : Int) (w : World) : Prop where
  /-- A callback whose `onExpire` makes some calls does what the acts of a run do. -/
  reentrant : ∀ (handle : Handle) (calls : List Act), handle ∈ w.scheduler.handles →
    fire minPeriodMs (fun w => after (act minPeriodMs) (deliver handle w) calls) handle w =
      after (act minPeriodMs) w (.fire handle :: calls)
  /-- At most one callback is scheduled. -/
  one : w.scheduler.pending.length ≤ 1
  /-- The timer reports running exactly when one is. -/
  running : w.running = true ↔ w.scheduler.pending.length = 1
  /-- An invalid configuration changes nothing. -/
  invalid : ∀ params : IoTimerConfig, params.valid = false →
    configure minPeriodMs params w = (.NG_OTHER_ERROR, w)
  /-- A configuration with a count leads to that many expiries, if it is not replaced. -/
  counted : ∀ (p n : Nat) (acts : List Act), 0 < p → p ≤ 0xffff → 0 < n → n ≤ 0xffff →
    (∀ a ∈ acts, ¬ a.Replaces) →
    let later := after (act minPeriodMs) w (.configure ⟨.integer p, .integer n⟩ :: acts)
    ∃ k, k ≤ n ∧ later.delivered.length = w.delivered.length + k ∧
      (later.running = true ↔ k < n) ∧
      ∀ m, n ≤ k + m → ((tick minPeriodMs)^[m] later).delivered.length = w.delivered.length + n
  /-- A configuration without a count leads to ever more expiries. -/
  endless : ∀ (p : Nat) (acts : List Act), 0 < p → p ≤ 0xffff →
    (∀ a ∈ acts, ¬ a.Replaces) →
    let later := after (act minPeriodMs) w (.configure ⟨.integer p, .integer 0⟩ :: acts)
    later.running = true ∧
      ∀ m, ((tick minPeriodMs)^[m] later).delivered.length = later.delivered.length + m
  /-- Behind a configuration or a stop, no callback that was scheduled before leads to an
  expiry. -/
  outdated : ∀ (a : Act) (acts : List Act), a.Replaces →
    ∃ expiries, (after (act minPeriodMs) w (a :: acts)).delivered = w.delivered ++ expiries ∧
      ∀ handle ∈ expiries, w.scheduler.next ≤ handle ∧ handle ∉ w.scheduler.handles

theorem running_iff (h : Sound w) :
    w.running = true ↔ w.scheduler.pending.length = 1 := by
  have hlength : w.scheduler.pending.length = w.handle.toList.length := by
    rw [← h.scheduled, Scheduler.handles, List.length_map]
  rw [hlength, World.running]
  cases w.handle <;> simp

theorem Counting.running_iff (h : Counting n base k w) (hn : 0 < n) : w.running = true ↔ k < n := by
  rcases h.counting with ⟨hzero, -⟩ | ⟨hlt, hrunning, -⟩ | ⟨-, hk, hstopped⟩
  · omega
  · exact iff_of_true hrunning hlt
  · exact iff_of_false (Bool.eq_false_iff.mp hstopped) (by omega)

/-- `IoTimer` keeps its promises in every state of every run, inside `onExpire` and outside. -/
theorem timer_conformance (minPeriodMs : Int) (acts : List Act) :
    Conforms minPeriodMs (after (act minPeriodMs) initial acts) := by
  have hsound := sound_after minPeriodMs sound_initial acts
  generalize after (act minPeriodMs) initial acts = w at hsound
  constructor
  · exact fun handle calls hmem => fire_onExpire minPeriodMs hmem calls
  · have hlength : w.scheduler.pending.length = w.handle.toList.length := by
      rw [← hsound.scheduled, Scheduler.handles, List.length_map]
    rw [hlength]
    cases w.handle <;> simp
  · exact running_iff hsound
  · exact fun params => configure_invalid
  · intro p n acts hp hp16 hn hn16 hacts
    obtain ⟨k, hk⟩ := (counting_configure hsound hp hp16 hn16).after hacts
    refine ⟨k, ?_, hk.length, hk.running_iff hn, ?_⟩
    · rcases hk.counting with ⟨hzero, -⟩ | ⟨hlt, -⟩ | ⟨-, hend, -⟩ <;> omega
    · intro m hm
      obtain ⟨j, hj, -, hcount⟩ := hk.ticks minPeriodMs m
      have hjn := hcount hn
      exact hj.length.trans (by omega)
  · intro p acts hp hp16 hacts
    obtain ⟨k, hk⟩ := (counting_configure hsound hp hp16 (Nat.zero_le _)).after hacts
    refine ⟨?_, ?_⟩
    · rcases hk.counting with ⟨-, hrunning, -⟩ | ⟨hlt, -⟩ | ⟨hpos, -⟩
      · exact hrunning
      · omega
      · omega
    · intro m
      obtain ⟨j, hj, hendless, -⟩ := hk.ticks minPeriodMs m
      have hjm := hendless rfl
      have hlength : (after (act minPeriodMs) w
          (.configure ⟨.integer p, .integer 0⟩ :: acts)).delivered.length = w.delivered.length + k :=
        hk.length
      exact hj.length.trans (by omega)
  · intro a acts ha
    have hown : ∀ handle ∈ (act minPeriodMs w a).scheduler.handles, w.scheduler.next ≤ handle := by
      intro handle hmem
      exact (act_handles hsound a handle hmem).resolve_left fun hkept => hkept.1 ha
    obtain ⟨expiries, hdelivered, hlater⟩ :=
      delivered_after (sound_act hsound a) (next_act hsound a) hown acts
    refine ⟨expiries, ?_, fun handle hmem => ⟨hlater handle hmem, fun hold => ?_⟩⟩
    · exact hdelivered.trans (congrArg (· ++ expiries) (replaces_delivered ha))
    · exact absurd (hsound.used handle hold) (Nat.not_lt.mpr (hlater handle hmem))

end Conformance

end IoTimer
end EmuTs
end RetroCpu
