import RetroCpu.EmuTs.Mn1613Run

/-!
# Interrupt requests of the TypeScript MN1613 core

A pending request disappears only by being accepted or by a reset, in every run that
executes no undefined instruction while a request of level 0 is pending.  The trap of an
undefined instruction enters level 0 through `_acceptIrq`, which clears the request of
that level whether or not it was the reason to enter it.
-/

namespace RetroCpu
namespace EmuTs
namespace Mn1613

open Js Prog RetroCpu.Mn1613

variable {σ : Type} (bd : Board σ)

section Accept

/-- The words of level `lv` in the save area. -/
theorem save_address (lv : Level) :
    land (phys ((lv.val : Int) * 2) 0) 0x3ffff = (lv.val : Int) * 2 ∧
      land (phys ((lv.val : Int) * 2 + 1) 0) 0x3ffff = (lv.val : Int) * 2 + 1 := by
  revert lv
  decide

theorem acceptIrq_mem (lv : Level) (s : Cpu σ) :
    ((acceptIrq bd lv).run s).2.mem =
      setUint16 (setUint16 s.mem ((lv.val : Int) * 2) (land s.reg.STR 0xffff))
        ((lv.val : Int) * 2 + 1) (land s.reg.IC 0xffff) := by
  obtain ⟨hstr, hic⟩ := save_address lv
  have hrun : ((acceptIrq bd lv).run s).2.mem =
      setUint16 (setUint16 s.mem (land (phys ((lv.val : Int) * 2) 0) 0x3ffff)
        (land s.reg.STR 0xffff)) (land (phys ((lv.val : Int) * 2 + 1) 0) 0x3ffff)
        (land s.reg.IC 0xffff) := rfl
  rw [hrun, hstr, hic]

theorem acceptIrq_OSR (lv : Level) (s : Cpu σ) :
    ((acceptIrq bd lv).run s).2.reg.OSR =
      Function.update s.reg.OSR lv.castSucc (land s.reg.CSBR 0xf) := rfl

/-- The programs that only add requests. -/
def raising : GradedRel (Cpu σ) where
  rel _ s s' := ∃ irq : List Level, s'.pendingIRQ = irq.foldl raise s.pendingIRQ
  refl _ := ⟨[], rfl⟩
  comp := by
    rintro _ _ s s' s'' ⟨irq, h⟩ ⟨irq', h'⟩
    refine ⟨irq ++ irq', ?_⟩
    rw [List.foldl_append, h', h]

theorem rdPhys_raising (p : Int) : Moves raising 0 (rdPhys bd p) := fun _ => ⟨_, rfl⟩

theorem wrPhys_raising (p v : Int) : Moves raising 0 (wrPhys bd p v) := fun _ => ⟨_, rfl⟩

theorem setReg_raising (f : CPURegister → CPURegister) :
    Moves raising 0 (setReg f : M σ Unit) := fun _ => ⟨[], rfl⟩

theorem reg_raising {α : Type} (f : CPURegister → α) : Moves raising 0 (reg f : M σ α) :=
  fun _ => ⟨[], rfl⟩

/-- Accepting a level clears its request and no other. -/
theorem acceptIrq_pending (lv : Level) (s : Cpu σ) :
    ∃ irq : List Level, ((acceptIrq bd lv).run s).2.pendingIRQ =
      irq.foldl raise (land s.pendingIRQ (lnot (shl 1 (lv.val : Int)))) := by
  let rest : M σ Unit := do
    setOSR lv.castSucc (land (← reg CPURegister.CSBR) 0xf)
    setReg fun r => { r with CSBR := 0 }
    wrPhys bd (phys ((lv.val : Int) * 2) 0) (← reg CPURegister.STR)
    wrPhys bd (phys ((lv.val : Int) * 2 + 1) 0) (← reg CPURegister.IC)
    let npsw := shl (land (← reg CPURegister.NPP) 0xff) 8
    let str ← rdPhys bd (phys (npsw + (lv.val : Int) * 2) 0)
    setReg fun r => { r with STR := str }
    let ic ← rdPhys bd (phys (npsw + (lv.val : Int) * 2 + 1) 0)
    setReg fun r => { r with IC := ic }
  have hrest : Moves raising 0 rest := by
    refine (reg_raising _).bind_zero fun _ => (setReg_raising _).bind_zero fun _ => ?_
    refine (setReg_raising _).bind_zero fun _ => (reg_raising _).bind_zero fun _ => ?_
    refine (wrPhys_raising bd _ _).bind_zero fun _ => (reg_raising _).bind_zero fun _ => ?_
    refine (wrPhys_raising bd _ _).bind_zero fun _ => (reg_raising _).bind_zero fun _ => ?_
    refine (rdPhys_raising bd _).bind_zero fun _ => (setReg_raising _).bind_zero fun _ => ?_
    exact (rdPhys_raising bd _).bind_zero fun _ => setReg_raising _
  have hsplit : acceptIrq bd lv = (do
      modify fun s => { s with pendingIRQ := land s.pendingIRQ (lnot (shl 1 (lv.val : Int))) }
      rest) := rfl
  rw [hsplit, run_bind, run_modify]
  exact hrest _

end Accept

section Level

theorem acceptable_iff (s : Cpu σ) (lv : Level) :
    acceptable s lv = true ↔
      requested s.pendingIRQ lv ∧ land s.reg.STR (levelMask lv) ≠ 0 := by
  simp [acceptable, requested]

theorem level_lt_one : ∀ lv : Level, lv < 1 → lv = 0 := by decide

theorem level_lt_two : ∀ lv : Level, lv < 2 → lv = 0 ∨ lv = 1 := by decide

theorem irqLevel_some {s : Cpu σ} {lv : Level} (h : irqLevel s = some lv) :
    acceptable s lv = true ∧ ∀ lv' < lv, acceptable s lv' = false := by
  unfold irqLevel at h
  simp only [List.find?_cons, List.find?_nil] at h
  cases h0 : acceptable s 0 with
  | true =>
      simp only [h0, Option.some.injEq] at h
      subst h
      exact ⟨h0, fun lv' hlt => absurd hlt (Fin.not_lt_zero lv')⟩
  | false =>
      cases h1 : acceptable s 1 with
      | true =>
          simp only [h0, h1, Option.some.injEq] at h
          subst h
          refine ⟨h1, fun lv' hlt => ?_⟩
          rw [level_lt_one lv' hlt]
          exact h0
      | false =>
          cases h2 : acceptable s 2 with
          | true =>
              simp only [h0, h1, h2, Option.some.injEq] at h
              subst h
              refine ⟨h2, fun lv' hlt => ?_⟩
              rcases level_lt_two lv' hlt with rfl | rfl
              · exact h0
              · exact h1
          | false => simp [h0, h1, h2] at h

theorem requested_ne_zero {pending : Int} {lv : Level} (h : requested pending lv) :
    pending ≠ 0 := by
  rintro rfl
  exact requested_zero lv h

/-- The interrupt check accepts the level that `_handleIRQ` finds. -/
theorem checkIRQ_accept {s : Cpu σ} {lv : Level} (h : irqLevel s = some lv) :
    (checkIRQ bd).run s = (acceptIrq bd lv).run s := by
  have hacc := (acceptable_iff s lv).mp (irqLevel_some h).1
  rw [checkIRQ_pending bd (requested_ne_zero hacc.1), handleIRQ_some bd h]

theorem checkIRQ_none {s : Cpu σ} (h : irqLevel s = none) : (checkIRQ bd).run s = ((), s) := by
  by_cases hp : s.pendingIRQ = 0
  · exact checkIRQ_idle bd hp
  · rw [checkIRQ_pending bd hp, handleIRQ_none bd h]

end Level

/-- A step from `s` accepts the request of level `lv`: the request is enabled and no
lower-numbered one is, `STR`, `IC` and `CSBR` are saved, and of the pending requests only
this one is cleared. -/
structure Accepted (s : Cpu σ) (lv : Level) : Prop where
  requested : requested s.pendingIRQ lv
  enabled : land s.reg.STR (levelMask lv) ≠ 0
  lowest : ∀ lv' < lv,
    ¬ (Mn1613.requested s.pendingIRQ lv' ∧ land s.reg.STR (levelMask lv') ≠ 0)
  savedSTR : getUint16 ((checkIRQ bd).run s).2.mem ((lv.val : Int) * 2) = land s.reg.STR 0xffff
  savedIC : getUint16 ((checkIRQ bd).run s).2.mem ((lv.val : Int) * 2 + 1) = land s.reg.IC 0xffff
  savedCSBR : ((checkIRQ bd).run s).2.reg.OSR lv.castSucc = land s.reg.CSBR 0xf
  cleared : ∃ irq : List Level, ((checkIRQ bd).run s).2.pendingIRQ =
    irq.foldl raise (land s.pendingIRQ (lnot (shl 1 (lv.val : Int))))

theorem within_save (lv : Level) :
    Within 0x3ffff ((lv.val : Int) * 2) ∧ Within 0x3ffff ((lv.val : Int) * 2 + 1) := by
  have hlv := lv.isLt
  unfold Within
  omega

theorem accepted_of_irqLevel {s : Cpu σ} {lv : Level} (h : irqLevel s = some lv) :
    Accepted bd s lv := by
  obtain ⟨hacc, hlow⟩ := irqLevel_some h
  obtain ⟨hreq, hen⟩ := (acceptable_iff s lv).mp hacc
  obtain ⟨hstr, hic⟩ := within_save lv
  have hrun := checkIRQ_accept bd h
  refine ⟨hreq, hen, fun lv' hlt hcon => ?_, ?_, ?_, ?_, ?_⟩
  · have hfalse := hlow lv' hlt
    rw [(acceptable_iff s lv').mpr hcon] at hfalse
    cases hfalse
  · rw [hrun, acceptIrq_mem, getUint16_setUint16_ne _ hic hstr (by omega),
      getUint16_setUint16 _ hstr (within_land_word _)]
  · rw [hrun, acceptIrq_mem, getUint16_setUint16 _ hic (within_land_word _)]
  · rw [hrun, acceptIrq_OSR, Function.update_self]
  · rw [hrun]
    exact acceptIrq_pending bd lv s

section Step

/-- The interrupt check keeps the request of a level that it does not accept. -/
theorem checkIRQ_requested {s : Cpu σ} {lv : Level} (hne : irqLevel s ≠ some lv)
    (hr : requested s.pendingIRQ lv) : requested ((checkIRQ bd).run s).2.pendingIRQ lv := by
  cases hlv : irqLevel s with
  | none =>
      rw [checkIRQ_none bd hlv]
      exact hr
  | some lv' =>
      have hL : ¬ (Scope.plain bd (· = lv)).L lv' := by
        intro h
        have h' : lv' = lv := h
        rw [hlv, h'] at hne
        exact hne rfl
      rw [checkIRQ_accept bd hlv]
      exact (acceptIrq_moves (W := Scope.plain bd (· = lv)) bd hL s).1 lv rfl hr

theorem instruction_requested {s : Cpu σ} {lv : Level} (hne : irqLevel s ≠ some lv)
    (hr : requested s.pendingIRQ lv) : requested (instruction bd s).2.pendingIRQ lv := by
  have hcheck := checkIRQ_requested bd hne hr
  have hfetch := fetchInstruction_moves bd (W := Scope.plain bd (· = lv)) ((checkIRQ bd).run s).2
  exact hfetch.1 lv rfl hcheck

theorem execute_requested {ir : Int} {s : Cpu σ} {lv : Level}
    (hsafe : lv = 0 → ¬ isUndefined ir) (hr : requested s.pendingIRQ lv) :
    requested ((execute bd ir).run s).2.pendingIRQ lv :=
  (execute_moves bd (W := Scope.plain bd (· = lv)) ir (fun h => hsafe h.symm) s).1 lv rfl hr

/-- A step that drops a request has accepted it, or has trapped an undefined instruction
while level 0 was requested. -/
theorem stepOne_requested {s : Cpu σ} {lv : Level} (hr : requested s.pendingIRQ lv)
    (hlost : ¬ requested (stepOne bd s).pendingIRQ lv) :
    irqLevel s = some lv ∨
      (isUndefined (instruction bd s).1 ∧ requested (instruction bd s).2.pendingIRQ 0) := by
  by_cases hacc : irqLevel s = some lv
  · exact .inl hacc
  · right
    have hpre := instruction_requested bd hacc hr
    by_cases hbad : lv = 0 ∧ isUndefined (instruction bd s).1
    · obtain ⟨rfl, hundef⟩ := hbad
      exact ⟨hundef, hpre⟩
    · exact absurd (execute_requested bd (fun h hu => hbad ⟨h, hu⟩) hpre) hlost

end Step

section Run

variable (b : Machine σ)

/-- Event `e` executes an undefined instruction while a request of level 0 is pending. -/
def Machine.trapsRequested (e : Event σ) : Prop :=
  ∃ s, b.executing bd e = some s ∧ isUndefined (instruction bd s).1 ∧
    requested (instruction bd s).2.pendingIRQ 0

/-- Event `e` takes the request of level `lv` away, by a reset or by accepting it. -/
def Machine.Takes (e : Event σ) (lv : Level) : Prop :=
  b.resets e = true ∨ ∃ s, b.executing bd e = some s ∧ Accepted bd s lv

theorem start_requested {e : Event σ} {s₀ : Cpu σ} {lv : Level}
    (hs : Machine.Start bd b e s₀) (hr : requested b.cpu.pendingIRQ lv) :
    b.resets e = true ∨ requested s₀.pendingIRQ lv := by
  cases hs with
  | keep => exact .inr hr
  | reset h => exact .inl h
  | powerOn => exact .inl rfl
  | setState p => exact .inr hr
  | run a => exact .inr hr
  | external mem change => exact .inr hr

/-- One event keeps a request unless it takes it. -/
theorem handle_requested {e : Event σ} {lv : Level} (hsafe : ¬ b.trapsRequested bd e)
    (hr : requested b.cpu.pendingIRQ lv) :
    requested (b.handle bd e).cpu.pendingIRQ lv ∨ b.Takes bd e lv := by
  obtain ⟨s₀, hstart, hout⟩ := Machine.handle_cases bd b e
  rcases start_requested bd b hstart hr with hreset | hr₀
  · exact .inr (.inl hreset)
  · cases hexec : b.executing bd e with
    | none =>
        rw [hexec] at hout
        exact .inl (hout.pending lv hr₀)
    | some s =>
        rw [hexec] at hout
        obtain ⟨hquiet, hquiet'⟩ := hout
        by_cases hkept : requested (stepOne bd s).pendingIRQ lv
        · exact .inl (hquiet'.pending lv hkept)
        · right
          rcases stepOne_requested bd (hquiet.pending lv hr₀) hkept with hacc | hbad
          · exact .inr ⟨s, hexec, accepted_of_irqLevel bd hacc⟩
          · exact absurd ⟨s, hexec, hbad⟩ hsafe

/-- In the run of the events `es` from `b`, machine `m` meets event `e`. -/
def Machine.Meets (es : List (Event σ)) (m : Machine σ) (e : Event σ) : Prop :=
  ∃ pre post, es = pre ++ e :: post ∧ m = b.handleAll bd pre

theorem meets_head (e : Event σ) (es : List (Event σ)) : b.Meets bd (e :: es) b e :=
  ⟨[], es, rfl, rfl⟩

theorem meets_tail {e e' : Event σ} {es : List (Event σ)} {m : Machine σ}
    (h : (b.handle bd e).Meets bd es m e') : b.Meets bd (e :: es) m e' := by
  obtain ⟨pre, post, rfl, rfl⟩ := h
  exact ⟨e :: pre, post, rfl, rfl⟩

/-- A request pending at the start of a run is pending at its end, or some event of the
run has taken it. -/
theorem run_requested (es : List (Event σ)) {lv : Level}
    (hsafe : ∀ m e, b.Meets bd es m e → ¬ m.trapsRequested bd e)
    (hr : requested b.cpu.pendingIRQ lv) :
    requested (b.handleAll bd es).cpu.pendingIRQ lv ∨
      ∃ m e, b.Meets bd es m e ∧ m.Takes bd e lv := by
  induction es generalizing b with
  | nil => exact .inl hr
  | cons e es ih =>
      rcases handle_requested bd b (hsafe b e (meets_head bd b e es)) hr with hkept | htaken
      · have hsafe' : ∀ m e', (b.handle bd e).Meets bd es m e' → ¬ m.trapsRequested bd e' :=
          fun m e' h => hsafe m e' (meets_tail bd b h)
        rcases ih (b.handle bd e) hsafe' hkept with hend | ⟨m, e', hm, ht⟩
        · exact .inl hend
        · exact .inr ⟨m, e', meets_tail bd b hm, ht⟩
      · exact .inr ⟨b, e, meets_head bd b e es, htaken⟩

/-- No request is lost or accepted twice.  In every run of events that executes no
undefined instruction while level 0 is requested: a pending bit is cleared only by a
reset or by a step that accepts it, every acceptance saves the state, is of the lowest
enabled level and clears that one bit, and a request survives the run unless an event of
the run takes it. -/
theorem requests_kept (es : List (Event σ))
    (hsafe : ∀ m e, b.Meets bd es m e → ¬ m.trapsRequested bd e) :
    (∀ m e, b.Meets bd es m e →
      (∀ lv, requested m.cpu.pendingIRQ lv →
        ¬ requested (m.handle bd e).cpu.pendingIRQ lv → m.Takes bd e lv) ∧
      (∀ s lv, m.executing bd e = some s → irqLevel s = some lv → Accepted bd s lv)) ∧
    (∀ lv, requested b.cpu.pendingIRQ lv →
      requested (b.handleAll bd es).cpu.pendingIRQ lv ∨
        ∃ m e, b.Meets bd es m e ∧ m.Takes bd e lv) := by
  refine ⟨fun m e hm => ⟨fun lv hr hlost => ?_, fun s lv _ hlv => ?_⟩, fun lv hr => ?_⟩
  · rcases handle_requested bd m (hsafe m e hm) hr with hkept | htaken
    · exact absurd hkept hlost
    · exact htaken
  · exact accepted_of_irqLevel bd hlv
  · exact run_requested bd b es hsafe hr

/-- A request of level 1 that is not enabled survives a step. -/
theorem requests_kept_step :
    let b := Machine.initial (fun _ => 0x4801#16) ()
    let es := [.triggerInterrupt 1, .step]
    requested (b.handle .default (.triggerInterrupt 1)).cpu.pendingIRQ 1 ∧
      ∀ lv, requested b.cpu.pendingIRQ lv →
        requested (b.handleAll .default es).cpu.pendingIRQ lv ∨
          ∃ m e, b.Meets .default es m e ∧ m.Takes .default e lv := by
  refine ⟨by decide, (requests_kept .default _ _ fun m e hmeets => ?_).2⟩
  obtain ⟨pre, post, hes, rfl⟩ := hmeets
  rintro ⟨s, hexec, hundef, _⟩
  cases pre with
  | nil =>
      obtain ⟨rfl, -⟩ := List.cons.inj hes
      cases hexec
  | cons e' pre =>
      cases pre with
      | nil =>
          obtain ⟨rfl, hes'⟩ := List.cons.inj hes
          obtain ⟨rfl, -⟩ := List.cons.inj hes'
          cases hexec
          revert hundef
          decide
      | cons e'' pre => simp at hes

/-- The trap of the undefined word 0 drops a request of level 0 that is not enabled. -/
theorem trap_drops_request :
    let m := (Machine.initial (fun _ => 0#16) ()).handle .default (.triggerInterrupt 0)
    requested m.cpu.pendingIRQ 0 ∧ ¬ requested (m.handle .default .step).cpu.pendingIRQ 0 ∧
      ¬ m.Takes .default .step 0 := by
  refine ⟨by decide, by decide, ?_⟩
  rintro (hreset | ⟨s, hexec, hacc⟩)
  · cases hreset
  · cases hexec
    have hen := hacc.enabled
    revert hen
    decide

end Run

end Mn1613
end EmuTs
end RetroCpu
