import RetroCpu.AsmTs.Extents
import RetroCpu.AsmTs.RelativeOperand

/-!
# The places of the words

Without `.org`, what a program puts into an area stands behind what is there already.  The
assembler has one location counter of 16 bits for each written name of an area.  So words meet
when the unnamed area and `_CODE`, which are linked as one, are both in use, and when an area
gets more units than a counter can count.
-/

namespace RetroCpu
namespace AsmTs

open Js Checked

section Takings

/-- The units that a reservation asks for; an infinite one asks for more than there are. -/
def askedUnits (factor : Int) : Number → Int
  | .int n => factor * n
  | .infinity _ => 65537
  | .nan => 0

variable (target : Target) (mentions : String → String → Except String Bool)
  (symbols : SymbolTable) (symbolInfos : SymbolInfoTable)

/-- The units that a storage line asks for, before they are cut to 16 bits. -/
def askedSize (line : ParsedLine) : Int :=
  let words := target.byteMode && toUpperCase (line.op.getD "") == ".BLKW"
  match evalExpr (line.arg 0) symbols false with
  | .ok count => askedUnits (if words then 2 else 1) count
  | .error _ => 0

/-- The units that a line takes. -/
def lineSize (line : ParsedLine) (st st' : Pass2) : Int :=
  if line.operation.map lineKind = some .storage then askedSize target symbols line
  else (st'.words.length - st.words.length : Nat) * target.addrStep

/-- A part of a linked area. -/
structure Region where
  area : String
  start : Int
  stop : Int
deriving DecidableEq, Repr

/-- What a line reserves. -/
def lineRegion (line : ParsedLine) (st : Pass2) : List Region :=
  if line.operation.map lineKind = some .storage ∧ askedSize target symbols line ≠ 0 then
    [⟨canonicalAreaName st.areas.current, areaPc st.areas,
      areaPc st.areas + askedSize target symbols line⟩]
  else []

/-- What the lines of a run of the second pass reserve. -/
def reservedRegions : Pass2 → List ParsedLine → List Region
  | _, [] => []
  | st, line :: lines =>
      match pass2Line target mentions symbols symbolInfos st line with
      | .ok st' => lineRegion target symbols line st ++ reservedRegions st' lines
      | .error _ => []

/-- The units that have been taken under a written name. -/
def areaTotal (key : String) : List (String × Int) → Int
  | [] => 0
  | e :: taken => (if e.1 = key then e.2 else 0) + areaTotal key taken

/-- Under no other name has something been taken of the area of a name. -/
def OnlyName (key : String) (taken : List (String × Int)) : Prop :=
  ∀ e ∈ taken, e.2 ≠ 0 → canonicalAreaName e.1 = canonicalAreaName key → e.1 = key

/-- What the lines take has room in 16 bits, and each linked area is written in one way. -/
def HasRoom : List (String × Int) → Pass2 → List ParsedLine → Prop
  | _, _, [] => True
  | taken, st, line :: lines =>
      match pass2Line target mentions symbols symbolInfos st line with
      | .error _ => True
      | .ok st' =>
          (lineSize target symbols line st st' ≠ 0 →
            areaTotal st.areas.current taken + lineSize target symbols line st st' ≤ 65536 ∧
              OnlyName st.areas.current taken) ∧
          HasRoom ((st.areas.current, lineSize target symbols line st st') :: taken) st' lines

instance (key : String) (taken : List (String × Int)) : Decidable (OnlyName key taken) :=
  inferInstanceAs (Decidable (∀ e ∈ taken, _))

instance decidableHasRoom : (taken : List (String × Int)) → (st : Pass2) →
    (lines : List ParsedLine) →
      Decidable (HasRoom target mentions symbols symbolInfos taken st lines)
  | _, _, [] => .isTrue trivial
  | taken, st, line :: lines =>
      match h : pass2Line target mentions symbols symbolInfos st line with
      | .error _ => .isTrue (by rw [HasRoom, h]; trivial)
      | .ok st' =>
          have := decidableHasRoom
            ((st.areas.current, lineSize target symbols line st st') :: taken) st' lines
          decidable_of_iff
            ((lineSize target symbols line st st' ≠ 0 →
                areaTotal st.areas.current taken + lineSize target symbols line st st' ≤ 65536 ∧
                  OnlyName st.areas.current taken) ∧
              HasRoom target mentions symbols symbolInfos
                ((st.areas.current, lineSize target symbols line st st') :: taken) st' lines)
            (by rw [HasRoom, h])

/-- No two words have a place in common, none lies in what is reserved, and nothing passes
the top of an area. -/
structure SharesNothing (words : List EmittedWord) (regions : List Region) : Prop where
  distinct : (words.map fun w => (w.area, w.address)).Nodup
  reserved : ∀ w ∈ words, ∀ r ∈ regions, r.area = w.area →
    w.address + target.addrStep ≤ r.start ∨ r.stop ≤ w.address
  wordTop : ∀ w ∈ words, w.address + target.addrStep ≤ 65536
  regionTop : ∀ r ∈ regions, r.stop ≤ 65536

end Takings

section Totals

variable {key area : String} {size start stop : Int} {taken : List (String × Int)}

theorem areaTotal_cons_self : areaTotal key ((key, size) :: taken) = size + areaTotal key taken := by
  rw [areaTotal, if_pos rfl]

theorem areaTotal_cons_of_ne {key' : String} (h : key ≠ key') :
    areaTotal key' ((key, size) :: taken) = areaTotal key' taken := by
  rw [areaTotal, if_neg h, Int.zero_add]

/-- A part of an area that has been taken, under some name. -/
def Within (taken : List (String × Int)) (area : String) (start stop : Int) : Prop :=
  ∃ key, canonicalAreaName key = area ∧ 0 ≤ start ∧ stop ≤ areaTotal key taken ∧
    ∃ e ∈ taken, e.1 = key ∧ e.2 ≠ 0

theorem Within.cons (h : Within taken area start stop) (hsize : 0 ≤ size) :
    Within ((key, size) :: taken) area start stop := by
  obtain ⟨key', harea, hstart, hstop, e, he, hkey, hne⟩ := h
  refine ⟨key', harea, hstart, ?_, e, List.mem_cons_of_mem _ he, hkey, hne⟩
  by_cases heq : key = key'
  · rw [← heq] at hstop ⊢
    rw [areaTotal_cons_self]
    omega
  · rw [areaTotal_cons_of_ne heq]
    exact hstop

/-- What has been taken of an area lies below its counter. -/
theorem Within.stop_le (h : Within taken area start stop) (honly : OnlyName key taken)
    (harea : canonicalAreaName key = area) : stop ≤ areaTotal key taken := by
  obtain ⟨key', harea', _, hstop, e, he, rfl, hne⟩ := h
  rw [← honly e he hne (harea'.trans harea.symm)]
  exact hstop

theorem Within.of_line (hstart : 0 ≤ start) (hstop : stop ≤ size + areaTotal key taken)
    (hsize : size ≠ 0) : Within ((key, size) :: taken) (canonicalAreaName key) start stop :=
  ⟨key, rfl, hstart, by rw [areaTotal_cons_self]; exact hstop, _, List.mem_cons_self, rfl, hsize⟩

end Totals

section Counters

variable {ctx : AreaContext} {key : String}

/-- The counter of a written name; a name that is new starts at 0. -/
def counterOf (ctx : AreaContext) (key : String) : Int := ((ctx.areas.get key).getD ⟨0, false⟩).pc

theorem counterOf_current : counterOf ctx ctx.current = areaPc ctx := rfl

theorem counterOf_setAreaPc (pc : Int) : counterOf (setAreaPc ctx pc) key =
    if key = ctx.current then pc % 65536 else counterOf ctx key := by
  rw [counterOf, setAreaPc, JsMap.get_set]
  by_cases hkey : ctx.current = key
  · rw [if_pos hkey, if_pos hkey.symm]
    exact land_ffff pc
  · rw [if_neg hkey, if_neg fun h => hkey h.symm]
    rfl

theorem counterOf_switchArea (name : String) (noload : Bool) :
    counterOf (switchArea ctx name noload) key = counterOf ctx key := by
  rw [counterOf, switchArea, JsMap.get_set]
  by_cases hkey : toUpperCase name = key
  · rw [if_pos hkey, counterOf, hkey]
    cases ctx.areas.get key with
    | none => rfl
    | some loc => cases noload <;> rfl
  · rw [if_neg hkey]
    rfl

end Counters

section Words

variable {target : Target} {mentions : String → String → Except String Bool}
  {symbols : SymbolTable} {symbolInfos : SymbolInfoTable} {line : ParsedLine}
  {area : String} {pc : Int} {ws : List EmittedWord}

theorem units_nonneg (target : Target) (n : Nat) : 0 ≤ (n : Int) * target.addrStep :=
  Int.mul_nonneg (Int.natCast_nonneg n) addrStep_pos.le

theorem units_succ (target : Target) (n : Nat) :
    ((n + 1 : Nat) : Int) * target.addrStep = target.addrStep + n * target.addrStep := by
  push_cast
  ring

/-- Words of an area, one behind the other. -/
def Consecutive (target : Target) (area : String) : Int → List EmittedWord → Prop
  | _, [] => True
  | pc, w :: ws => w.area = area ∧ w.address = pc ∧ Consecutive target area (pc + target.addrStep) ws

theorem Consecutive.append {ws' : List EmittedWord} (h : Consecutive target area pc ws)
    (h' : Consecutive target area (pc + ws.length * target.addrStep) ws') :
    Consecutive target area pc (ws ++ ws') := by
  induction ws generalizing pc with
  | nil =>
      rw [List.length_nil, Nat.cast_zero, Int.zero_mul, Int.add_zero] at h'
      exact h'
  | cons w ws ih =>
      refine ⟨h.1, h.2.1, ih h.2.2 ?_⟩
      rw [List.length_cons, units_succ, ← Int.add_assoc] at h'
      exact h'

theorem Consecutive.range (h : Consecutive target area pc ws) {w : EmittedWord} (hw : w ∈ ws) :
    w.area = area ∧ pc ≤ w.address ∧
      w.address + target.addrStep ≤ pc + ws.length * target.addrStep := by
  have hstep : 0 < target.addrStep := addrStep_pos
  induction ws generalizing pc with
  | nil => cases hw
  | cons w' ws ih =>
      have hrest := units_nonneg target ws.length
      rw [List.length_cons, units_succ]
      rcases List.mem_cons.mp hw with rfl | hw
      · exact ⟨h.1, le_of_eq h.2.1.symm, by rw [h.2.1]; omega⟩
      · obtain ⟨harea, hlow, hhigh⟩ := ih h.2.2 hw
        exact ⟨harea, by omega, by omega⟩

theorem Consecutive.nodup (h : Consecutive target area pc ws) :
    (ws.map fun w => (w.area, w.address)).Nodup := by
  induction ws generalizing pc with
  | nil => exact List.nodup_nil
  | cons w ws ih =>
      rw [List.map_cons, List.nodup_cons]
      refine ⟨?_, ih h.2.2⟩
      intro hmem
      obtain ⟨w', hw', heq⟩ := List.mem_map.mp hmem
      have hlow := (h.2.2.range hw').2.1
      have haddr : w'.address = w.address := congrArg Prod.snd heq
      have hstep : 0 < target.addrStep := addrStep_pos
      have hhere := h.2.1
      omega

theorem consecutive_wordsAt {areas : AreaContext} (values : List Int) :
    Consecutive target (canonicalAreaName areas.current) pc
      (wordsAt target areas line pc values) := by
  induction values generalizing pc with
  | nil => exact trivial
  | cons v values ih => exact ⟨rfl, rfl, ih⟩

/-- `n` words have been put behind the others; where they have room, one behind the other. -/
structure Puts (target : Target) (st st' : Pass2) (n : Nat) : Prop where
  current : st'.areas.current = st.areas.current
  counters : ∀ key, counterOf st'.areas key =
    if key = st.areas.current then (areaPc st.areas + n * target.addrStep) % 65536
    else counterOf st.areas key
  words : ∃ ws, st'.words = st.words ++ ws ∧ ws.length = n ∧
    (areaPc st.areas + n * target.addrStep ≤ 65536 →
      Consecutive target (canonicalAreaName st.areas.current) (areaPc st.areas) ws)

theorem Puts.areaPc_eq {st st' : Pass2} {n : Nat} (h : Puts target st st' n) :
    areaPc st'.areas = (areaPc st.areas + n * target.addrStep) % 65536 := by
  have hcounter := h.counters st'.areas.current
  rw [if_pos h.current] at hcounter
  exact hcounter

theorem Puts.refl {st : Pass2} (hr : CountersInRange st.areas) : Puts target st st 0 := by
  refine ⟨rfl, fun key => ?_, [], (List.append_nil _).symm, rfl, fun _ => trivial⟩
  have hpc := areaPc_range hr
  split
  · rename_i hkey
    rw [hkey, counterOf_current]
    omega
  · rfl

theorem Puts.trans {st₁ st₂ st₃ : Pass2} {m n : Nat} (hpc : 0 ≤ areaPc st₁.areas)
    (h : Puts target st₁ st₂ m) (h' : Puts target st₂ st₃ n) : Puts target st₁ st₃ (m + n) := by
  have hsum : ((m + n : Nat) : Int) * target.addrStep =
      m * target.addrStep + n * target.addrStep := by
    push_cast
    ring
  obtain ⟨ws, hws, hlength, hplace⟩ := h.words
  obtain ⟨ws', hws', hlength', hplace'⟩ := h'.words
  refine ⟨h'.current.trans h.current, fun key => ?_, ws ++ ws', ?_, ?_, fun hroom => ?_⟩
  · rw [h'.counters, h.current, h.areaPc_eq, h.counters, hsum]
    split
    · omega
    · rfl
  · rw [hws', hws, List.append_assoc]
  · rw [List.length_append, hlength, hlength']
  · have hstep : 0 < target.addrStep := addrStep_pos
    have hm := units_nonneg target m
    have hn := units_nonneg target n
    rw [hsum] at hroom
    refine (hplace (by omega)).append ?_
    rw [hlength]
    -- a counter that has come round to 0 has nothing behind it
    cases n with
    | zero =>
        rw [List.length_eq_zero_iff.mp hlength']
        exact trivial
    | succ n =>
        have hrest := units_nonneg target n
        rw [units_succ] at hroom hn hplace'
        have heq : areaPc st₂.areas = areaPc st₁.areas + m * target.addrStep := by
          rw [h.areaPc_eq]
          omega
        rw [← heq, ← h.current]
        apply hplace'
        rw [heq]
        omega

theorem puts_word {st : Pass2} {v : Int} {relocs : List WordDiffReloc} :
    Puts target st
      { st with
        words := st.words ++ [emittedWord st.areas line (areaPc st.areas) v]
        relocs := relocs
        areas := setAreaPc st.areas (areaPc st.areas + target.addrStep) } 1 := by
  refine ⟨rfl, fun key => ?_, _, rfl, rfl, fun _ => ⟨rfl, rfl, trivial⟩⟩
  rw [counterOf_setAreaPc, Nat.cast_one, Int.one_mul]

theorem pass2Word_puts {st st' : Pass2} {arg : String}
    (h : pass2Word target mentions symbols symbolInfos line st arg = .ok st') :
    Puts target st st' 1 := by
  unfold pass2Word at h
  dsimp only at h
  rw [error_ite_eq_ok] at h
  replace h := h.2
  cases habs : matchAbsAddrReloc symbolInfos arg with
  | some p =>
      obtain ⟨left, right⟩ := p
      rw [habs] at h
      obtain ⟨v, _, h⟩ := bind_eq_ok.mp h
      obtain rfl := pure_eq_ok.mp h
      exact puts_word
  | none =>
      rw [habs] at h
      obtain ⟨_, _, h⟩ := bind_eq_ok.mp h
      cases hv : (evalExpr arg symbols false >>= fun v => Mn1613.u16 v (line.op.getD "")) with
      | error msg =>
          rw [hv] at h
          cases h
      | ok v =>
          rw [hv] at h
          obtain rfl := pure_eq_ok.mp h
          exact puts_word

theorem pass2Word_range {st st' : Pass2} {arg : String} (hr : CountersInRange st.areas)
    (h : pass2Word target mentions symbols symbolInfos line st arg = .ok st') :
    CountersInRange st'.areas := by
  cases pass2Word_step (List.mem_singleton_self line) h with
  | org pc => exact setAreaPc_range hr _
  | area line name noload => exact switchArea_range hr _ _
  | storage lineNo size => exact setAreaPc_range hr _
  | emit line values relocs => exact setAreaPc_range hr _

theorem foldlM_puts {args : List String} {st st' : Pass2} (hr : CountersInRange st.areas)
    (h : args.foldlM (pass2Word target mentions symbols symbolInfos line) st = .ok st') :
    Puts target st st' args.length := by
  induction args generalizing st with
  | nil =>
      obtain rfl := pure_eq_ok.mp h
      exact Puts.refl hr
  | cons arg args ih =>
      rw [List.foldlM_cons] at h
      obtain ⟨st₁, hword, h⟩ := bind_eq_ok.mp h
      rw [List.length_cons, Nat.add_comm]
      exact (pass2Word_puts hword).trans (areaPc_range hr).1 (ih (pass2Word_range hr hword) h)

theorem pass2Instruction_puts {st st' : Pass2}
    (h : pass2Instruction target symbols symbolInfos st line = .ok st') :
    ∃ n, Puts target st st' n := by
  unfold pass2Instruction at h
  rw [error_ite_eq_ok] at h
  obtain ⟨ws, _, h⟩ := bind_eq_ok.mp h.2
  rw [instructionWords_eq] at h
  obtain ⟨values, hlength, hwords, _⟩ := relocateInstruction_spec target symbolInfos st.areas line
    (areaPc st.areas) (ws.map fun w => land w 0xffff)
  obtain rfl := pure_eq_ok.mp h
  rw [hwords]
  refine ⟨ws.length, rfl, fun key => counterOf_setAreaPc _, _, rfl, ?_, fun _ => ?_⟩
  · rw [length_wordsAt, hlength, List.length_map]
  · exact consecutive_wordsAt values

/-- What a line does to the counters. -/
inductive Places (target : Target) (symbols : SymbolTable) (line : ParsedLine) (st st' : Pass2) :
    Prop
  | puts (n : Nat) (hkind : line.operation.map lineKind ≠ some .storage) (h : Puts target st st' n)
  | switches (name : String) (noload : Bool)
      (hkind : line.operation.map lineKind ≠ some .storage)
      (h : st' = { st with areas := switchArea st.areas name noload })
  | reserves (size : Int) (hkind : line.operation.map lineKind = some .storage)
      (hsize : evalStorageReserve target line symbols false = .ok size)
      (h : st' = { st with
        storageAddrs := (line.lineNo, areaPc st.areas) :: st.storageAddrs
        areas := setAreaPc st.areas (areaPc st.areas + size) })

theorem pass2Line_places {st st' : Pass2} (hr : CountersInRange st.areas)
    (horg : line.operation.map lineKind ≠ some .org)
    (h : pass2Line target mentions symbols symbolInfos st line = .ok st') :
    Places target symbols line st st' := by
  unfold pass2Line at h
  cases hk : line.operation.map lineKind with
  | none =>
      rw [hk] at h
      cases h
      exact .puts 0 (by rw [hk]; exact nofun) (Puts.refl hr)
  | some kind =>
      rw [hk] at h horg
      have hputs {n : Nat} (hne : kind ≠ .storage) (hputs : Puts target st st' n) :
          Places target symbols line st st' := by
        refine .puts n (fun hstorage => hne ?_) hputs
        rw [hk] at hstorage
        exact Option.some.inj hstorage
      cases kind with
      | equ =>
          cases h
          exact hputs nofun (Puts.refl hr)
      | note =>
          cases h
          exact hputs nofun (Puts.refl hr)
      | org => exact absurd rfl horg
      | area =>
          obtain ⟨⟨name, noload⟩, _, h⟩ := bind_eq_ok.mp h
          obtain rfl := pure_eq_ok.mp h
          exact .switches name noload (by rw [hk]; exact nofun) rfl
      | storage =>
          obtain ⟨size, hsize, h⟩ := bind_eq_ok.mp h
          obtain rfl := pure_eq_ok.mp h
          exact .reserves size hk hsize rfl
      | data =>
          dsimp only at h
          rw [error_ite_eq_ok] at h
          obtain ⟨args, _, h⟩ := bind_eq_ok.mp h.2
          exact hputs nofun (foldlM_puts hr h)
      | otherDirective =>
          obtain ⟨n, h⟩ := pass2Instruction_puts h
          exact hputs nofun h
      | instruction =>
          obtain ⟨n, h⟩ := pass2Instruction_puts h
          exact hputs nofun h

end Words

section Reservations

variable {target : Target} {symbols : SymbolTable} {line : ParsedLine}

/-- Where it asks for at most an area, a reservation moves the counter by what it asks for. -/
theorem evalStorageReserve_asked {size : Int}
    (h : evalStorageReserve target line symbols false = .ok size)
    (hfit : askedSize target symbols line ≤ 65536) :
    0 ≤ askedSize target symbols line ∧ size = askedSize target symbols line % 65536 := by
  unfold evalStorageReserve at h
  dsimp only at h
  rw [error_ite_eq_ok] at h
  obtain ⟨count, hcount, h⟩ := bind_eq_ok.mp h.2
  rw [error_ite_eq_ok] at h
  obtain ⟨hneg, h⟩ := h
  obtain rfl := pure_eq_ok.mp h
  rw [land_ffff]
  rw [askedSize, hcount] at hfit ⊢
  dsimp only at hfit ⊢
  generalize (target.byteMode && toUpperCase (line.op.getD "") == ".BLKW") = doubled at hfit ⊢
  cases count with
  | int n =>
      have hn : 0 ≤ n := by simpa [Number.ltInt] using hneg
      cases doubled with
      | false =>
          simp only [askedUnits, Bool.false_eq_true, if_false, Number.bits, Int.one_mul] at hfit ⊢
          exact ⟨hn, trivial⟩
      | true =>
          simp only [askedUnits, if_true] at hfit ⊢
          have hsmall : (n * 2).natAbs < 2 ^ 53 := by omega
          rw [Number.mul, Number.ofInt_of_small hsmall, Number.bits, Int.mul_comm]
          exact ⟨by omega, rfl⟩
  | infinity negative => exact absurd hfit (by rw [askedUnits]; decide)
  | nan =>
      cases doubled with
      | false => exact ⟨le_refl 0, rfl⟩
      | true => exact ⟨le_refl 0, rfl⟩

end Reservations

section Runs

variable {target : Target} {mentions : String → String → Except String Bool}
  {symbols : SymbolTable} {symbolInfos : SymbolInfoTable} {line : ParsedLine}
  {lines : List ParsedLine} {taken : List (String × Int)} {regions : List Region}
  {st st' : Pass2}

/-- What has been put and reserved lies in what has been taken, and apart. -/
structure Placed (target : Target) (taken : List (String × Int)) (regions : List Region)
    (st : Pass2) : Prop where
  range : InRange st
  counters : ∀ key, counterOf st.areas key = areaTotal key taken % 65536
  totals : ∀ key, 0 ≤ areaTotal key taken ∧ areaTotal key taken ≤ 65536
  wordIn : ∀ w ∈ st.words, Within taken w.area w.address (w.address + target.addrStep)
  regionIn : ∀ r ∈ regions, Within taken r.area r.start r.stop
  distinct : (st.words.map fun w => (w.area, w.address)).Nodup
  reserved : ∀ w ∈ st.words, ∀ r ∈ regions, r.area = w.area →
    w.address + target.addrStep ≤ r.start ∨ r.stop ≤ w.address

theorem Placed.init : Placed target [] [] {} := by
  refine ⟨inRange_init, fun key => ?_, fun _ => ⟨le_refl 0, show (0 : Int) ≤ 65536 by decide⟩, nofun,
    nofun, List.nodup_nil, nofun⟩
  rw [areaTotal, counterOf, createAreaContext, JsMap.get_set]
  split <;> rfl

/-- The totals and the counters after a line that takes some units. -/
theorem Placed.count (h : Placed target taken regions st) {size : Int} (hsize : 0 ≤ size)
    (hroom : size ≠ 0 → areaTotal st.areas.current taken + size ≤ 65536)
    {ctx : AreaContext} (hcounters : ∀ key, counterOf ctx key =
      if key = st.areas.current then (areaPc st.areas + size) % 65536 else counterOf st.areas key) :
    (∀ key, counterOf ctx key =
        areaTotal key ((st.areas.current, size) :: taken) % 65536) ∧
      ∀ key, 0 ≤ areaTotal key ((st.areas.current, size) :: taken) ∧
        areaTotal key ((st.areas.current, size) :: taken) ≤ 65536 := by
  have hpc := h.counters st.areas.current
  rw [counterOf_current] at hpc
  constructor
  · intro key
    rw [hcounters]
    by_cases hkey : st.areas.current = key
    · rw [if_pos hkey.symm, hpc, ← hkey, areaTotal_cons_self]
      omega
    · rw [if_neg fun heq => hkey heq.symm, areaTotal_cons_of_ne hkey]
      exact h.counters key
  · intro key
    have htotal := h.totals key
    by_cases hkey : st.areas.current = key
    · rw [← hkey] at htotal ⊢
      rw [areaTotal_cons_self]
      by_cases hzero : size = 0
      · omega
      · have := hroom hzero
        omega
    · rw [areaTotal_cons_of_ne hkey]
      exact htotal

theorem Placed.puts (h : Placed target taken regions st) {n : Nat} (hputs : Puts target st st' n)
    (hrange : InRange st')
    (hroom : (n : Int) * target.addrStep ≠ 0 →
      areaTotal st.areas.current taken + n * target.addrStep ≤ 65536 ∧
        OnlyName st.areas.current taken) :
    Placed target ((st.areas.current, n * target.addrStep) :: taken) regions st' := by
  have hunits := units_nonneg target n
  obtain ⟨hcounters, htotals⟩ := h.count hunits (fun hne => (hroom hne).1) hputs.counters
  obtain ⟨ws, hws, hlength, hplace⟩ := hputs.words
  have hold : ∀ w ∈ st.words, Within ((st.areas.current, n * target.addrStep) :: taken) w.area
      w.address (w.address + target.addrStep) := fun w hw => (h.wordIn w hw).cons hunits
  have hregions : ∀ r ∈ regions, Within ((st.areas.current, n * target.addrStep) :: taken) r.area
      r.start r.stop := fun r hr => (h.regionIn r hr).cons hunits
  cases n with
  | zero =>
      rw [List.length_eq_zero_iff.mp hlength, List.append_nil] at hws
      refine ⟨hrange, hcounters, htotals, ?_, hregions, ?_, ?_⟩
      · rw [hws]
        exact hold
      · rw [hws]
        exact h.distinct
      · rw [hws]
        exact h.reserved
  | succ n =>
      have hstep : 0 < target.addrStep := addrStep_pos
      have hpos : 0 < ((n + 1 : Nat) : Int) * target.addrStep := by
        have hrest := units_nonneg target n
        rw [units_succ]
        omega
      obtain ⟨hfit, honly⟩ := hroom hpos.ne'
      have htotal := h.totals st.areas.current
      -- the counter has not come round
      have hpc : areaPc st.areas = areaTotal st.areas.current taken := by
        have hcounter := h.counters st.areas.current
        rw [counterOf_current] at hcounter
        omega
      have hnew := hplace (by rw [hpc]; exact hfit)
      have hinside {w : EmittedWord} (hw : w ∈ ws) : w.area = canonicalAreaName st.areas.current ∧
          areaTotal st.areas.current taken ≤ w.address ∧ w.address + target.addrStep ≤
            ((n + 1 : Nat) : Int) * target.addrStep + areaTotal st.areas.current taken := by
        obtain ⟨harea, hlow, hhigh⟩ := hnew.range hw
        rw [hlength] at hhigh
        exact ⟨harea, by omega, by omega⟩
      refine ⟨hrange, hcounters, htotals, ?_, hregions, ?_, ?_⟩
      · intro w hw
        rw [hws] at hw
        rcases List.mem_append.mp hw with hw | hw
        · exact hold w hw
        · obtain ⟨harea, hlow, hhigh⟩ := hinside hw
          rw [harea]
          exact Within.of_line (by omega) hhigh hpos.ne'
      · rw [hws, List.map_append]
        refine h.distinct.append hnew.nodup ?_
        intro place hplaceOld hplaceNew
        obtain ⟨w, hw, rfl⟩ := List.mem_map.mp hplaceOld
        obtain ⟨w', hw', heq⟩ := List.mem_map.mp hplaceNew
        obtain ⟨harea, hlow, _⟩ := hinside hw'
        have hsame : w'.area = w.area := congrArg Prod.fst heq
        have haddr : w'.address = w.address := congrArg Prod.snd heq
        have hbelow := (h.wordIn w hw).stop_le honly (harea.symm.trans hsame)
        omega
      · intro w hw r hr harea
        rw [hws] at hw
        rcases List.mem_append.mp hw with hw | hw
        · exact h.reserved w hw r hr harea
        · obtain ⟨harea', hlow, _⟩ := hinside hw
          right
          exact le_trans ((h.regionIn r hr).stop_le honly (harea.trans harea').symm) hlow

theorem Placed.reserves (h : Placed target taken regions st)
    (hrange : InRange st') (hkind : line.operation.map lineKind = some .storage) {size : Int}
    (hsize : evalStorageReserve target line symbols false = .ok size)
    (hroom : askedSize target symbols line ≠ 0 →
      areaTotal st.areas.current taken + askedSize target symbols line ≤ 65536 ∧
        OnlyName st.areas.current taken)
    (heq : st' = { st with
      storageAddrs := (line.lineNo, areaPc st.areas) :: st.storageAddrs
      areas := setAreaPc st.areas (areaPc st.areas + size) }) :
    Placed target ((st.areas.current, askedSize target symbols line) :: taken)
      (regions ++ lineRegion target symbols line st) st' := by
  have htotal := h.totals st.areas.current
  have hfit : askedSize target symbols line ≤ 65536 := by
    by_cases hzero : askedSize target symbols line = 0
    · omega
    · have := (hroom hzero).1
      omega
  obtain ⟨hasked, rfl⟩ := evalStorageReserve_asked hsize hfit
  subst heq
  have hcounts (key : String) :
      counterOf (setAreaPc st.areas (areaPc st.areas + askedSize target symbols line % 65536)) key =
        if key = st.areas.current then (areaPc st.areas + askedSize target symbols line) % 65536
        else counterOf st.areas key := by
    rw [counterOf_setAreaPc, Int.add_emod_emod]
  obtain ⟨hcounters, htotals⟩ := h.count hasked (fun hne => (hroom hne).1) hcounts
  have hold : ∀ w ∈ st.words, Within ((st.areas.current, askedSize target symbols line) :: taken)
      w.area w.address (w.address + target.addrStep) := fun w hw => (h.wordIn w hw).cons hasked
  have hregions : ∀ r ∈ regions, Within
      ((st.areas.current, askedSize target symbols line) :: taken) r.area r.start r.stop :=
    fun r hr => (h.regionIn r hr).cons hasked
  by_cases hzero : askedSize target symbols line = 0
  · rw [lineRegion, if_neg fun hne => hne.2 hzero, List.append_nil]
    exact ⟨hrange, hcounters, htotals, hold, hregions, h.distinct, h.reserved⟩
  · obtain ⟨hroom, honly⟩ := hroom hzero
    have hpc : areaPc st.areas = areaTotal st.areas.current taken := by
      have hcounter := h.counters st.areas.current
      rw [counterOf_current] at hcounter
      omega
    rw [lineRegion, if_pos ⟨hkind, hzero⟩]
    refine ⟨hrange, hcounters, htotals, hold, ?_, h.distinct, ?_⟩
    · intro r hr
      rcases List.mem_append.mp hr with hr | hr
      · exact hregions r hr
      · rw [List.mem_singleton.mp hr]
        exact Within.of_line (by dsimp only; omega) (by dsimp only; omega) hzero
    · intro w hw r hr harea
      rcases List.mem_append.mp hr with hr | hr
      · exact h.reserved w hw r hr harea
      · rw [List.mem_singleton.mp hr] at harea ⊢
        left
        dsimp only at harea ⊢
        rw [hpc]
        exact (h.wordIn w hw).stop_le honly harea

/-- What a line does to what is there. -/
theorem Placed.lineDone (h : Placed target taken regions st)
    (horg : line.operation.map lineKind ≠ some .org)
    (hroom : lineSize target symbols line st st' ≠ 0 →
      areaTotal st.areas.current taken + lineSize target symbols line st st' ≤ 65536 ∧
        OnlyName st.areas.current taken)
    (hline : pass2Line target mentions symbols symbolInfos st line = .ok st') :
    Placed target ((st.areas.current, lineSize target symbols line st st') :: taken)
      (regions ++ lineRegion target symbols line st) st' := by
  have hrange := inRange_line hline h.range
  rw [lineSize] at hroom ⊢
  cases pass2Line_places h.range.counters horg hline with
  | puts n hkind hputs =>
      rw [if_neg hkind] at hroom ⊢
      rw [lineRegion, if_neg fun hstorage => hkind hstorage.1, List.append_nil]
      obtain ⟨ws, hws, hlength, _⟩ := hputs.words
      have hcount : st'.words.length - st.words.length = n := by
        rw [hws, List.length_append, hlength, Nat.add_sub_cancel_left]
      rw [hcount] at hroom ⊢
      exact h.puts hputs hrange hroom
  | switches name noload hkind heq =>
      have hzero : ((st'.words.length - st.words.length : Nat) : Int) * target.addrStep = 0 := by
        rw [heq, Nat.sub_self, Nat.cast_zero, Int.zero_mul]
      rw [if_neg hkind, hzero, lineRegion, if_neg fun hstorage => hkind hstorage.1,
        List.append_nil]
      have htotal (key : String) :
          areaTotal key ((st.areas.current, 0) :: taken) = areaTotal key taken := by
        rw [areaTotal, ite_self, Int.zero_add]
      subst heq
      refine ⟨hrange, fun key => ?_, fun key => ?_, fun w hw => (h.wordIn w hw).cons (le_refl 0),
        fun r hr => (h.regionIn r hr).cons (le_refl 0), h.distinct, h.reserved⟩
      · rw [counterOf_switchArea, htotal]
        exact h.counters key
      · rw [htotal]
        exact h.totals key
  | reserves size hkind hsize heq =>
      rw [if_pos hkind] at hroom ⊢
      exact h.reserves hrange hkind hsize hroom heq

theorem Placed.run (h : Placed target taken regions st)
    (horg : ∀ line ∈ lines, line.operation.map lineKind ≠ some .org)
    (hfits : HasRoom target mentions symbols symbolInfos taken st lines)
    (hrun : lines.foldlM (pass2Line target mentions symbols symbolInfos) st = .ok st') :
    ∃ taken', Placed target taken'
      (regions ++ reservedRegions target mentions symbols symbolInfos st lines) st' := by
  induction lines generalizing taken regions st with
  | nil =>
      obtain rfl := pure_eq_ok.mp hrun
      rw [reservedRegions, List.append_nil]
      exact ⟨taken, h⟩
  | cons line lines ih =>
      rw [List.foldlM_cons] at hrun
      obtain ⟨st₁, hline, hrun⟩ := bind_eq_ok.mp hrun
      rw [HasRoom, hline] at hfits
      rw [reservedRegions, hline]
      dsimp only
      rw [← List.append_assoc]
      exact ih (h.lineDone (horg line List.mem_cons_self) hfits.1 hline)
        (fun line hl => horg line (List.mem_cons_of_mem _ hl)) hfits.2 hrun

theorem Placed.sharesNothing (h : Placed target taken regions st) :
    SharesNothing target st.words regions := by
  refine ⟨h.distinct, h.reserved, fun w hw => ?_, fun r hr => ?_⟩
  · obtain ⟨key, _, _, hstop, _⟩ := h.wordIn w hw
    exact hstop.trans (h.totals key).2
  · obtain ⟨key, _, _, hstop, _⟩ := h.regionIn r hr
    exact hstop.trans (h.totals key).2

end Runs

section Places

/-- The words of a program without `.org` are apart, where all that it takes has room. -/
theorem words_share_nothing (cpu : CpuType) (mentions : String → String → Except String Bool)
    {parsed lines : List ParsedLine} {result : AssemblyResult}
    (hlines : passLines parsed = .ok lines)
    (h : assemble cpu.target mentions parsed = .ok result)
    (horg : ∀ line ∈ lines, line.operation.map lineKind ≠ some .org)
    (hfits : HasRoom cpu.target mentions result.symbols result.symbolInfos [] {} lines) :
    SharesNothing cpu.target result.words
      (reservedRegions cpu.target mentions result.symbols result.symbolInfos {} lines) := by
  obtain ⟨lines', first, second, hassembled⟩ := assemble_eq_ok h
  obtain rfl : lines' = lines := by
    have heq := hassembled.hlines.symm.trans hlines
    cases heq
    rfl
  obtain ⟨taken, hplaced⟩ := Placed.init.run horg hfits hassembled.hsecond
  rw [hassembled.words]
  exact hplaced.sharesNothing

/-- Words and a reservation in two areas. -/
def twoAreas : List ParsedLine :=
  [⟨1, " .ds 2", none, some ".DS", ["2"]⟩, ⟨2, " .word 7", none, some ".WORD", ["7"]⟩,
    ⟨3, " .area _DATA", none, some ".AREA", ["_DATA"]⟩,
    ⟨4, " .word 8", none, some ".WORD", ["8"]⟩]

def twoAreasResult : AssemblyResult where
  words := [⟨2, 7, 2, " .word 7", "_CODE"⟩, ⟨0, 8, 4, " .word 8", "_DATA"⟩]
  symbols := .empty
  symbolInfos := .empty
  relocs := []
  areas := [⟨"_CODE", 3, false⟩, ⟨"_DATA", 1, false⟩]
  storageAddrs := [(1, 0)]
  byteMode := false
  checkpoints := []

theorem assemble_twoAreas : passLines twoAreas = .ok twoAreas ∧
    assemble CpuType.mn1613.target (fun _ _ => .ok false) twoAreas = .ok twoAreasResult ∧
    HasRoom CpuType.mn1613.target (fun _ _ => .ok false) twoAreasResult.symbols
      twoAreasResult.symbolInfos [] {} twoAreas := by
  decide +kernel

theorem twoAreas_shares_nothing :
    SharesNothing CpuType.mn1613.target twoAreasResult.words
      (reservedRegions CpuType.mn1613.target (fun _ _ => .ok false) twoAreasResult.symbols
        twoAreasResult.symbolInfos {} twoAreas) :=
  words_share_nothing .mn1613 _ assemble_twoAreas.1 assemble_twoAreas.2.1 (by decide)
    assemble_twoAreas.2.2

/-- The unnamed area, and `_CODE` by its name. -/
def codeTwice : List ParsedLine :=
  [⟨1, " .word 1", none, some ".WORD", ["1"]⟩,
    ⟨2, " .area _CODE", none, some ".AREA", ["_CODE"]⟩,
    ⟨3, " .word 2", none, some ".WORD", ["2"]⟩]

/-- A word behind the top of the area. -/
def pastTop : List ParsedLine :=
  [⟨1, " .word 1", none, some ".WORD", ["1"]⟩, ⟨2, " .ds 65535", none, some ".DS", ["65535"]⟩,
    ⟨3, " .word 2", none, some ".WORD", ["2"]⟩]

theorem places_codeTwice :
    (assemble CpuType.mn1613.target (fun _ _ => .ok false) codeTwice).map
      (fun result => result.words.map fun w => (w.area, w.address)) =
        .ok [("_CODE", 0), ("_CODE", 0)] ∧
    (assemble CpuType.mn1613.target (fun _ _ => .ok false) pastTop).map
      (fun result => result.words.map fun w => (w.area, w.address)) =
        .ok [("_CODE", 0), ("_CODE", 0)] := by
  decide +kernel

/-- Programs without `.org` that are accepted, with two words in one place. -/
theorem words_share_place :
    (∃ result, assemble CpuType.mn1613.target (fun _ _ => .ok false) codeTwice = .ok result ∧
      ∀ regions, ¬ SharesNothing CpuType.mn1613.target result.words regions) ∧
    ∃ result, assemble CpuType.mn1613.target (fun _ _ => .ok false) pastTop = .ok result ∧
      ∀ regions, ¬ SharesNothing CpuType.mn1613.target result.words regions := by
  have hshared {result : AssemblyResult}
      (h : (result.words.map fun w => (w.area, w.address)) = [("_CODE", 0), ("_CODE", 0)])
      (regions : List Region) : ¬ SharesNothing CpuType.mn1613.target result.words regions := by
    intro hshares
    have hdistinct := hshares.distinct
    rw [h] at hdistinct
    exact absurd hdistinct (by decide)
  obtain ⟨result, hresult, hplaces⟩ := map_eq_ok.mp places_codeTwice.1
  obtain ⟨result', hresult', hplaces'⟩ := map_eq_ok.mp places_codeTwice.2
  exact ⟨⟨result, hresult, hshared hplaces⟩, result', hresult', hshared hplaces'⟩

end Places

end AsmTs
end RetroCpu
