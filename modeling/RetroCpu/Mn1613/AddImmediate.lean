import RetroCpu.AsmTs.Mn1613Encoder
import RetroCpu.EmuTs.Mn1613Nesting
import RetroCpu.Mn1613.MemoryGroup
import RetroCpu.Mn1613.Operands

/-!
# AI and SI, from a source line to their effect

A line `AI R, #n` without a skip condition becomes one word for every 15 of `n`; with a skip
condition `n` has to fit into one word.  So the words of a line add `n` in steps of which only
the last can skip, and it is the only word there is.
-/

namespace RetroCpu
namespace Mn1613

open Js Prog
open EmuTs.Mn1613

section Operations

/-- AI or SI -/
inductive ImmediateOp
  | AI
  | SI
deriving DecidableEq

namespace ImmediateOp

def name : ImmediateOp → String
  | AI => "AI"
  | SI => "SI"

def opcode : ImmediateOp → Int
  | AI => 9
  | SI => 8

/-- What the operation does with an immediate -/
def apply (op : ImmediateOp) (x n : Int) : Int :=
  match op with
  | AI => x + n
  | SI => x - n

theorem apply_apply (op : ImmediateOp) (x m n : Int) :
    op.apply (op.apply x m % 65536) n % 65536 = op.apply x (m + n) % 65536 := by
  cases op with
  | AI =>
      simp only [apply]
      omega
  | SI =>
      simp only [apply]
      omega

end ImmediateOp

/-- The registers after `n` has been applied to register `d` by `k` words -/
def applied (op : ImmediateOp) (d : Fin 7) (n : Int) (k : Nat) (r : CPURegister) : CPURegister :=
  { put r d (op.apply (general r d) n % 65536) with IC := (r.IC + k) % 65536 }

variable {op : ImmediateOp} {d : Fin 7} {r : CPURegister}

theorem general_applied (n : Int) (k : Nat) :
    general (applied op d n k r) d = op.apply (general r d) n % 65536 := by
  obtain ⟨d, hd⟩ := d
  interval_cases d <;> rfl

theorem general_applied_of_ne {e : Fin 7} (he : e ≠ d) (n : Int) (k : Nat) :
    general (applied op d n k r) e = general r e := by
  obtain ⟨d, hd⟩ := d
  obtain ⟨e, he'⟩ := e
  interval_cases d
  all_goals interval_cases e
  all_goals first | rfl | exact absurd rfl he

theorem applied_applied (m n : Int) (j k : Nat) :
    applied op d n k (applied op d m j r) = applied op d (m + n) (j + k) r := by
  have hic : ((r.IC + j) % 65536 + k) % 65536 = (r.IC + (j + k : Nat)) % 65536 := by
    push_cast
    omega
  have hvalue := ImmediateOp.apply_apply op (general r d) m n
  rw [← general_applied (k := j)] at hvalue
  unfold applied at hvalue ⊢
  rw [hvalue]
  obtain ⟨d, hd⟩ := d
  interval_cases d
  all_goals simp only [put, Function.update_idem, hic]

end Operations

section Step

variable {σ : Type} (bd : Board σ) (s : Cpu σ)

/-- The state in which the skip condition of a word is decided -/
def beforeSkip (op : ImmediateOp) (d : Fin 7) (n : Int) (k : Nat) (s : Cpu σ) : Cpu σ :=
  { s with reg := applied op d n k s.reg }

/-- What follows when the skip condition `kkkk` is decided on the value of register `d` -/
def decided (kkkk : Int) (d : Fin 7) (t : Cpu σ) : View :=
  if ((skip kkkk (general t.reg d)).run t).1 then skipped (view t) else view t

variable {s}

theorem skip_congr {s t : Cpu σ} (kkkk v : Int) (h : s.reg = t.reg) :
    ((skip kkkk v).run s).1 = ((skip kkkk v).run t).1 := by
  unfold skip
  rw [reg_run, reg_run, h]

theorem decided_congr {kkkk : Int} {d : Fin 7} {s t : Cpu σ} (h : view s = view t) :
    decided kkkk d s = decided kkkk d t := by
  have hreg : s.reg = t.reg := congrArg Prod.fst h
  unfold decided
  rw [skip_congr kkkk _ hreg, hreg, h]

theorem decided_reg (kkkk : Int) (d : Fin 7) (t : Cpu σ) :
    ∃ ic, (decided kkkk d t).1 = { t.reg with IC := ic } := by
  unfold decided
  split
  · exact ⟨_, rfl⟩
  · exact ⟨t.reg.IC, rfl⟩

/-- Nothing is skipped without a condition. -/
theorem decided_zero (d : Fin 7) (t : Cpu σ) : decided 0 d t = view t := rfl

variable {op : ImmediateOp} {d : Fin 7} {k i : Int} (hk : 0 ≤ k ∧ k < 16) (hi : 0 ≤ i ∧ i < 16)
include hk hi

theorem view_addImmediate :
    view ((execute bd (fieldWord op.opcode d (k * 16 + i))).run s).2 =
      decided k d { s with reg := put s.reg d (op.apply (general s.reg d) i % 65536) } := by
  obtain ⟨hcode, _, _, _, _, _⟩ := low_fields hk hi
  have hlow : land (k * 16 + i) 0xf = i := by
    rw [land_f]
    omega
  have hd : 0 ≤ (d.val : Int) ∧ (d.val : Int) < 8 := by omega
  have hlo : 0 ≤ k * 16 + i ∧ k * 16 + i < 256 := by omega
  have hne : ¬ ((d.val : Int) = 7 ∧ land (k * 16 + i) 4 ≠ 0) := fun h => register_ne d h.1
  have hresult : ∀ x : Int,
      view ((sw (d.val : Int) (land x 0xffff) >>= fun _ => skipIf bd k (land x 0xffff)).run s).2 =
        decided k d { s with reg := put s.reg d (x % 65536) } := by
    intro x
    have hland : land (land x 0xffff) 0xffff = x % 65536 := by
      rw [land_ffff, land_ffff]
      omega
    rw [run_bind, sw_run, hland, land_ffff, view_skipIf, decided, general_put]
  cases op with
  | AI =>
      change view ((execute bd (fieldWord 0x09 d (k * 16 + i))).run s).2 = _
      rw [execute_09 bd hd hlo, exec09, if_neg hne, hcode, hlow, run_bind, gr_run]
      exact hresult (general s.reg d + i)
  | SI =>
      change view ((execute bd (fieldWord 0x08 d (k * 16 + i))).run s).2 = _
      rw [execute_08 bd hd hlo, exec08, if_neg hne, hcode, hlow, run_bind, gr_run]
      exact hresult (general s.reg d - i)

/-- A word of AI or SI, fetched and executed -/
theorem view_advance
    (hword : num ((view s).2 (codeCell (view s) (view s).1.IC)) =
      fieldWord op.opcode d (k * 16 + i)) :
    view (advance bd s) = decided k d (beforeSkip op d i 1 s) := by
  rw [advance, fetchInstruction_value, hword, view_addImmediate bd hk hi]
  have hview := view_fetchInstruction bd s
  have hreg : (fetchInstruction bd s).2.reg =
      { s.reg with IC := land (s.reg.IC + 1) 0xffff } := congrArg Prod.fst hview
  have hmem : (fetchInstruction bd s).2.mem = s.mem := congrArg Prod.snd hview
  apply decided_congr
  unfold beforeSkip applied view
  dsimp only
  rw [hreg, hmem, land_ffff]
  obtain ⟨d, hd⟩ := d
  interval_cases d <;> rfl

end Step

section Run

/-- The words of a program lie from `IC` on. -/
def CodeAt (c : View) (words : List Int) : Prop :=
  ∀ (i : Nat) (w : Int), words[i]? = some w → num (c.2 (codeCell c (c.1.IC + i))) = w

theorem codeCell_wrap (c : View) (la la' : Int) (h : la % 65536 = la' % 65536) :
    codeCell c la = codeCell c la' := by
  rw [codeCell, codeCell, Simulation.phys_eq, Simulation.phys_eq, h]

variable {op : ImmediateOp} {d : Fin 7}

theorem applied_CSBR (n : Int) (k : Nat) (r : CPURegister) :
    (applied op d n k r).CSBR = r.CSBR := by
  obtain ⟨d, hd⟩ := d
  interval_cases d <;> rfl

variable {σ : Type} (bd : Board σ) {s : Cpu σ}

/-- The rest of the words lies behind the first one. -/
theorem CodeAt.tail (op : ImmediateOp) (d : Fin 7) (n : Int) {w : Int} {words : List Int}
    (h : CodeAt (view s) (w :: words)) : CodeAt (view (beforeSkip op d n 1 s)) words := by
  intro i w' hw'
  have hcell : codeCell (view (beforeSkip op d n 1 s)) ((beforeSkip op d n 1 s).reg.IC + i) =
      codeCell (view s) (s.reg.IC + (i + 1 : Nat)) := by
    have hic : ((s.reg.IC + (1 : Nat)) % 65536 + i) % 65536 =
        (s.reg.IC + (i + 1 : Nat)) % 65536 := by
      push_cast
      omega
    have hcsbr : (beforeSkip op d n 1 s).reg.CSBR = s.reg.CSBR := applied_CSBR n 1 s.reg
    rw [← codeCell_wrap (view s) _ _ hic]
    change BitVec.ofInt 18 (phys _ (beforeSkip op d n 1 s).reg.CSBR) = _
    rw [hcsbr]
    rfl
  have hword : num (s.mem (codeCell (view s) (s.reg.IC + (i + 1 : Nat)))) = w' :=
    h (i + 1) w' hw'
  rw [← hcell] at hword
  exact hword

/-- The words of an expansion apply the sum of their immediates; the last one may skip. -/
theorem view_words {k : Int} (hk : 0 ≤ k ∧ k < 16) (c : Int) (cs : List Int)
    (hrange : ∀ i ∈ c :: cs, 0 ≤ i ∧ i < 16) (hskip : cs = [] ∨ k = 0)
    (hcode : CodeAt (view s) ((c :: cs).map fun i => fieldWord op.opcode d (k * 16 + i))) :
    view ((advance bd)^[cs.length + 1] s) =
      decided k d (beforeSkip op d (c :: cs).sum (cs.length + 1) s) := by
  induction cs generalizing c s with
  | nil =>
      have hfirst := hcode 0 _ rfl
      rw [Nat.cast_zero, Int.add_zero] at hfirst
      rw [List.sum_singleton]
      exact view_advance bd hk (hrange c List.mem_cons_self) hfirst
  | cons c' cs ih =>
      obtain rfl : k = 0 := hskip.resolve_left (by simp)
      have hfirst := hcode 0 _ rfl
      rw [Nat.cast_zero, Int.add_zero] at hfirst
      have hview := view_advance bd hk (hrange c List.mem_cons_self) hfirst
      rw [decided_zero] at hview
      have htail := CodeAt.tail op d c hcode
      rw [← hview] at htail
      rw [Function.iterate_succ_apply, List.length_cons,
        ih c' (fun i hi => hrange i (List.mem_cons_of_mem c hi)) (.inr rfl) htail]
      apply decided_congr
      have hreg : (advance bd s).reg = applied op d c 1 s.reg := congrArg Prod.fst hview
      have hmem : (advance bd s).mem = s.mem := congrArg Prod.snd hview
      have hsum : (c :: c' :: cs).sum = c + (c' :: cs).sum := List.sum_cons
      change (applied op d _ _ (advance bd s).reg, (advance bd s).mem) =
        (applied op d _ _ s.reg, s.mem)
      rw [hreg, hmem, applied_applied, hsum, Nat.add_comm 1]

end Run

section Encoding

open AsmTs (ParsedLine SymbolTable evalExpr)
open AsmTs.Mn1613 (chunkLoop encodeAiSi encodeInstruction expectArgs lineMnemonic parseImm4 parseReg
  parseSkip requireImmHash splitAiSiImm4Chunks u4)

theorem chunkLoop_spec (fuel n : Nat) (h : n ≤ fuel) :
    (∀ i ∈ chunkLoop fuel n, 0 ≤ i ∧ i < 16) ∧ (chunkLoop fuel n).sum = n := by
  induction fuel generalizing n with
  | zero =>
      obtain rfl : n = 0 := by omega
      simp [chunkLoop]
  | succ fuel ih =>
      rw [chunkLoop]
      by_cases hn : n > 0
      · rw [if_pos hn]
        obtain ⟨hrange, hsum⟩ := ih (n - min 0x0f n) (by omega)
        constructor
        · intro i hi
          rcases List.mem_cons.mp hi with rfl | hi
          · omega
          · exact hrange i hi
        · rw [List.sum_cons, hsum]
          omega
      · rw [if_neg hn]
        exact ⟨by simp, by simp; omega⟩

/-- The fields of a word of AI or SI -/
theorem aiSi_word {opcode r k i : Int} (hop : 0 ≤ opcode ∧ opcode < 16) (hr : 0 ≤ r ∧ r < 8)
    (hk : 0 ≤ k ∧ k < 16) (hi : 0 ≤ i ∧ i < 16) :
    land (lor (lor (lor (shl opcode 11) (shl r 8)) (shl k 4)) i) 0xffff =
      fieldWord opcode r (k * 16 + i) := by
  have hopcode : shl opcode 11 = opcode * 2048 := shl_mul 11 (by omega) (by omega) (by omega)
  have hreg : shl r 8 = r * 256 := shl_mul 8 (by omega) (by omega) (by omega)
  have hskip : shl k 4 = k * 16 := shl_mul 4 (by omega) (by omega) (by omega)
  have h1 : lor (opcode * 2048) (r * 256) = opcode * 2048 + r * 256 :=
    lor_add 11 (by omega) (by omega) (by omega) (by omega) (by omega) (by omega)
  have h2 : lor (opcode * 2048 + r * 256) (k * 16) = opcode * 2048 + r * 256 + k * 16 :=
    lor_add 8 (by omega) (by omega) (by omega) (by omega) (by omega) (by omega)
  have h3 : lor (opcode * 2048 + r * 256 + k * 16) i = opcode * 2048 + r * 256 + k * 16 + i :=
    lor_add 4 (by omega) (by omega) (by omega) (by omega) (by omega) (by omega)
  rw [hopcode, hreg, hskip, h1, h2, h3, land_ffff, fieldWord]
  omega

theorem parseReg_fin {token : String} {r : Int} (h : parseReg token true = .ok r) :
    ∃ d : Fin 7, r = d := by
  rw [parseReg] at h
  obtain ⟨reg, hname, h⟩ := Checked.bind_eq_ok.mp h
  rw [if_neg (by simp)] at h
  obtain rfl := Checked.pure_eq_ok.mp h
  have hmem := parseName_mem hname
  simp only [AsmTs.Mn1613.REG_MAP, List.mem_cons, Prod.mk.injEq, List.not_mem_nil, or_false] at hmem
  exact ⟨⟨reg.toNat, by omega⟩, by simp; omega⟩

theorem parseSkip_range {token : Option String} {k : Int} (h : parseSkip token = .ok k) :
    0 ≤ k ∧ k < 16 := by
  have hmem := parseName_mem h
  simp only [AsmTs.Mn1613.SKIP_MAP, List.mem_cons, Prod.mk.injEq, List.not_mem_nil,
    or_false] at hmem
  omega

variable {op : ImmediateOp} {line : ParsedLine} {symbols : SymbolTable} {allowUndefined : Bool}

/-- The value of the second operand -/
def immediate (line : ParsedLine) (symbols : SymbolTable) (allowUndefined : Bool) :
    Except String Number := do
  evalExpr (← requireImmHash (line.arg 1) "I4") symbols allowUndefined

/-- The immediates of the words are in range, and their sum is the operand. -/
structure Chunks (v : Number) (c : Int) (cs : List Int) : Prop where
  range : ∀ i ∈ c :: cs, 0 ≤ i ∧ i < 16
  sum : (c :: cs).sum = v.bits

theorem chunks_single {v : Number} {i : Int} (hi : 0 ≤ i ∧ i < 16) (hv : v.bits = i) :
    Chunks v i [] := by
  constructor
  · intro j hj
    rwa [List.mem_singleton.mp hj]
  · rw [List.sum_singleton, hv]

/-- An operand without a skip condition is cut into immediates. -/
theorem splitAiSiImm4Chunks_two (hop : line.op.map toUpperCase = some op.name)
    (hargs : line.args.length = 2) {chunks : Option (List Int)}
    (h : splitAiSiImm4Chunks symbols allowUndefined line = .ok chunks) :
    ∃ v c cs, immediate line symbols allowUndefined = .ok v ∧ chunks = some (c :: cs) ∧
      Chunks v c cs := by
  obtain ⟨name, hname, hupper⟩ := Option.map_eq_some_iff.mp hop
  have hkind : ¬ (toUpperCase name ≠ "AI" ∧ toUpperCase name ≠ "SI") := by
    rw [hupper]
    cases op with
    | AI => exact fun hne => hne.1 rfl
    | SI => exact fun hne => hne.2 rfl
  rw [splitAiSiImm4Chunks, hname] at h
  dsimp only at h
  rw [if_neg hkind, if_neg (by simpa using hargs)] at h
  obtain ⟨text, htext, h⟩ := Checked.bind_eq_ok.mp h
  obtain ⟨v, hv, h⟩ := Checked.bind_eq_ok.mp h
  have himm : immediate line symbols allowUndefined = .ok v :=
    Checked.bind_eq_ok.mpr ⟨text, htext, hv⟩
  cases v with
  | infinity negative => cases h
  | nan => cases h
  | int n =>
      dsimp only at h
      by_cases hneg : n < 0
      · rw [if_pos hneg] at h
        cases h
      · rw [if_neg hneg] at h
        by_cases hsmall : n ≤ 0x0f
        · rw [if_pos hsmall] at h
          obtain rfl := Checked.pure_eq_ok.mp h
          exact ⟨.int n, n, [], himm, rfl, chunks_single ⟨by omega, by omega⟩ rfl⟩
        · rw [if_neg hsmall] at h
          obtain rfl := Checked.pure_eq_ok.mp h
          obtain ⟨hrange, hsum⟩ := chunkLoop_spec n.toNat n.toNat (Nat.le_refl _)
          cases hchunks : chunkLoop n.toNat n.toNat with
          | nil =>
              rw [hchunks, List.sum_nil] at hsum
              omega
          | cons c cs =>
              rw [hchunks] at hrange hsum
              refine ⟨.int n, c, cs, himm, rfl, hrange, hsum.trans ?_⟩
              exact Int.toNat_of_nonneg (by omega)

theorem splitAiSiImm4Chunks_three (hargs : line.args.length ≠ 2) {chunks : Option (List Int)}
    (h : splitAiSiImm4Chunks symbols allowUndefined line = .ok chunks) : chunks = none := by
  rw [splitAiSiImm4Chunks] at h
  cases hname : line.op with
  | none =>
      rw [hname] at h
      exact (Checked.pure_eq_ok.mp h).symm
  | some name =>
      rw [hname] at h
      dsimp only at h
      split_ifs at h
      · exact (Checked.pure_eq_ok.mp h).symm
      · exact (Checked.pure_eq_ok.mp h).symm

theorem parseImm4_spec {i : Int} (h : parseImm4 symbols allowUndefined (line.arg 1) = .ok i) :
    ∃ v, immediate line symbols allowUndefined = .ok v ∧ Chunks v i [] := by
  rw [parseImm4] at h
  obtain ⟨text, htext, h⟩ := Checked.bind_eq_ok.mp h
  obtain ⟨v, hv, h⟩ := Checked.bind_eq_ok.mp h
  have himm : immediate line symbols allowUndefined = .ok v :=
    Checked.bind_eq_ok.mpr ⟨text, htext, hv⟩
  rw [u4, Checked.error_ite_eq_ok, land_f] at h
  obtain ⟨hrange, h⟩ := h
  obtain rfl := Except.ok.inj h
  refine ⟨v, himm, chunks_single (by omega) ?_⟩
  cases v with
  | int n =>
      simp only [Number.ltInt, Number.gtInt, Bool.or_eq_true, decide_eq_true_eq] at hrange
      simp only [Number.bits]
      omega
  | infinity negative => rfl
  | nan => rfl

/-- The words of a line -/
theorem encodeAiSi_words (hop : line.op.map toUpperCase = some op.name) {words : List Int}
    (h : encodeAiSi line symbols allowUndefined op.opcode = .ok words) :
    ∃ (d : Fin 7) (k : Int) (v : Number) (c : Int) (cs : List Int),
      parseReg (line.arg 0) true = .ok (d.val : Int) ∧ parseSkip line.args[2]? = .ok k ∧
      immediate line symbols allowUndefined = .ok v ∧ Chunks v c cs ∧ (cs = [] ∨ k = 0) ∧
      words = (c :: cs).map fun i => fieldWord op.opcode d (k * 16 + i) := by
  have hopcode : 0 ≤ op.opcode ∧ op.opcode < 16 := by
    cases op with
    | AI => exact ⟨by decide, by decide⟩
    | SI => exact ⟨by decide, by decide⟩
  rw [encodeAiSi] at h
  obtain ⟨_, _, h⟩ := Checked.bind_eq_ok.mp h
  obtain ⟨r, hr, h⟩ := Checked.bind_eq_ok.mp h
  obtain ⟨k, hk, h⟩ := Checked.bind_eq_ok.mp h
  obtain ⟨d, rfl⟩ := parseReg_fin hr
  have hd : 0 ≤ (d.val : Int) ∧ (d.val : Int) < 8 := by omega
  have hkrange := parseSkip_range hk
  obtain ⟨chunks, hchunks, h⟩ := Checked.bind_eq_ok.mp h
  by_cases hargs : line.args.length = 2
  · obtain ⟨v, c, cs, himm, rfl, hcs⟩ := splitAiSiImm4Chunks_two hop hargs hchunks
    obtain rfl := Checked.pure_eq_ok.mp h
    have hzero : k = 0 := by
      rw [List.getElem?_eq_none (by omega)] at hk
      exact (Except.ok.inj hk).symm
    refine ⟨d, k, v, c, cs, hr, hk, himm, hcs, .inr hzero, ?_⟩
    exact List.map_congr_left fun i hi => aiSi_word hopcode hd hkrange (hcs.range i hi)
  · obtain rfl := splitAiSiImm4Chunks_three hargs hchunks
    obtain ⟨i, hi, h⟩ := Checked.bind_eq_ok.mp h
    obtain rfl := Checked.pure_eq_ok.mp h
    obtain ⟨v, himm, hcs⟩ := parseImm4_spec hi
    refine ⟨d, k, v, i, [], hr, hk, himm, hcs, .inl rfl, ?_⟩
    rw [aiSi_word hopcode hd hkrange (hcs.range i List.mem_cons_self)]
    rfl

theorem encodeInstruction_aiSi (hop : line.op.map toUpperCase = some op.name) (pcWord : Int) :
    encodeInstruction line pcWord symbols allowUndefined =
      encodeAiSi line symbols allowUndefined op.opcode := by
  obtain ⟨name, hname, hupper⟩ := Option.map_eq_some_iff.mp hop
  have hne : name ≠ "" := by
    rintro rfl
    cases op with
    | AI => exact absurd hupper (by decide)
    | SI => exact absurd hupper (by decide)
  have hmnemonic : lineMnemonic line = Mnemonic.ofName op.name := by
    rw [lineMnemonic, hname, Option.bind_some, hupper]
  have hai : Mnemonic.ofName "AI" = some .AI := by decide
  have hsi : Mnemonic.ofName "SI" = some .SI := by decide
  rw [encodeInstruction, hname, hmnemonic]
  split
  next h => cases h
  next h => exact absurd (Option.some.inj h) hne
  next =>
    cases op with
    | AI =>
        rw [ImmediateOp.name, hai]
        rfl
    | SI =>
        rw [ImmediateOp.name, hsi]
        rfl

end Encoding

section Results

open AsmTs (ParsedLine SymbolTable)
open AsmTs.Mn1613 (encodeInstruction parseReg parseSkip)

variable {σ : Type} (bd : Board σ)

/-- The words of a line of AI or SI, executed in order, apply the operand to the register
modulo `2 ^ 16` and change no other register, no memory and, unless the register is `STR`, no
flag.  The skip condition is decided once, on the register as the whole line leaves it, and
without a skip `IC` is behind the words. -/
theorem aiSi_line (op : ImmediateOp) {line : ParsedLine}
    (hop : line.op.map toUpperCase = some op.name) {pcWord : Int} {symbols : SymbolTable}
    {allowUndefined : Bool} {words : List Int}
    (hline : encodeInstruction line pcWord symbols allowUndefined = .ok words) (s : Cpu σ)
    (hcode : CodeAt (view s) words) :
    ∃ (d : Fin 7) (k : Int) (n : Number),
      parseReg (line.arg 0) true = .ok (d.val : Int) ∧ parseSkip line.args[2]? = .ok k ∧
      immediate line symbols allowUndefined = .ok n ∧
      view ((advance bd)^[words.length] s) =
        decided k d (beforeSkip op d n.bits words.length s) ∧
      general ((advance bd)^[words.length] s).reg d = op.apply (general s.reg d) n.bits % 65536 ∧
      (∀ e, e ≠ d → general ((advance bd)^[words.length] s).reg e = general s.reg e) ∧
      (d ≠ 6 → ((advance bd)^[words.length] s).reg.STR = s.reg.STR) := by
  rw [encodeInstruction_aiSi hop] at hline
  obtain ⟨d, k, v, c, cs, hr, hk, himm, ⟨hrange, hsum⟩, hskip, rfl⟩ := encodeAiSi_words hop hline
  have hview := view_words bd (parseSkip_range hk) c cs hrange hskip hcode
  rw [List.length_map, List.length_cons]
  rw [hsum] at hview
  obtain ⟨ic, hic⟩ := decided_reg k d (beforeSkip op d v.bits (cs.length + 1) s)
  have hreg : ((advance bd)^[cs.length + 1] s).reg =
      { applied op d v.bits (cs.length + 1) s.reg with IC := ic } :=
    (congrArg Prod.fst hview).trans hic
  have hgeneral : ∀ e, general ((advance bd)^[cs.length + 1] s).reg e =
      general (applied op d v.bits (cs.length + 1) s.reg) e := by
    intro e
    rw [hreg]
    rfl
  refine ⟨d, k, v, hr, hk, himm, hview, ?_, ?_, ?_⟩
  · rw [hgeneral, general_applied]
  · intro e he
    rw [hgeneral, general_applied_of_ne he]
  · intro hd
    have hstr := hgeneral 6
    rw [general_applied_of_ne (Ne.symm hd)] at hstr
    exact hstr

/-- `AI R1, #20` -/
def addTwenty : ParsedLine :=
  { lineNo := 1, text := "AI R1, #20", label := none, op := some "AI", args := ["R1", "#20"] }

/-- The two words of the line, from address 0 on -/
def addTwentyState : Cpu Unit :=
  Cpu.initial (fun a => if a = 0 then 0x490f else 0x4905) ()

theorem aiSi_line_twenty :
    ∃ (d : Fin 7) (k : Int) (n : Number),
      parseReg (addTwenty.arg 0) true = .ok (d.val : Int) ∧
      parseSkip addTwenty.args[2]? = .ok k ∧ immediate addTwenty .empty false = .ok n ∧
      view ((advance .default)^[2] addTwentyState) =
        decided k d (beforeSkip .AI d n.bits 2 addTwentyState) ∧
      general ((advance .default)^[2] addTwentyState).reg d =
        ImmediateOp.AI.apply (general addTwentyState.reg d) n.bits % 65536 ∧
      (∀ e, e ≠ d → general ((advance .default)^[2] addTwentyState).reg e =
        general addTwentyState.reg e) ∧
      (d ≠ 6 → ((advance .default)^[2] addTwentyState).reg.STR = addTwentyState.reg.STR) := by
  have hop : addTwenty.op.map toUpperCase = some ImmediateOp.AI.name := by decide
  have hline : encodeInstruction addTwenty 0 .empty false = .ok [0x490f, 0x4905] := by
    decide
  refine aiSi_line .default .AI hop hline addTwentyState ?_
  intro i w hw
  match i, hw with
  | 0, hw =>
      obtain rfl : 0x490f = w := Option.some.inj hw
      decide
  | 1, hw =>
      obtain rfl : 0x4905 = w := Option.some.inj hw
      decide

/-- `AI STR, #1` -/
def addToStr : ParsedLine :=
  { lineNo := 1, text := "AI STR, #1", label := none, op := some "AI", args := ["STR", "#1"] }

/-- The word of the line in front of a core whose flags are clear -/
def addToStrState : Cpu Unit :=
  let s := Cpu.initial (fun _ => 0x4e01) ()
  { s with reg := { s.reg with STR := 0x7fff } }

/-- `STR` is a register of AI and SI too, and its bits are the flags. -/
theorem addToStr_changes_flag :
    ¬ ∀ (op : ImmediateOp) (line : ParsedLine) (pcWord : Int) (symbols : SymbolTable)
        (allowUndefined : Bool) (words : List Int) (s : Cpu Unit),
        line.op.map toUpperCase = some op.name →
        encodeInstruction line pcWord symbols allowUndefined = .ok words →
        CodeAt (view s) words →
        ((advance .default)^[words.length] s).reg.E = s.reg.E := by
  intro h
  have hop : addToStr.op.map toUpperCase = some ImmediateOp.AI.name := by decide
  have hline : encodeInstruction addToStr 0 .empty false = .ok [0x4e01] := by decide
  have hcode : CodeAt (view addToStrState) [0x4e01] := by
    intro i w hw
    match i, hw with
    | 0, hw =>
        obtain rfl : 0x4e01 = w := Option.some.inj hw
        decide
  have hflag := h .AI addToStr 0 .empty false [0x4e01] addToStrState hop hline hcode
  exact absurd hflag (by decide)

end Results

end Mn1613
end RetroCpu
