import RetroCpu.BootMonitor.Mn1613Guest
import RetroCpu.BootMonitor.Mn1613Random
import RetroCpu.Lib.Calls

/-!
# Bytes of the memory in the MN1613 monitor (`mn1613/handshake/handshake_common.asm`)

`g_hshk_mem_map`, `g_hshk_mem_ld8` and `g_hshk_mem_st8` as the words that the assembler and the
linker make of them, executed by the Rust core.  Calls one after the other use the memory as an
array of bytes.
-/

namespace RetroCpu
namespace BootMonitor
namespace Mn1613Bytes

open EmuRs.Mn1613 RetroCpu.Mn1613 Prog Mn1613Guest Calls

section Code

/-- The three routines, at an address. -/
def routines (entry : U16) : Code where
  entry := entry
  words := [
    -- g_hshk_mem_map
    0x2301, 0x7a08, 0x7b09, 0x7809, 0x680f, 0x0001, 0x790b, 0x2109, 0x2a4f, 0x590f, 0x8000, 0x2209,
    0x6a0f, 0x0003, 0x220d, 0x220d, 0x0f22, 0x2302, 0x2003,
    -- g_hshk_mem_ld8
    0x2301, 0x2617, entry, 0x7a08, 0x2060, 0x7a4a, 0xcf02, 0x7008, 0x680f, 0x00ff, 0x2302, 0x2003,
    -- g_hshk_mem_st8
    0x2301, 0x2401, 0x7c0a, 0x2617, entry, 0x7a08, 0x2060, 0x7a4a, 0xcf08, 0x680f, 0x00ff, 0x720c,
    0x6a0f, 0xff00, 0x600a, 0xcf06, 0x680f, 0xff00, 0x6c0f, 0x00ff, 0x600c, 0x2064, 0x2402, 0x2302,
    0x2003]

/-- The offset of `g_hshk_mem_ld8` -/
def LD8 : Nat := 19

/-- The offset of `g_hshk_mem_st8` -/
def ST8 : Nat := 31

/-- The instructions in the source -/
def source : List (String × List String) := [
  ("PUSH", ["R3"]), ("MV", ["R2", "R0"]), ("MV", ["R3", "R1"]), ("MV", ["R0", "R1"]),
  ("ANDI", ["R0", "#1"]), ("MV", ["R1", "R3"]), ("SR", ["R1", "RE"]),
  ("TBIT", ["R2", "#15", "Z"]), ("AWI", ["R1", "#0x8000"]), ("SR", ["R2", "RE"]),
  ("ANDI", ["R2", "#3"]), ("SL", ["R2", "RE"]), ("SL", ["R2", "RE"]), ("SETB", ["R2", "TSR0"]),
  ("POP", ["R3"]), ("RET", []), ("PUSH", ["R3"]), ("BALD", ["g_hshk_mem_map"]),
  ("MV", ["R2", "R0"]), ("LR", ["R0", "TSR0", "(R1)"]), ("MV", ["R2", "R2", "Z"]),
  ("B", ["l_hshk_mld_odd"]), ("BSWP", ["R0", "R0"]), ("ANDI", ["R0", "#0x00ff"]),
  ("POP", ["R3"]), ("RET", []), ("PUSH", ["R3"]), ("PUSH", ["R4"]), ("MV", ["R4", "R2"]),
  ("BALD", ["g_hshk_mem_map"]), ("MV", ["R2", "R0"]), ("LR", ["R0", "TSR0", "(R1)"]),
  ("MV", ["R2", "R2", "Z"]), ("B", ["l_hshk_mst_odd"]), ("ANDI", ["R0", "#0x00ff"]),
  ("BSWP", ["R2", "R4"]), ("ANDI", ["R2", "#0xff00"]), ("OR", ["R0", "R2"]),
  ("B", ["l_hshk_mst_wr"]), ("ANDI", ["R0", "#0xff00"]), ("ANDI", ["R4", "#0x00ff"]),
  ("OR", ["R0", "R4"]), ("STR", ["R0", "TSR0", "(R1)"]), ("POP", ["R4"]), ("POP", ["R3"]),
  ("RET", [])]

/-- The symbols with the routines at `1000` -/
def symbols : AsmTs.SymbolTable where
  entries := [("G_HSHK_MEM_MAP", .int 0x1000), ("L_HSHK_MLD_ODD", .int 4123),
    ("L_HSHK_MST_ODD", .int 4143), ("L_HSHK_MST_WR", .int 4148)]

example : assembled symbols 0x1000 source =
    .ok ((routines 0x1000).words.map fun w => (w.toNat : Int)) := by decide +kernel

end Code

section Addresses

/-- The physical word of a byte address. -/
def wordOf (b : BitVec 19) : BitVec 18 := b.extractLsb' 1 18

/-- The byte address in two halves. -/
def address (hi lo : U16) : BitVec 19 := (hi ++ lo).setWidth 19

/-- The logical address of the word, as `g_hshk_mem_map` leaves it in `R1`. -/
def logical (hi lo : U16) : U16 := if hi &&& 1 = 0 then lo >>> 1 else lo >>> 1 + 0x8000

/-- The segment, as `g_hshk_mem_map` leaves it in `R2`. -/
def segment (hi : U16) : U16 := ((hi >>> 1) &&& 3) <<< 1 <<< 1

theorem segment_toNat (hi : U16) : (segment hi).toNat = hi.toNat / 2 % 4 * 4 := by
  have h3 : (3 : U16).toNat = 2 ^ 2 - 1 := rfl
  rw [segment, BitVec.toNat_shiftLeft, BitVec.toNat_shiftLeft, BitVec.toNat_and, h3,
    Nat.and_two_pow_sub_one_eq_mod, BitVec.toNat_ushiftRight, Nat.shiftRight_eq_div_pow,
    Nat.shiftLeft_eq, Nat.shiftLeft_eq]
  omega

theorem logical_toNat (hi lo : U16) :
    (logical hi lo).toNat = lo.toNat / 2 + hi.toNat % 2 * 32768 := by
  have hbit : (hi &&& 1 = 0) ↔ hi.toNat % 2 = 0 := by
    have h1 : (1 : U16).toNat = 2 ^ 1 - 1 := rfl
    rw [← BitVec.toNat_inj, BitVec.toNat_and, h1, Nat.and_two_pow_sub_one_eq_mod]
    rfl
  have hshift : (lo >>> 1).toNat = lo.toNat / 2 := by
    rw [BitVec.toNat_ushiftRight, Nat.shiftRight_eq_div_pow]
  rw [logical]
  split
  · next h =>
      rw [hshift, hbit.mp h]
      rfl
  · next h =>
      have hodd : ¬ hi.toNat % 2 = 0 := mt hbit.mpr h
      have hbig : (0x8000 : U16).toNat = 32768 := rfl
      rw [BitVec.toNat_add, hshift, hbig]
      omega

theorem place_mapped (hi lo : U16) :
    place ((segment hi &&& 0xf &&& 0xf).setWidth 8) (logical hi lo) = wordOf (address hi lo) := by
  have hseg : ((segment hi &&& 0xf &&& 0xf).setWidth 8 : U8).toNat = (segment hi).toNat % 16 := by
    have h15 : (0xf : U16).toNat = 2 ^ 4 - 1 := rfl
    rw [BitVec.toNat_setWidth, BitVec.toNat_and, BitVec.toNat_and, h15,
      Nat.and_two_pow_sub_one_eq_mod, Nat.and_two_pow_sub_one_eq_mod]
    omega
  apply BitVec.eq_of_toNat_eq
  rw [place_toNat, hseg, segment_toNat, logical_toNat, wordOf, address, BitVec.extractLsb'_toNat,
    BitVec.toNat_setWidth, BitVec.toNat_append, Nat.shiftRight_eq_div_pow,
    ← Nat.shiftLeft_add_eq_or_of_lt lo.isLt, Nat.shiftLeft_eq]
  omega

end Addresses

section Map

variable {σ : Type} (io : Io σ) {s : Core σ} {entry : U16} {f : Frame}

/-- Up to the test of the lowest bit of `R2` -/
theorem map_halves (h : Ready s (routines entry) f.ram)
    (hstack : Apart s (routines entry) (stackWord s f.sp 1)) :
    Leads io s ((routines entry).addr 0) f ((routines entry).addr 8)
      { f with
        r0 := f.r1 &&& 1, r1 := f.r1 >>> 1, r2 := f.r0, r3 := f.r1, sp := f.sp - 1
        ram := Function.update f.ram (stackWord s f.sp 1) f.r3 } := by
  have hpushed := h.write hstack f.r3
  refine .trans (leads_push .R3 h rfl rfl) ?_
  refine .trans (leads_unary .R2 .R0 0 id hpushed rfl rfl rfl fun _ => rfl) ?_
  refine .trans (leads_unary .R3 .R1 0 id hpushed rfl rfl rfl fun _ => rfl) ?_
  refine .trans (leads_unary .R0 .R1 0 id hpushed rfl rfl rfl fun _ => rfl) ?_
  refine .trans (leads_logicImm .R0 0 (· &&& ·) hpushed rfl rfl rfl rfl fun _ => rfl) ?_
  refine .trans (leads_unary .R1 .R3 0 id hpushed rfl rfl rfl fun _ => rfl) ?_
  exact leads_sr .R1 hpushed rfl rfl

/-- The lowest bit of `R2` becomes the highest one of `R1`. -/
theorem map_logical (h : Ready s (routines entry) f.ram) :
    Leads io s ((routines entry).addr 8) f ((routines entry).addr 11)
      { f with r1 := if f.r2 &&& 1 = 0 then f.r1 else f.r1 + 0x8000 } := by
  split
  · next hzero =>
      have hskip (str : U16) : holds 4 (f.r2 &&& 1) str = true :=
        (holds_Z _ _).trans (decide_eq_true hzero)
      exact leads_tbit .R2 4 1 h (n := 8) rfl rfl rfl hskip
  · next hone =>
      have hskip (str : U16) : holds 4 (f.r2 &&& 1) str = false :=
        (holds_Z _ _).trans (decide_eq_false hone)
      refine .trans (leads_tbit .R2 4 1 h rfl rfl rfl hskip) ?_
      exact leads_addImm .R1 0 h rfl rfl rfl rfl fun _ => rfl

/-- The segment, and the return -/
theorem map_segment (h : Ready s (routines entry) f.ram) :
    Leads io s ((routines entry).addr 11) f (f.ram (stackWord s (f.sp + 1) 0))
      { f with
        r2 := segment f.r2
        r3 := f.ram (stackWord s f.sp 0)
        sp := f.sp + 1 + 1
        tsr0 := ((segment f.r2 &&& 0xf) &&& 0xf).setWidth 8 } := by
  refine .trans (leads_sr .R2 h rfl rfl) ?_
  refine .trans (leads_logicImm .R2 0 (· &&& ·) h rfl rfl rfl rfl fun _ => rfl) ?_
  refine .trans (leads_sl .R2 h rfl rfl) ?_
  refine .trans (leads_sl .R2 h rfl rfl) ?_
  refine .trans (leads_setb .R2 h rfl rfl) ?_
  exact .trans (leads_pop .R3 h rfl rfl) (leads_ret h rfl rfl)

/-- What `g_hshk_mem_map` leaves in the registers -/
def mapped (f : Frame) : Frame :=
  { f with
    r0 := f.r1 &&& 1
    r1 := logical f.r0 f.r1
    r2 := segment f.r0
    tsr0 := ((segment f.r0 &&& 0xf) &&& 0xf).setWidth 8 }

/-- `g_hshk_mem_map` -/
theorem mem_map (h : Ready s (routines entry) f.ram)
    (hstack : Apart s (routines entry) (stackWord s f.sp 1)) :
    Leads io s entry f (f.ram (stackWord s f.sp 0))
      { mapped f with
        sp := f.sp + 1, ram := Function.update f.ram (stackWord s f.sp 1) f.r3 } := by
  have hpushed := h.write hstack f.r3
  have hrun := ((map_halves io h hstack).trans (map_logical io hpushed)).trans
    (map_segment io hpushed)
  have hback : f.sp - 1 + 1 = f.sp := BitVec.sub_add_cancel f.sp 1
  have hentry : (routines entry).addr 0 = entry := BitVec.add_zero entry
  dsimp only at hrun
  rw [hback, hentry, stackWord_pred, Function.update_self,
    Function.update_of_ne (stackWord_ne _ (by decide) (by decide) (by decide))] at hrun
  exact hrun

end Map

section Bytes

/-- Both bytes of a word exchanged -/
def bswp (w : U16) : U16 := ((w &&& 0xff) <<< 8) ||| (w >>> 8)

/-- The byte of a word that `g_hshk_mem_ld8` leaves in `R0`. -/
def select (w odd : U16) : U16 := if odd = 0 then bswp w &&& 0xff else w &&& 0xff

/-- The word that `g_hshk_mem_st8` writes back. -/
def merge (w v odd : U16) : U16 :=
  if odd = 0 then (w &&& 0xff) ||| (bswp v &&& 0xff00) else (w &&& 0xff00) ||| (v &&& 0xff)

variable {σ : Type} (io : Io σ) {s : Core σ} {entry : U16} {f : Frame}

theorem ld8_odd (h : Ready s (routines entry) f.ram) :
    Leads io s ((routines entry).addr 27) f (f.ram (stackWord s (f.sp + 1) 0))
      { f with
        r0 := f.r0 &&& 0xff, r3 := f.ram (stackWord s f.sp 0), sp := f.sp + 1 + 1 } := by
  refine .trans (leads_logicImm .R0 0 (· &&& ·) h rfl rfl rfl rfl fun _ => rfl) ?_
  exact .trans (leads_pop .R3 h rfl rfl) (leads_ret h rfl rfl)

/-- `g_hshk_mem_ld8` behind the call of `g_hshk_mem_map` -/
theorem ld8_rest (h : Ready s (routines entry) f.ram) :
    Leads io s ((routines entry).addr 22) f (f.ram (stackWord s (f.sp + 1) 0))
      { f with
        r0 := select (f.ram (place f.tsr0 f.r1)) f.r0
        r2 := f.r0
        r3 := f.ram (stackWord s f.sp 0)
        sp := f.sp + 1 + 1 } := by
  rw [select]
  split
  · next heven =>
      have hskip (str : U16) : holds 4 f.r0 str = true :=
        (holds_Z _ _).trans (decide_eq_true heven)
      refine .trans (leads_unary .R2 .R0 0 id h rfl rfl rfl fun _ => rfl) ?_
      refine .trans (leads_lr .R0 h rfl rfl) ?_
      refine .trans (leads_unary .R2 .R2 4 id h rfl rfl rfl hskip) ?_
      refine .trans (leads_unary .R0 .R0 0 bswp h rfl rfl rfl fun _ => rfl) ?_
      exact ld8_odd io h
  · next hodd =>
      have hskip (str : U16) : holds 4 f.r0 str = false :=
        (holds_Z _ _).trans (decide_eq_false hodd)
      refine .trans (leads_unary .R2 .R0 0 id h rfl rfl rfl fun _ => rfl) ?_
      refine .trans (leads_lr .R0 h rfl rfl) ?_
      refine .trans (leads_unary .R2 .R2 4 id h rfl rfl rfl hskip) ?_
      exact .trans (leads_b 2 h rfl rfl rfl) (ld8_odd io h)

theorem st8_wr (p : BitVec 18) (hp : place f.tsr0 f.r1 = p) (h : Ready s (routines entry) f.ram)
    (hapart : Apart s (routines entry) p) :
    Leads io s ((routines entry).addr 52) f
      (Function.update f.ram p f.r0 (stackWord s (f.sp + 1 + 1) 0))
      { f with
        r3 := Function.update f.ram p f.r0 (stackWord s (f.sp + 1) 0)
        r4 := Function.update f.ram p f.r0 (stackWord s f.sp 0)
        sp := f.sp + 1 + 1 + 1
        ram := Function.update f.ram p f.r0 } := by
  have hwritten := h.write hapart f.r0
  have hstore : Leads io s ((routines entry).addr 52) f ((routines entry).addr 53)
      { f with ram := Function.update f.ram p f.r0 } := by
    rw [← hp]
    exact leads_str .R0 h rfl rfl
  refine hstore.trans ?_
  refine .trans (leads_pop .R4 hwritten rfl rfl) ?_
  exact .trans (leads_pop .R3 hwritten rfl rfl) (leads_ret hwritten rfl rfl)

/-- `g_hshk_mem_st8` behind the call of `g_hshk_mem_map` -/
theorem st8_rest (p : BitVec 18) (v : U16) (hp : place f.tsr0 f.r1 = p)
    (hv : merge (f.ram p) f.r4 f.r0 = v) (h : Ready s (routines entry) f.ram)
    (hapart : Apart s (routines entry) p) : ∃ r2,
    Leads io s ((routines entry).addr 36) f
      (Function.update f.ram p v (stackWord s (f.sp + 1 + 1) 0))
      { f with
        r0 := v
        r2 := r2
        r3 := Function.update f.ram p v (stackWord s (f.sp + 1) 0)
        r4 := Function.update f.ram p v (stackWord s f.sp 0)
        sp := f.sp + 1 + 1 + 1
        ram := Function.update f.ram p v } := by
  subst hv hp
  by_cases heven : f.r0 = 0
  · have hskip (str : U16) : holds 4 f.r0 str = true :=
      (holds_Z _ _).trans (decide_eq_true heven)
    rw [merge, if_pos heven]
    refine ⟨bswp f.r4 &&& 0xff00, ?_⟩
    refine .trans (leads_unary .R2 .R0 0 id h rfl rfl rfl fun _ => rfl) ?_
    refine .trans (leads_lr .R0 h rfl rfl) ?_
    refine .trans (leads_unary .R2 .R2 4 id h rfl rfl rfl hskip) ?_
    refine .trans (leads_logicImm .R0 0 (· &&& ·) h rfl rfl rfl rfl fun _ => rfl) ?_
    refine .trans (leads_unary .R2 .R4 0 bswp h rfl rfl rfl fun _ => rfl) ?_
    refine .trans (leads_logicImm .R2 0 (· &&& ·) h rfl rfl rfl rfl fun _ => rfl) ?_
    refine .trans (leads_logic .R0 .R2 0 (· ||| ·) h rfl rfl rfl fun _ => rfl) ?_
    refine .trans (leads_b 6 h rfl rfl rfl) ?_
    exact st8_wr io _ rfl h hapart
  · have hskip (str : U16) : holds 4 f.r0 str = false :=
      (holds_Z _ _).trans (decide_eq_false heven)
    rw [merge, if_neg heven]
    refine ⟨f.r0, ?_⟩
    refine .trans (leads_unary .R2 .R0 0 id h rfl rfl rfl fun _ => rfl) ?_
    refine .trans (leads_lr .R0 h rfl rfl) ?_
    refine .trans (leads_unary .R2 .R2 4 id h rfl rfl rfl hskip) ?_
    refine .trans (leads_b 8 h rfl rfl rfl) ?_
    refine .trans (leads_logicImm .R0 0 (· &&& ·) h rfl rfl rfl rfl fun _ => rfl) ?_
    refine .trans (leads_logicImm .R4 0 (· &&& ·) h rfl rfl rfl rfl fun _ => rfl) ?_
    refine .trans (leads_logic .R0 .R4 0 (· ||| ·) h rfl rfl rfl fun _ => rfl) ?_
    exact st8_wr io _ rfl h hapart

end Bytes

section Calls

variable {σ : Type} (io : Io σ) {s : Core σ} {entry : U16} {f : Frame}

theorem stackWord_succ (s : Core σ) (sp : U16) (i : Nat) :
    stackWord s (sp + 1) (i + 1) = stackWord s sp i := by
  have h := stackWord_pred s (sp + 1) i
  rw [BitVec.add_sub_cancel] at h
  exact h.symm

/-- A call of `g_hshk_mem_map` -/
theorem call_map {n : Nat} (h : Ready s (routines entry) f.ram)
    (hcall : (routines entry).words[n]? = some 0x2617)
    (htarget : (routines entry).words[n + 1]? = some entry)
    (hstack : ∀ i < 2, Apart s (routines entry) (stackWord s f.sp (i + 1))) :
    Leads io s ((routines entry).addr n) f ((routines entry).addr (n + 1 + 1))
      { mapped f with
        ram := Function.update (Function.update f.ram (stackWord s f.sp 1)
          ((routines entry).addr (n + 1 + 1))) (stackWord s f.sp 2) f.r3 } := by
  have hbald : Leads io s ((routines entry).addr n) f entry { f with
      sp := f.sp - 1
      ram := Function.update f.ram (stackWord s f.sp 1) ((routines entry).addr (n + 1 + 1)) } :=
    leads_bald h hcall htarget rfl
  have hcalled := h.write (hstack 0 (by decide)) ((routines entry).addr (n + 1 + 1))
  have hback : f.sp - 1 + 1 = f.sp := BitVec.sub_add_cancel f.sp 1
  have hmap := mem_map io (f := { f with
    sp := f.sp - 1
    ram := Function.update f.ram (stackWord s f.sp 1) ((routines entry).addr (n + 1 + 1)) })
    hcalled (stackWord_pred s f.sp 1 ▸ hstack 1 (by decide))
  dsimp only at hmap
  rw [stackWord_pred, stackWord_pred, hback, Function.update_self] at hmap
  exact hbald.trans hmap

theorem update_stack {ram : Mem} {sp : U16} {i j : Nat} (v : U16) (hi : i < 5) (hj : j < 5)
    (hij : i ≠ j) :
    Function.update ram (stackWord s sp i) v (stackWord s sp j) = ram (stackWord s sp j) :=
  Function.update_of_ne (stackWord_ne sp (by omega) (by omega) hij.symm) _ _

/-- The memory behind the pushes of `g_hshk_mem_ld8` -/
def ldRam (s : Core σ) (entry : U16) (f : Frame) : Mem :=
  Function.update (Function.update (Function.update f.ram (stackWord s f.sp 1) f.r3)
    (stackWord s f.sp 2) ((routines entry).addr 22)) (stackWord s f.sp 3) f.r3

theorem mem_ld8 (h : Ready s (routines entry) f.ram)
    (hstack : ∀ i < 3, Apart s (routines entry) (stackWord s f.sp (i + 1))) :
    Leads io s ((routines entry).addr LD8) f (f.ram (stackWord s f.sp 0))
      { mapped f with
        r0 := select (ldRam s entry f (wordOf (address f.r0 f.r1))) (f.r1 &&& 1)
        r2 := f.r1 &&& 1
        sp := f.sp + 1
        ram := ldRam s entry f } := by
  have hpush : Leads io s ((routines entry).addr 19) f ((routines entry).addr 20) { f with
      sp := f.sp - 1, ram := Function.update f.ram (stackWord s f.sp 1) f.r3 } :=
    leads_push .R3 h rfl rfl
  have hpushed := h.write (hstack 0 (by decide)) f.r3
  have hmap := call_map io (n := 20) (f := { f with
    sp := f.sp - 1, ram := Function.update f.ram (stackWord s f.sp 1) f.r3 }) hpushed rfl rfl
    (fun i hi => stackWord_pred s f.sp (i + 1) ▸ hstack (i + 1) (by omega))
  dsimp only at hmap
  rw [stackWord_pred, stackWord_pred] at hmap
  have hready : Ready s (routines entry) (ldRam s entry f) :=
    (hpushed.write (hstack 1 (by decide)) _).write (hstack 2 (by decide)) _
  have hrest := ld8_rest io (f := { mapped f with
    sp := f.sp - 1, ram := ldRam s entry f }) hready
  have hback : f.sp - 1 + 1 = f.sp := BitVec.sub_add_cancel f.sp 1
  have hr3 : ldRam s entry f (stackWord s f.sp 1) = f.r3 := by
    rw [ldRam, update_stack _ (by decide) (by decide) (by decide),
      update_stack _ (by decide) (by decide) (by decide), Function.update_self]
  have hret : ldRam s entry f (stackWord s f.sp 0) = f.ram (stackWord s f.sp 0) := by
    rw [ldRam, update_stack _ (by decide) (by decide) (by decide),
      update_stack _ (by decide) (by decide) (by decide),
      update_stack _ (by decide) (by decide) (by decide)]
  dsimp only [mapped] at hrest
  rw [hback, stackWord_pred, hr3, hret, place_mapped] at hrest
  exact (hpush.trans hmap).trans hrest

/-- The memory behind the pushes of `g_hshk_mem_st8` -/
def stRam (s : Core σ) (entry : U16) (f : Frame) : Mem :=
  Function.update (Function.update (Function.update (Function.update f.ram
    (stackWord s f.sp 1) f.r3) (stackWord s f.sp 2) f.r4)
    (stackWord s f.sp 3) ((routines entry).addr 36)) (stackWord s f.sp 4) f.r3

/-- The memory behind `g_hshk_mem_st8` -/
def stored (s : Core σ) (entry : U16) (f : Frame) : Mem :=
  Function.update (stRam s entry f) (wordOf (address f.r0 f.r1))
    (merge (stRam s entry f (wordOf (address f.r0 f.r1))) f.r2 (f.r1 &&& 1))

theorem stored_stack (entry : U16)
    (hdata : ∀ i < 3, stackWord s f.sp i ≠ wordOf (address f.r0 f.r1)) :
    stored s entry f (stackWord s f.sp 0) = f.ram (stackWord s f.sp 0) ∧
    stored s entry f (stackWord s f.sp 1) = f.r3 ∧
    stored s entry f (stackWord s f.sp 2) = f.r4 := by
  refine ⟨?_, ?_, ?_⟩
  · rw [stored, Function.update_of_ne (hdata 0 (by decide)), stRam,
      update_stack _ (by decide) (by decide) (by decide),
      update_stack _ (by decide) (by decide) (by decide),
      update_stack _ (by decide) (by decide) (by decide),
      update_stack _ (by decide) (by decide) (by decide)]
  · rw [stored, Function.update_of_ne (hdata 1 (by decide)), stRam,
      update_stack _ (by decide) (by decide) (by decide),
      update_stack _ (by decide) (by decide) (by decide),
      update_stack _ (by decide) (by decide) (by decide), Function.update_self]
  · rw [stored, Function.update_of_ne (hdata 2 (by decide)), stRam,
      update_stack _ (by decide) (by decide) (by decide),
      update_stack _ (by decide) (by decide) (by decide), Function.update_self]

/-- The pushes of `g_hshk_mem_st8` -/
theorem st8_push (h : Ready s (routines entry) f.ram)
    (hstack : ∀ i < 4, Apart s (routines entry) (stackWord s f.sp (i + 1))) :
    Leads io s ((routines entry).addr 31) f ((routines entry).addr 34) { f with
      r4 := f.r2
      sp := f.sp - 1 - 1
      ram := Function.update (Function.update f.ram (stackWord s f.sp 1) f.r3)
        (stackWord s f.sp 2) f.r4 } := by
  have hpushed := h.write (hstack 0 (by decide)) f.r3
  have hpushed' := hpushed.write (hstack 1 (by decide)) f.r4
  have hsecond : Leads io s ((routines entry).addr 32) { f with
      sp := f.sp - 1, ram := Function.update f.ram (stackWord s f.sp 1) f.r3 }
      ((routines entry).addr 33) { f with
        sp := f.sp - 1 - 1
        ram := Function.update (Function.update f.ram (stackWord s f.sp 1) f.r3)
          (stackWord s f.sp 2) f.r4 } := by
    rw [← stackWord_pred s f.sp 1]
    exact leads_push .R4 hpushed rfl rfl
  refine .trans (leads_push .R3 h rfl rfl) (hsecond.trans ?_)
  exact leads_unary .R4 .R2 0 id hpushed' rfl rfl rfl fun _ => rfl

/-- `g_hshk_mem_st8` up to the return from `g_hshk_mem_map` -/
theorem st8_enter (h : Ready s (routines entry) f.ram)
    (hstack : ∀ i < 4, Apart s (routines entry) (stackWord s f.sp (i + 1))) :
    Leads io s ((routines entry).addr ST8) f ((routines entry).addr 36)
      { mapped f with r4 := f.r2, sp := f.sp - 1 - 1, ram := stRam s entry f } := by
  have hpushed := (h.write (hstack 0 (by decide)) f.r3).write (hstack 1 (by decide)) f.r4
  have hmap := call_map io (n := 34) (f := { f with
    r4 := f.r2
    sp := f.sp - 1 - 1
    ram := Function.update (Function.update f.ram (stackWord s f.sp 1) f.r3)
      (stackWord s f.sp 2) f.r4 }) hpushed rfl rfl (fun i hi => by
        rw [stackWord_pred, stackWord_pred]
        exact hstack (i + 2) (by omega))
  dsimp only at hmap
  rw [stackWord_pred, stackWord_pred, stackWord_pred, stackWord_pred] at hmap
  exact (st8_push io h hstack).trans hmap

theorem mem_st8 (h : Ready s (routines entry) f.ram)
    (hstack : ∀ i < 4, Apart s (routines entry) (stackWord s f.sp (i + 1)))
    (hapart : Apart s (routines entry) (wordOf (address f.r0 f.r1)))
    (hdata : ∀ i < 3, stackWord s f.sp i ≠ wordOf (address f.r0 f.r1)) : ∃ r0 r2,
    Leads io s ((routines entry).addr ST8) f (f.ram (stackWord s f.sp 0))
      { mapped f with r0 := r0, r2 := r2, sp := f.sp + 1, ram := stored s entry f } := by
  have hready : Ready s (routines entry) (stRam s entry f) :=
    (((h.write (hstack 0 (by decide)) _).write (hstack 1 (by decide)) _).write
      (hstack 2 (by decide)) _).write (hstack 3 (by decide)) _
  obtain ⟨hret, hr3, hr4⟩ := stored_stack entry hdata
  obtain ⟨r2, hrest⟩ := st8_rest io (f := { mapped f with
    r4 := f.r2, sp := f.sp - 1 - 1, ram := stRam s entry f }) (wordOf (address f.r0 f.r1))
    (merge (stRam s entry f (wordOf (address f.r0 f.r1))) f.r2 (f.r1 &&& 1))
    (place_mapped f.r0 f.r1) rfl hready hapart
  have hback : f.sp - 1 - 1 + 1 = f.sp - 1 := BitVec.sub_add_cancel _ 1
  have hback' : f.sp - 1 + 1 = f.sp := BitVec.sub_add_cancel f.sp 1
  dsimp only at hrest
  rw [hback, hback', stackWord_pred, stackWord_pred, stackWord_pred, ← stored, hr3, hr4, hret]
    at hrest
  exact ⟨_, r2, (st8_enter io h hstack).trans hrest⟩

end Calls

section Halves

theorem low_and (w : U16) : (w &&& 0xff).setWidth 8 = w.setWidth 8 := by
  rw [BitVec.setWidth_and]
  exact BitVec.and_allOnes

theorem low_of_shifted (w : U16) : (w <<< 8).setWidth 8 = 0 := by
  ext i hi
  simp

theorem low_bswp (w : U16) : (bswp w).setWidth 8 = (w >>> 8).setWidth 8 := by
  rw [bswp, BitVec.setWidth_or, low_of_shifted]
  exact BitVec.zero_or

theorem high_bswp (w : U16) : (bswp w >>> 8).setWidth 8 = w.setWidth 8 := by
  have hshift : (w &&& 0xff) <<< 8 >>> 8 = w &&& 0xff := by
    apply BitVec.eq_of_toNat_eq
    have hmask : (0xff : U16).toNat = 2 ^ 8 - 1 := rfl
    rw [BitVec.toNat_ushiftRight, BitVec.toNat_shiftLeft, BitVec.toNat_and, hmask,
      Nat.and_two_pow_sub_one_eq_mod, Nat.shiftRight_eq_div_pow, Nat.shiftLeft_eq]
    omega
  have hzero : w >>> 8 >>> 8 = 0 := by
    rw [← BitVec.shiftRight_add]
    exact BitVec.ushiftRight_eq_zero (Nat.le_refl 16)
  rw [bswp, BitVec.ushiftRight_or_distrib, hshift, hzero, BitVec.setWidth_or, low_and]
  exact BitVec.or_zero

theorem high_mask (w : U16) : ((w &&& 0xff00) >>> 8).setWidth 8 = (w >>> 8).setWidth 8 := by
  rw [BitVec.ushiftRight_and_distrib, BitVec.setWidth_and]
  exact BitVec.and_allOnes

theorem high_low (w : U16) : ((w &&& 0xff) >>> 8).setWidth 8 = 0 := by
  rw [BitVec.ushiftRight_and_distrib, BitVec.setWidth_and]
  exact BitVec.and_zero

theorem low_high (w : U16) : (w &&& 0xff00).setWidth 8 = 0 := by
  rw [BitVec.setWidth_and]
  exact BitVec.and_zero

theorem word_of_low (w : U16) : w &&& 0xff = (w.setWidth 8).setWidth 16 := by
  apply BitVec.eq_of_toNat_eq
  have hmask : (0xff : U16).toNat = 2 ^ 8 - 1 := rfl
  rw [BitVec.toNat_and, hmask, Nat.and_two_pow_sub_one_eq_mod, BitVec.toNat_setWidth,
    BitVec.toNat_setWidth]
  omega

end Halves

section Array

/-- The byte at an address; the high byte of a word stands at the even one. -/
def byteAt (ram : Mem) (b : BitVec 19) : U8 :=
  if b.getLsbD 0 then (ram (wordOf b)).setWidth 8 else (ram (wordOf b) >>> 8).setWidth 8

theorem address_odd (hi lo : U16) : lo &&& 1 = 0 ↔ (address hi lo).getLsbD 0 = false := by
  have hbit : (address hi lo).getLsbD 0 = lo.getLsbD 0 := by
    rw [address, BitVec.getLsbD_setWidth, BitVec.getLsbD_append]
    rfl
  have hand : lo &&& 1 = (BitVec.ofBool (lo.getLsbD 0)).setWidth 16 :=
    BitVec.and_one_eq_setWidth_ofBool_getLsbD
  rw [hbit, hand]
  cases lo.getLsbD 0 with
  | false => exact ⟨fun _ => rfl, fun _ => rfl⟩
  | true => exact ⟨fun h => absurd h (by decide), fun h => Bool.noConfusion h⟩

theorem select_eq (ram : Mem) (hi lo : U16) :
    select (ram (wordOf (address hi lo))) (lo &&& 1) =
      (byteAt ram (address hi lo)).setWidth 16 := by
  have hodd := address_odd hi lo
  rw [select, byteAt]
  cases hbit : (address hi lo).getLsbD 0 with
  | false =>
      rw [if_pos (hodd.mpr hbit), if_neg Bool.false_ne_true, word_of_low, low_bswp]
  | true =>
      have hne : ¬ lo &&& 1 = 0 := fun h => Bool.noConfusion (hbit.symm.trans (hodd.mp h))
      rw [if_neg hne, if_pos rfl, word_of_low]

theorem eq_of_wordOf {b c : BitVec 19} (hword : wordOf b = wordOf c)
    (hbit : b.getLsbD 0 = c.getLsbD 0) : b = c := by
  apply BitVec.eq_of_getLsbD_eq
  intro i hi
  cases i with
  | zero => exact hbit
  | succ i =>
      have h := congrArg (fun w => w.getLsbD i) hword
      simp only [wordOf, BitVec.getLsbD_extractLsb'] at h
      rwa [decide_eq_true (by omega : i < 18), Bool.true_and, Bool.true_and, Nat.add_comm] at h

/-- The word that is written back has the new byte at its place, and keeps the other one. -/
theorem byteAt_merge (ram : Mem) (hi lo v : U16) (b : BitVec 19) :
    byteAt (Function.update ram (wordOf (address hi lo))
      (merge (ram (wordOf (address hi lo))) v (lo &&& 1))) b =
      if b = address hi lo then v.setWidth 8 else byteAt ram b := by
  by_cases hword : wordOf b = wordOf (address hi lo)
  · have hodd := address_odd hi lo
    rw [byteAt, byteAt, hword, Function.update_self, merge]
    cases hbit : (address hi lo).getLsbD 0 with
    | false =>
        rw [if_pos (hodd.mpr hbit)]
        cases hb : b.getLsbD 0 with
        | false =>
            rw [if_pos (eq_of_wordOf hword (hb.trans hbit.symm)), if_neg Bool.false_ne_true,
              BitVec.ushiftRight_or_distrib, BitVec.setWidth_or, high_low, high_mask, high_bswp]
            exact BitVec.zero_or
        | true =>
            have hne : b ≠ address hi lo := fun h => Bool.noConfusion (hb.symm.trans (h ▸ hbit))
            rw [if_neg hne, if_pos rfl, if_pos rfl, BitVec.setWidth_or, low_and, low_high]
            exact BitVec.or_zero
    | true =>
        have hlo : ¬ lo &&& 1 = 0 := fun h => Bool.noConfusion (hbit.symm.trans (hodd.mp h))
        rw [if_neg hlo]
        cases hb : b.getLsbD 0 with
        | false =>
            have hne : b ≠ address hi lo := fun h => Bool.noConfusion (hb.symm.trans (h ▸ hbit))
            rw [if_neg hne, if_neg Bool.false_ne_true, if_neg Bool.false_ne_true,
              BitVec.ushiftRight_or_distrib, BitVec.setWidth_or, high_low, high_mask]
            exact BitVec.or_zero
        | true =>
            rw [if_pos (eq_of_wordOf hword (hb.trans hbit.symm)), if_pos rfl, BitVec.setWidth_or,
              low_and, low_high]
            exact BitVec.zero_or
  · have hne : b ≠ address hi lo := fun h => hword (congrArg wordOf h)
    rw [if_neg hne, byteAt, byteAt, Function.update_of_ne hword]

end Array

section Sessions

/-- What a caller asks for -/
inductive Access
  | ld8 (b : BitVec 19)
  | st8 (b : BitVec 19) (v : U8)

namespace Access

def byte : Access → BitVec 19
  | .ld8 b => b
  | .st8 b _ => b

/-- The offset of the routine -/
def offset : Access → Nat
  | .ld8 _ => LD8
  | .st8 _ _ => ST8

/-- What the access does to an array of bytes -/
def apply (bytes : BitVec 19 → U8) : Access → BitVec 19 → U8
  | .ld8 _ => bytes
  | .st8 b v => Function.update bytes b v

end Access

variable {σ : Type} (io : Io σ) (entry : U16) (data : BitVec 18 → Prop)

/-- The core stands at the routine, with the address and the byte in the registers and a stack
beside the code.  The words of the data hold neither code nor what the routine pushes. -/
structure Asks (a : Access) (s : Core σ) : Prop where
  ready : Ready s (routines entry) s.ram
  ic : s.regs.ic = (routines entry).addr a.offset
  byte : address (s.regs.r 0) (s.regs.r 1) = a.byte
  value : ∀ b v, a = .st8 b v → (s.regs.r 2).setWidth 8 = v
  inside : data (wordOf a.byte)
  code : ∀ p, data p → Apart s (routines entry) p
  stack : ∀ p, data p → ∀ i < 5, p ≠ stackWord s s.regs.sp i
  room : ∀ i < 4, Apart s (routines entry) (stackWord s s.regs.sp (i + 1))

/-- The core behind the return from the routine -/
structure Answers (a : Access) (s t : Core σ) : Prop where
  back : t.regs.ic = s.ram (stackWord s s.regs.sp 0)
  sp : t.regs.sp = s.regs.sp + 1
  r3 : t.regs.r 3 = s.regs.r 3
  r4 : t.regs.r 4 = s.regs.r 4
  tsr1 : t.regs.tsr1 = s.regs.tsr1
  masks : KeepsMasks s.regs.str t.regs.str
  others : core s t.regs.ic t.regs.str t.fetches (frameOf t) = t
  loaded : ∀ b, a = .ld8 b → t.regs.r 0 = (byteAt s.ram b).setWidth 16
  bytes : ∀ b, data (wordOf b) → byteAt t.ram b = a.apply (byteAt s.ram) b
  ram : ∀ p, p ≠ wordOf a.byte → (∀ i < 4, p ≠ stackWord s s.regs.sp (i + 1)) → t.ram p = s.ram p

variable {entry data}

theorem byteAt_congr {ram ram' : Mem} {b : BitVec 19} (h : ram (wordOf b) = ram' (wordOf b)) :
    byteAt ram b = byteAt ram' b := by
  rw [byteAt, byteAt, h]

theorem ldRam_of_ne {s : Core σ} {f : Frame} {p : BitVec 18}
    (hp : ∀ i < 4, p ≠ stackWord s f.sp (i + 1)) : ldRam s entry f p = f.ram p := by
  rw [ldRam, Function.update_of_ne (hp 2 (by decide)), Function.update_of_ne (hp 1 (by decide)),
    Function.update_of_ne (hp 0 (by decide))]

theorem stRam_of_ne {s : Core σ} {f : Frame} {p : BitVec 18}
    (hp : ∀ i < 4, p ≠ stackWord s f.sp (i + 1)) : stRam s entry f p = f.ram p := by
  rw [stRam, Function.update_of_ne (hp 3 (by decide)), Function.update_of_ne (hp 2 (by decide)),
    Function.update_of_ne (hp 1 (by decide)), Function.update_of_ne (hp 0 (by decide))]

theorem serves_ld8 {b : BitVec 19} {s : Core σ} (h : Asks entry data (.ld8 b) s) :
    ∃ n, Answers data (.ld8 b) s ((step io)^[n] s) := by
  have hstack (p : BitVec 18) (hp : data p) (i : Nat) (hi : i < 4) :
      p ≠ stackWord s (frameOf s).sp (i + 1) := h.stack p hp (i + 1) (by omega)
  obtain ⟨n, k, str, hmasks, hrun⟩ := leads_core
    (mem_ld8 io (f := frameOf s) h.ready fun i hi => h.room i (by omega)) h.ic
  have hbyte : address (frameOf s).r0 (frameOf s).r1 = b := h.byte
  have hin : data (wordOf b) := h.inside
  rw [select_eq, hbyte, byteAt_congr (ldRam_of_ne (hstack _ hin))] at hrun
  refine ⟨n, ?_⟩
  rw [hrun]
  constructor
  case back => rfl
  case sp => rfl
  case r3 => rfl
  case r4 => rfl
  case tsr1 => rfl
  case masks => exact hmasks
  case others => rfl
  case loaded =>
    intro c hc
    cases hc
    rfl
  case bytes => exact fun c hc => byteAt_congr (ldRam_of_ne (hstack _ hc))
  case ram => exact fun p _ hp => ldRam_of_ne hp

theorem serves_st8 {b : BitVec 19} {v : U8} {s : Core σ} (h : Asks entry data (.st8 b v) s) :
    ∃ n, Answers data (.st8 b v) s ((step io)^[n] s) := by
  have hstack (p : BitVec 18) (hp : data p) (i : Nat) (hi : i < 4) :
      p ≠ stackWord s (frameOf s).sp (i + 1) := h.stack p hp (i + 1) (by omega)
  have hbyte : address (frameOf s).r0 (frameOf s).r1 = b := h.byte
  have hvalue : (frameOf s).r2.setWidth 8 = v := h.value b v rfl
  obtain ⟨r0, r2, hleads⟩ := mem_st8 io (f := frameOf s) h.ready h.room
    (hbyte ▸ h.code _ h.inside)
    (fun i hi => (hbyte ▸ h.stack _ h.inside i (by omega)).symm)
  obtain ⟨n, k, str, hmasks, hrun⟩ := leads_core hleads h.ic
  refine ⟨n, ?_⟩
  rw [hrun]
  constructor
  case back => rfl
  case sp => rfl
  case r3 => rfl
  case r4 => rfl
  case tsr1 => rfl
  case masks => exact hmasks
  case others => rfl
  case loaded => exact fun c hc => Access.noConfusion hc
  case bytes =>
    intro c hc
    show byteAt (stored s entry (frameOf s)) c = Function.update (byteAt s.ram) b v c
    rw [stored, byteAt_merge, hbyte, hvalue, Function.update_apply,
      byteAt_congr (stRam_of_ne (hstack _ hc))]
    rfl
  case ram =>
    intro p hp hpushed
    have hne : p ≠ wordOf b := hp
    have hbeside : ∀ i < 4, p ≠ stackWord s (frameOf s).sp (i + 1) := hpushed
    show stored s entry (frameOf s) p = (frameOf s).ram p
    rw [stored, hbyte, Function.update_of_ne hne]
    exact stRam_of_ne hbeside

/-- The bytes of the data are those of an array. -/
def Holds (data : BitVec 18 → Prop) (s : Core σ) (bytes : BitVec 19 → U8) : Prop :=
  ∀ b, data (wordOf b) → byteAt s.ram b = bytes b

theorem Answers.holds {a : Access} {s t : Core σ} {bytes : BitVec 19 → U8}
    (h : Answers data a s t) (hs : Holds data s bytes) : Holds data t (a.apply bytes) := by
  intro b hb
  rw [h.bytes b hb]
  cases a with
  | ld8 c => exact hs b hb
  | st8 c v =>
      rw [Access.apply, Access.apply, Function.update_apply, Function.update_apply, hs b hb]

theorem serves :
    Serves (step io) (fun bytes a s => Asks entry data a s ∧ Holds data s bytes)
      (fun bytes a s t => Answers data a s t ∧ Holds data t (a.apply bytes)) := by
  rintro bytes a s ⟨h, hs⟩
  cases a with
  | ld8 b =>
      obtain ⟨n, hanswer⟩ := serves_ld8 io h
      exact ⟨n, hanswer, hanswer.holds hs⟩
  | st8 b v =>
      obtain ⟨n, hanswer⟩ := serves_st8 io h
      exact ⟨n, hanswer, hanswer.holds hs⟩

/-- Accesses one after the other, with any other work in between that keeps the bytes of the data
and asks again: each returns to its caller, and the loads see an array of bytes. -/
theorem byte_session {ops : Nat → Access} {between : Nat → Core σ → Core σ} {s : Core σ}
    (hfirst : Asks entry data (ops 0) s)
    (hnext : ∀ i s t, Asks entry data (ops i) s → Answers data (ops i) s t →
      Asks entry data (ops (i + 1)) (between i t))
    (hkeeps : ∀ i t b, data (wordOf b) → byteAt (between i t).ram b = byteAt t.ram b) :
    ∃ bytes asked answered, bytes 0 = byteAt s.ram ∧ asked 0 = s ∧
      Session (step io) (fun bytes a s => Asks entry data a s ∧ Holds data s bytes)
        (fun bytes a s t => Answers data a s t ∧ Holds data t (a.apply bytes))
        (fun a _ bytes => a.apply bytes) ops (fun i _ => between i) bytes asked answered ∧
      ∀ i b, ops i = .ld8 b → (answered i).regs.r 0 = (bytes i b).setWidth 16 := by
  obtain ⟨bytes, asked, answered, hbytes, hstart, hsession⟩ :=
    (serves io).session (fun a _ bytes => a.apply bytes) ops (fun i _ => between i)
      ⟨hfirst, fun _ _ => rfl⟩ fun i bytes s t hs ht => ⟨hnext i s t hs.1 ht.1, fun b hb =>
        (hkeeps i t b hb).trans (ht.2 b hb)⟩
  refine ⟨bytes, asked, answered, hbytes, hstart, hsession, fun i b hb => ?_⟩
  have hdata : data (wordOf b) := by
    have h := (hsession.asks i).1.inside
    rwa [hb] at h
  rw [(hsession.answers i).1.loaded b hb, (hsession.asks i).2 b hdata]

end Sessions

section Sample

variable {σ : Type} {entry : U16} {data : BitVec 18 → Prop}

/-- What stands in `R2`. -/
def Access.value : Access → U16
  | .ld8 _ => 0
  | .st8 _ v => v.setWidth 16

theorem address_halves (b : BitVec 19) :
    address ((b >>> 16).setWidth 16) (b.setWidth 16) = b := by
  apply BitVec.eq_of_toNat_eq
  rw [address, BitVec.toNat_setWidth, BitVec.toNat_append, BitVec.toNat_setWidth,
    BitVec.toNat_ushiftRight, Nat.shiftRight_eq_div_pow, BitVec.toNat_setWidth,
    ← Nat.shiftLeft_add_eq_or_of_lt (Nat.mod_lt _ (Nat.two_pow_pos 16)), Nat.shiftLeft_eq]
  omega

/-- A caller that asks for the next access at once. -/
def again (entry : U16) (a : Access) (t : Core σ) : Core σ :=
  core t ((routines entry).addr a.offset) t.regs.str t.fetches
    { frameOf t with
      r0 := (a.byte >>> 16).setWidth 16
      r1 := a.byte.setWidth 16
      r2 := a.value
      sp := t.regs.sp - 1 }

theorem Asks.again {a b : Access} {s t : Core σ} (h : Asks entry data a s)
    (ht : Answers data a s t) (hb : data (wordOf b.byte)) : Asks entry data b (again entry b t) := by
  have hcsbr : t.regs.csbr = s.regs.csbr := (congrArg (fun s => s.regs.csbr) ht.others).symm
  have hssbr : t.regs.ssbr = s.regs.ssbr := (congrArg (fun s => s.regs.ssbr) ht.others).symm
  have hsp : t.regs.sp - 1 = s.regs.sp := by rw [ht.sp, BitVec.add_sub_cancel]
  have hapart (p : BitVec 18) (hp : Apart s (routines entry) p) :
      Apart (Mn1613Bytes.again entry b t) (routines entry) p := by
    intro n hn
    show place t.regs.csbr _ ≠ p
    rw [hcsbr]
    exact hp n hn
  have hstack (i : Nat) : stackWord (Mn1613Bytes.again entry b t) (t.regs.sp - 1) i =
      stackWord s s.regs.sp i := by
    rw [hsp]
    exact congrArg (fun segment => place segment _) hssbr
  refine ⟨⟨fun n w hw => ?_, ?_⟩, rfl, address_halves _, ?_, hb, ?_, ?_, ?_⟩
  · have hn : n < (routines entry).words.length := (List.getElem?_eq_some_iff.mp hw).1
    show t.ram (place t.regs.csbr _) = w
    rw [hcsbr, ht.ram _ (h.code _ h.inside n hn) fun i hi => h.room i hi n hn]
    exact h.ready.loaded n w hw
  · rw [Mn1613Bytes.again, ← ht.others]
    exact h.ready.irqLevel ht.masks _ _ _
  · intro c v hv
    rw [hv]
    exact BitVec.setWidth_setWidth_of_le v (by decide)
  · exact fun p hp => hapart p (h.code p hp)
  · intro p hp i hi
    show p ≠ stackWord (Mn1613Bytes.again entry b t) (t.regs.sp - 1) i
    rw [hstack]
    exact h.stack p hp i hi
  · intro i hi
    show Apart _ _ (stackWord (Mn1613Bytes.again entry b t) (t.regs.sp - 1) (i + 1))
    rw [hstack]
    exact hapart _ (h.room i hi)

/-- A byte is stored and loaded in turn. -/
def sampleOps (i : Nat) : Access :=
  if i % 2 = 0 then .st8 0x801 (BitVec.ofNat 8 i) else .ld8 0x801

/-- The only word of the data -/
def SampleData (p : BitVec 18) : Prop := p = 0x400

/-- A core with the routines at `0010` and the stack at `0300`. -/
def sampleCore : Core Unit where
  regs := { CpuRegister.default with sp := 0x301 }
  ram p := (routines 0x10).words.getD (p.toNat - 0x10) 0
  execStatus := .running
  stepMode := false
  pendingIrq := 0
  io := ()
  fetches := 0

theorem sampleOps_data (i : Nat) : SampleData (wordOf (sampleOps i).byte) := by
  have hword : wordOf 0x801 = 0x400 := rfl
  rw [sampleOps, SampleData]
  split
  · exact hword
  · exact hword

theorem sampleCore_loaded (n : Nat) (w : U16) (hw : (routines 0x10).words[n]? = some w) :
    sampleCore.ram (place 0 ((routines 0x10).addr n)) = w := by
  have hn : n < 56 := (List.getElem?_eq_some_iff.mp hw).1
  have hplace : (place 0 ((routines 0x10).addr n)).toNat = 0x10 + n := by
    have haddr : ((routines 0x10).addr n).toNat = (0x10 + n % 65536) % 65536 := rfl
    have hzero : (0 : U8).toNat = 0 := rfl
    rw [place_toNat, haddr, hzero]
    omega
  show (routines 0x10).words.getD ((place 0 ((routines 0x10).addr n)).toNat - 0x10) 0 = w
  rw [hplace, Nat.add_sub_cancel_left, List.getD_eq_getElem?_getD, hw]
  rfl

theorem sampleCore_asks :
    Asks 0x10 SampleData (sampleOps 0) (again 0x10 (sampleOps 0) sampleCore) where
  ready := ⟨sampleCore_loaded, rfl⟩
  ic := rfl
  byte := address_halves _
  value := by
    intro c v hv
    rw [hv]
    exact BitVec.setWidth_setWidth_of_le v (by decide)
  inside := sampleOps_data 0
  code := by
    intro p hp
    rw [hp, Apart]
    decide +kernel
  stack := by
    intro p hp
    rw [hp]
    decide +kernel
  room := by
    simp only [Apart]
    decide +kernel

theorem byte_session_sample :
    ∃ bytes asked answered, bytes 0 = byteAt (again 0x10 (sampleOps 0) sampleCore).ram ∧
      asked 0 = again 0x10 (sampleOps 0) sampleCore ∧
      Session (step Mn1613Random.sampleIo)
        (fun bytes a s => Asks 0x10 SampleData a s ∧ Holds SampleData s bytes)
        (fun bytes a s t => Answers SampleData a s t ∧ Holds SampleData t (a.apply bytes))
        (fun a _ bytes => a.apply bytes) sampleOps
        (fun i _ => again 0x10 (sampleOps (i + 1))) bytes asked answered ∧
      ∀ i b, sampleOps i = .ld8 b → (answered i).regs.r 0 = (bytes i b).setWidth 16 :=
  byte_session Mn1613Random.sampleIo sampleCore_asks
    (fun i _ _ h ht => h.again ht (sampleOps_data (i + 1))) fun _ _ _ _ => rfl

end Sample

end Mn1613Bytes
end BootMonitor
end RetroCpu
