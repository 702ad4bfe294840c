import RetroCpu.BootMonitor.Mn1613Heap
import RetroCpu.BootMonitor.Mn1613Random
import RetroCpu.Lib.Calls

/-!
# The heap of the MN1613 monitor on the Rust core (`mn1613/bios/bios_common.asm`)

`g_malloc_init`, `g_malloc_` and `g_free_` as the words that the assembler makes of them, executed
by the Rust core.  They do to the memory what the routines of `Mn1613Heap` do to a heap, and calls
one after the other give every part of the region to one owner only.
-/

namespace RetroCpu
namespace BootMonitor
namespace Mn1613HeapCode

open EmuRs.Mn1613 RetroCpu.Mn1613 Prog Mn1613Guest Mn1613Heap FirstFit Calls

section Code

/-- Where the routines and their variables are, and the region that they are given. -/
structure Layout where
  init : U16
  malloc : U16
  free : U16
  /-- The places of `GL_ALLOC_ADR` and `GL_ALLOC_SIZE` in the zero page -/
  adr : U8
  size : U8
  base : Mn1613Heap.Word
  words : Mn1613Heap.Word

variable (L : Layout)

/-- `g_malloc_init` -/
def Layout.initCode : Code where
  entry := L.init
  words := [0x2301, 0x8000 ||| L.adr.setWidth 16, 0x8100 ||| L.size.setWidth 16, 0x51ef, 0x0002,
    0xcf06, 0x7b08, 0xa100, 0x6101, 0xa101, 0xc100 ||| L.size.setWidth 16,
    -- l_minit_done
    0x2302, 0x2003]

/-- `g_malloc_` -/
def Layout.mallocCode : Code where
  entry := L.malloc
  words := [0x2301, 0x2401, 0x7908, 0x7959, 0xcf38, 0x4902, 0x51d8, 0xcf35,
    0xc200 ||| L.adr.setWidth 16, 0xc400 ||| L.size.setWidth 16, 0x54ef, 0x0002, 0xcf30, 0x5c0a,
    -- l_m_lp
    0x52ec, 0xcf02, 0xcf2c,
    -- l_m_body
    0x7b0a, 0xe000, 0x50ef, 0x0002, 0xcf27, 0x7b0a, 0x5b88, 0xcf24, 0x54eb, 0xcf22, 0x7b0a, 0xe301,
    0x7b4b, 0xcf1a, 0x50e9, 0xcf18, 0x5801, 0x50ef, 0x0002, 0xcf0d, 0x2001, 0x7b0a, 0xa100, 0x7807,
    0x0001, 0xa001, 0x5b09, 0x2002, 0xa000, 0x6000, 0xa001, 0xcf05,
    -- l_m_take
    0x7b0a, 0x7807, 0x0001, 0xa001,
    -- l_m_user
    0x780a, 0x4802, 0xcf06,
    -- l_m_next
    0x7b0a, 0xe000, 0x5a08, 0xcfd3,
    -- l_m_fail
    0x6000,
    -- l_m_done
    0x2402, 0x2302, 0x2003]

/-- `g_free_` -/
def Layout.freeCode : Code where
  entry := L.free
  words := [0x2301, 0x2401, 0x7858, 0xcf47, 0x2001, 0x4002, 0xc200 ||| L.adr.setWidth 16,
    0xc400 ||| L.size.setWidth 16, 0x54ef, 0x0002, 0xcf3f, 0x5c0a, 0x7908,
    -- l_f_lp
    0x52ec, 0xcf02, 0xcf3a,
    -- l_f_body
    0x5259, 0xcf0c, 0x7b0a, 0xe000, 0x50ef, 0x0002, 0xcf33, 0x5a98, 0xcf02, 0xcf30,
    -- l_f_advok
    0x54ea, 0xcf2e, 0xcff1,
    -- l_f_hit
    0x7b0a, 0xe001, 0x504f, 0x0001, 0xcf28, 0x6000, 0xa001, 0xc200 ||| L.adr.setWidth 16,
    0xc400 ||| L.size.setWidth 16, 0x5c0a,
    -- l_c_lp
    0x52ec, 0xcf02, 0xcf1e,
    -- l_c_body
    0x7b0a, 0xe000, 0x50ef, 0x0002, 0xcf19, 0xe101, 0x7b0a, 0x5b88, 0xcf15, 0x54eb, 0xcf13, 0x535c,
    0xcf11, 0x7949, 0xcf0b, 0x7b0b, 0xe101, 0x7949, 0xcf07, 0xe100, 0x7b0a, 0xe000, 0x5809, 0xa000,
    0xcfe5,
    -- l_c_adv
    0x7b0a, 0xe000, 0x5a08, 0xcfe1,
    -- l_f_ok
    0x2002, 0xcf03,
    -- l_f_fail1
    0x2102,
    -- l_f_fail0
    0x6000,
    -- l_f_done
    0x2402, 0x2302, 0x2003]

/-- The routines -/
def Layout.codes : List Code := [L.initCode, L.mallocCode, L.freeCode]

/-- The instructions in the source -/
def source : List (List (String × List String)) := [
  -- g_malloc_init
  [("PUSH", ["R3"]), ("ST", ["R0", "*GL_ALLOC_ADR"]), ("ST", ["R1", "*GL_ALLOC_SIZE"]),
    ("CWI", ["R1", "#GL_HEAP_HDR", "LPZ"]), ("B", ["l_minit_done"]), ("MV", ["X0", "R0"]),
    ("ST", ["R1", "0(X0)"]), ("EOR", ["R1", "R1"]), ("ST", ["R1", "1(X0)"]),
    ("L", ["R1", "*GL_ALLOC_SIZE"]), ("POP", ["R3"]), ("RET", [])],
  -- g_malloc_
  [("PUSH", ["R3"]), ("PUSH", ["R4"]), ("MV", ["R1", "R0"]), ("MV", ["R1", "R1", "NZ"]),
    ("B", ["l_m_fail"]), ("AI", ["R1", "#GL_HEAP_HDR"]), ("C", ["R1", "R0", "LP"]),
    ("B", ["l_m_fail"]), ("L", ["R2", "*GL_ALLOC_ADR"]), ("L", ["R4", "*GL_ALLOC_SIZE"]),
    ("CWI", ["R4", "#GL_HEAP_HDR", "LPZ"]), ("B", ["l_m_fail"]), ("A", ["R4", "R2"]),
    ("C", ["R2", "R4", "LPZ"]), ("B", ["l_m_body"]), ("B", ["l_m_fail"]), ("MV", ["X0", "R2"]),
    ("L", ["R0", "0(X0)"]), ("CWI", ["R0", "#GL_HEAP_HDR", "LPZ"]), ("B", ["l_m_fail"]),
    ("MV", ["R3", "R2"]), ("A", ["R3", "R0", "EZ"]), ("B", ["l_m_fail"]),
    ("C", ["R4", "R3", "LPZ"]), ("B", ["l_m_fail"]), ("MV", ["X0", "R2"]),
    ("L", ["R3", "1(X0)"]), ("MV", ["R3", "R3", "Z"]), ("B", ["l_m_next"]),
    ("C", ["R0", "R1", "LPZ"]), ("B", ["l_m_next"]), ("S", ["R0", "R1"]),
    ("CWI", ["R0", "#GL_HEAP_HDR", "LPZ"]), ("B", ["l_m_take"]), ("PUSH", ["R0"]),
    ("MV", ["X0", "R2"]), ("ST", ["R1", "0(X0)"]), ("MVWI", ["R0", "#GL_HEAP_USED"]),
    ("ST", ["R0", "1(X0)"]), ("A", ["X0", "R1"]), ("POP", ["R0"]), ("ST", ["R0", "0(X0)"]),
    ("EOR", ["R0", "R0"]), ("ST", ["R0", "1(X0)"]), ("B", ["l_m_user"]), ("MV", ["X0", "R2"]),
    ("MVWI", ["R0", "#GL_HEAP_USED"]), ("ST", ["R0", "1(X0)"]), ("MV", ["R0", "R2"]),
    ("AI", ["R0", "#GL_HEAP_HDR"]), ("B", ["l_m_done"]), ("MV", ["X0", "R2"]),
    ("L", ["R0", "0(X0)"]), ("A", ["R2", "R0"]), ("B", ["l_m_lp"]), ("EOR", ["R0", "R0"]),
    ("POP", ["R4"]), ("POP", ["R3"]), ("RET", [])],
  -- g_free_
  [("PUSH", ["R3"]), ("PUSH", ["R4"]), ("MV", ["R0", "R0", "NZ"]), ("B", ["l_f_fail0"]),
    ("PUSH", ["R0"]), ("SI", ["R0", "#GL_HEAP_HDR"]), ("L", ["R2", "*GL_ALLOC_ADR"]),
    ("L", ["R4", "*GL_ALLOC_SIZE"]), ("CWI", ["R4", "#GL_HEAP_HDR", "LPZ"]),
    ("B", ["l_f_fail1"]), ("A", ["R4", "R2"]), ("MV", ["R1", "R0"]), ("C", ["R2", "R4", "LPZ"]),
    ("B", ["l_f_body"]), ("B", ["l_f_fail1"]), ("C", ["R2", "R1", "NZ"]), ("B", ["l_f_hit"]),
    ("MV", ["X0", "R2"]), ("L", ["R0", "0(X0)"]), ("CWI", ["R0", "#GL_HEAP_HDR", "LPZ"]),
    ("B", ["l_f_fail1"]), ("A", ["R2", "R0", "ENZ"]), ("B", ["l_f_advok"]), ("B", ["l_f_fail1"]),
    ("C", ["R4", "R2", "LPZ"]), ("B", ["l_f_fail1"]), ("B", ["l_f_lp"]), ("MV", ["X0", "R2"]),
    ("L", ["R0", "1(X0)"]), ("CWI", ["R0", "#GL_HEAP_USED", "Z"]), ("B", ["l_f_fail1"]),
    ("EOR", ["R0", "R0"]), ("ST", ["R0", "1(X0)"]), ("L", ["R2", "*GL_ALLOC_ADR"]),
    ("L", ["R4", "*GL_ALLOC_SIZE"]), ("A", ["R4", "R2"]), ("C", ["R2", "R4", "LPZ"]),
    ("B", ["l_c_body"]), ("B", ["l_f_ok"]), ("MV", ["X0", "R2"]), ("L", ["R0", "0(X0)"]),
    ("CWI", ["R0", "#GL_HEAP_HDR", "LPZ"]), ("B", ["l_f_ok"]), ("L", ["R1", "1(X0)"]),
    ("MV", ["R3", "R2"]), ("A", ["R3", "R0", "EZ"]), ("B", ["l_f_ok"]),
    ("C", ["R4", "R3", "LPZ"]), ("B", ["l_f_ok"]), ("C", ["R3", "R4", "NZ"]), ("B", ["l_f_ok"]),
    ("MV", ["R1", "R1", "Z"]), ("B", ["l_c_adv"]), ("MV", ["X0", "R3"]), ("L", ["R1", "1(X0)"]),
    ("MV", ["R1", "R1", "Z"]), ("B", ["l_c_adv"]), ("L", ["R1", "0(X0)"]), ("MV", ["X0", "R2"]),
    ("L", ["R0", "0(X0)"]), ("A", ["R0", "R1"]), ("ST", ["R0", "0(X0)"]), ("B", ["l_c_lp"]),
    ("MV", ["X0", "R2"]), ("L", ["R0", "0(X0)"]), ("A", ["R2", "R0"]), ("B", ["l_c_lp"]),
    ("POP", ["R0"]), ("B", ["l_f_done"]), ("POP", ["R1"]), ("EOR", ["R0", "R0"]),
    ("POP", ["R4"]), ("POP", ["R3"]), ("RET", [])]]

/-- The symbols, with the routines at `0010`, `0020` and `0060` -/
def symbols : AsmTs.SymbolTable where
  entries := [
    ("L_MINIT_DONE", .int 27), ("L_M_LP", .int 46), ("L_M_BODY", .int 49), ("L_M_TAKE", .int 81),
    ("L_M_USER", .int 85), ("L_M_NEXT", .int 88), ("L_M_FAIL", .int 92), ("L_M_DONE", .int 93),
    ("L_F_LP", .int 109), ("L_F_BODY", .int 112), ("L_F_ADVOK", .int 122), ("L_F_HIT", .int 125),
    ("L_C_LP", .int 135), ("L_C_BODY", .int 138), ("L_C_ADV", .int 163), ("L_F_OK", .int 167),
    ("L_F_FAIL1", .int 169), ("L_F_FAIL0", .int 170), ("L_F_DONE", .int 171),
    ("GL_ALLOC_ADR", .int 240), ("GL_ALLOC_SIZE", .int 241), ("GL_HEAP_HDR", .int 2),
    ("GL_HEAP_USED", .int 1)]

example : [0x10, 0x20, 0x60].zipWith (assembled symbols) source =
    (Layout.codes ⟨0x10, 0x20, 0x60, 0xf0, 0xf1, 0, 0⟩).map fun c =>
      .ok (c.words.map fun w => (w.toNat : Int)) := by decide +kernel

end Code

section Access

variable {σ : Type} {io : Io σ} {s : Core σ} {c : Code} {f : Frame} {n : Nat} {v : U16}

/-- The fields of an instruction with a place in the zero page -/
theorem zeroPage_fields (k : U16) (adr : U8) (hk : k &&& 0xff = 0) :
    (k ||| adr.setWidth 16) >>> 11 = k >>> 11 ∧ (k ||| adr.setWidth 16) >>> 8 = k >>> 8 ∧
    (k ||| adr.setWidth 16) &&& 0xff = adr.setWidth 16 := by
  have hlt := adr.isLt
  have hlow : (adr.setWidth 16 : U16) &&& 0xff = adr.setWidth 16 := by
    rw [← BitVec.toNat_inj, BitVec.toNat_and, show (0xff : U16).toNat = 2 ^ 8 - 1 from rfl,
      Nat.and_two_pow_sub_one_eq_mod, BitVec.toNat_setWidth]
    omega
  have hshift {m : Nat} (hm : 8 ≤ m) : (adr.setWidth 16 : U16) >>> m = 0 := by
    rw [← BitVec.toNat_inj, BitVec.toNat_ushiftRight, Nat.shiftRight_eq_div_pow,
      BitVec.toNat_setWidth]
    refine Nat.div_eq_of_lt (lt_of_lt_of_le ?_ (Nat.pow_le_pow_right Nat.two_pos hm))
    omega
  refine ⟨?_, ?_, ?_⟩
  · rw [BitVec.ushiftRight_or_distrib, hshift (by decide)]
    exact BitVec.or_zero
  · rw [BitVec.ushiftRight_or_distrib, hshift (by decide)]
    exact BitVec.or_zero
  · rw [BitVec.and_or_distrib_right, hk, hlow]
    exact BitVec.zero_or

/-- L with a place in the zero page -/
theorem leads_loadVar (i : Reg) (k : U16) (adr : U8) (h : Ready s c f.ram)
    (hw : c.words[n]? = some (k ||| adr.setWidth 16)) (hk : k &&& 0xff = 0)
    (hop : (k >>> 11) &&& 0x1f = 0x18) (hrrr : (k >>> 8) &&& 0x7 = i.rrr)
    (hv : f.ram (place s.regs.csbr (adr.setWidth 16)) = v) :
    Leads io s (c.addr n) f (c.addr (n + 1)) (f.set i v) := by
  obtain ⟨h11, h8, hlow⟩ := zeroPage_fields k adr hk
  rw [← hv]
  refine leads_l i h hw ?_ fun _ => does_ea_zero (hlow ▸ BitVec.and_assoc _ _ _)
  unfold execute
  simp only [h11, h8, hlow, hop, hrrr]
  cases i with
  | R0 | R1 | R2 | R3 | R4 | SP => rfl

/-- ST with a place in the zero page -/
theorem leads_storeVar (i : Reg) (k : U16) (adr : U8) (h : Ready s c f.ram)
    (hw : c.words[n]? = some (k ||| adr.setWidth 16)) (hk : k &&& 0xff = 0)
    (hop : (k >>> 11) &&& 0x1f = 0x10) (hrrr : (k >>> 8) &&& 0x7 = i.rrr) :
    Leads io s (c.addr n) f (c.addr (n + 1))
      { f with ram := Function.update f.ram (place s.regs.csbr (adr.setWidth 16)) (f.get i) } := by
  obtain ⟨h11, h8, hlow⟩ := zeroPage_fields k adr hk
  refine leads_st i h hw ?_ fun _ => does_ea_zero (hlow ▸ BitVec.and_assoc _ _ _)
  unfold execute
  simp only [h11, h8, hlow, hop, hrrr]
  cases i with
  | R0 | R1 | R2 | R3 | R4 | SP => rfl

/-- L behind `X0` -/
theorem leads_loadField (i : Reg) (d : U16) {x : U16} (h : Ready s c f.ram)
    {w : U16} (hw : c.words[n]? = some w)
    (hx : execute io w = (ea 4 d >>= fun ea => rdC ea >>= sw i.rrr)) (hd : d &&& 0xff = d)
    (hplace : f.r3 + d = x) (hv : f.ram (place s.regs.csbr x) = v) :
    Leads io s (c.addr n) f (c.addr (n + 1)) (f.set i v) := by
  subst hplace hv
  exact leads_l i h hw hx fun _ => does_ea_x0 hd

theorem leads_popValue (i : Reg) (h : Ready s c f.ram) {w : U16} (hw : c.words[n]? = some w)
    (hx : execute io w = (pop >>= sw i.rrr)) (hv : f.ram (stackWord s f.sp 0) = v) :
    Leads io s (c.addr n) f (c.addr (n + 1)) (Frame.set { f with sp := f.sp + 1 } i v) := by
  subst hv
  exact leads_pop i h hw hx

/-- ST behind `X0` -/
theorem leads_storeField (i : Reg) (d : U16) {x : U16} (h : Ready s c f.ram)
    {w : U16} (hw : c.words[n]? = some w)
    (hx : execute io w = (ea 4 d >>= fun ea => gr i.rrr >>= wrC ea)) (hd : d &&& 0xff = d)
    (hplace : f.r3 + d = x) :
    Leads io s (c.addr n) f (c.addr (n + 1))
      { f with ram := Function.update f.ram (place s.regs.csbr x) (f.get i) } := by
  subst hplace
  exact leads_st i h hw hx fun _ => does_ea_x0 hd

end Access

section Runs

variable {σ : Type} (io : Io σ) {s : Core σ} {ic ic' ic'' : U16} {f f' : Frame}
  {Q Q' : Frame → Prop}

/-- From one address and frame to another address, with a frame that has a property. -/
def Reaches (s : Core σ) (ic : U16) (f : Frame) (ic' : U16) (Q : Frame → Prop) : Prop :=
  ∃ f', Leads io s ic f ic' f' ∧ Q f'

variable {io}

theorem Reaches.done (h : Q f) : Reaches io s ic f ic Q := ⟨f, .refl, h⟩

theorem Reaches.step (h : Leads io s ic f ic' f') (h' : Reaches io s ic' f' ic'' Q) :
    Reaches io s ic f ic'' Q := by
  obtain ⟨f'', hleads, hQ⟩ := h'
  exact ⟨f'', h.trans hleads, hQ⟩

theorem Reaches.trans (h : Reaches io s ic f ic' Q')
    (h' : ∀ f', Q' f' → Reaches io s ic' f' ic'' Q) : Reaches io s ic f ic'' Q := by
  obtain ⟨f', hleads, hQ⟩ := h
  exact .step hleads (h' f' hQ)

end Runs

section Memory

variable {σ : Type} (s : Core σ) (L : Layout)

/-- The end of the region -/
def Layout.stop : Nat := L.base.toNat + L.words.toNat

/-- The addresses of the region -/
def Layout.Inside (x : Mn1613Heap.Word) : Prop := L.base.toNat ≤ x.toNat ∧ x.toNat < L.stop

/-- The words of the region, and the variables -/
def Layout.Owns (p : BitVec 18) : Prop :=
  (∃ x, L.Inside x ∧ place s.regs.csbr x = p) ∨ place s.regs.csbr (L.adr.setWidth 16) = p ∨
    place s.regs.csbr (L.size.setWidth 16) = p

/-- The region is in front of the end of the segment, the variables are not part of it, and the
code, the stack of a call and these three are apart. -/
structure Placed (sp : U16) : Prop where
  room : 2 ≤ L.words.toNat
  stop : L.stop < 65536
  adr : ¬ L.Inside (L.adr.setWidth 16)
  size : ¬ L.Inside (L.size.setWidth 16)
  vars : L.adr ≠ L.size
  code : ∀ c ∈ L.codes, ∀ p, L.Owns s p → Apart s c p
  pushes : ∀ c ∈ L.codes, ∀ i < 3, Apart s c (stackWord s sp (i + 1))
  stack : ∀ p, L.Owns s p → ∀ i < 4, stackWord s sp i ≠ p

/-- The variables and the region hold what a heap does. -/
structure View (ram : Mem) (h : Heap) : Prop where
  adr : ram (place s.regs.csbr (L.adr.setWidth 16)) = h.GL_ALLOC_ADR
  size : ram (place s.regs.csbr (L.size.setWidth 16)) = h.GL_ALLOC_SIZE
  mem : ∀ x, L.Inside x → ram (place s.regs.csbr x) = h.mem x

variable {s L} {ram ram' : Mem} {h : Heap} {sp : U16}

theorem View.congr (hv : View s L ram h) (heq : ∀ p, L.Owns s p → ram' p = ram p) :
    View s L ram' h :=
  ⟨(heq _ (.inr (.inl rfl))).trans hv.adr, (heq _ (.inr (.inr rfl))).trans hv.size,
    fun x hx => (heq _ (.inl ⟨x, hx, rfl⟩)).trans (hv.mem x hx)⟩

theorem Layout.Inside.place_ne {x y : Mn1613Heap.Word} (hx : L.Inside x) (hy : ¬ L.Inside y) :
    place s.regs.csbr y ≠ place s.regs.csbr x := fun heq => hy (place_inj.mp heq ▸ hx)

theorem Placed.vars_ne (hp : Placed s L sp) :
    place s.regs.csbr (L.adr.setWidth 16) ≠ place s.regs.csbr (L.size.setWidth 16) := by
  intro heq
  have hnat := congrArg BitVec.toNat (place_inj.mp heq)
  rw [BitVec.toNat_setWidth, BitVec.toNat_setWidth] at hnat
  exact hp.vars (BitVec.eq_of_toNat_eq (by omega))

/-- A word of the region is stored. -/
theorem View.store (hv : View s L ram h) (hp : Placed s L sp)
    {x : Mn1613Heap.Word} (hx : L.Inside x)
    (v : U16) : View s L (Function.update ram (place s.regs.csbr x) v) (h.store x v) := by
  refine ⟨?_, ?_, fun y hy => ?_⟩
  · rw [Function.update_of_ne (hx.place_ne hp.adr)]
    exact hv.adr
  · rw [Function.update_of_ne (hx.place_ne hp.size)]
    exact hv.size
  · show _ = Function.update h.mem x v y
    rw [Function.update_apply, Function.update_apply]
    by_cases heq : y = x
    · rw [if_pos (congrArg _ heq), if_pos heq]
    · rw [if_neg fun h => heq (place_inj.mp h), if_neg heq]
      exact hv.mem y hy

theorem View.storeAdr (hv : View s L ram h) (hp : Placed s L sp) (v : U16) :
    View s L (Function.update ram (place s.regs.csbr (L.adr.setWidth 16)) v)
      { h with GL_ALLOC_ADR := v } := by
  refine ⟨Function.update_self _ _ _, ?_, fun y hy => ?_⟩
  · rw [Function.update_of_ne hp.vars_ne.symm]
    exact hv.size
  · rw [Function.update_of_ne (hy.place_ne hp.adr).symm]
    exact hv.mem y hy

theorem View.storeSize (hv : View s L ram h) (hp : Placed s L sp) (v : U16) :
    View s L (Function.update ram (place s.regs.csbr (L.size.setWidth 16)) v)
      { h with GL_ALLOC_SIZE := v } := by
  refine ⟨?_, Function.update_self _ _ _, fun y hy => ?_⟩
  · rw [Function.update_of_ne hp.vars_ne]
    exact hv.adr
  · rw [Function.update_of_ne (hy.place_ne hp.size).symm]
    exact hv.mem y hy

/-- Inside a call: the memory outside the region, the variables and the pushes is that of the
frame of the call, and what has been pushed is on the stack. -/
structure Inner (s : Core σ) (L : Layout) (f₀ : Frame) (pushed : List U16) (h : Heap) (ram : Mem)
    (sp : U16) (tsr0 tsr1 : U8) : Prop where
  view : View s L ram h
  others : ∀ p, ¬ L.Owns s p → (∀ i < 3, p ≠ stackWord s f₀.sp (i + 1)) → ram p = f₀.ram p
  stack : ∀ i v, pushed[i]? = some v → ram (stackWord s f₀.sp (i + 1)) = v
  sp : sp = f₀.sp - BitVec.ofNat 16 pushed.length
  tsr0 : tsr0 = f₀.tsr0
  tsr1 : tsr1 = f₀.tsr1

variable {f₀ : Frame} {pushed : List U16} {tsr0 tsr1 : U8}

theorem stackWord_sub (s : Core σ) (sp : U16) (n i : Nat) :
    stackWord s (sp - BitVec.ofNat 16 n) i = stackWord s sp (i + n) := by
  have hsp : sp - BitVec.ofNat 16 n + 1 - BitVec.ofNat 16 i = sp + 1 - BitVec.ofNat 16 (i + n) := by
    rw [BitVec.ofNat_add]
    bv_omega
  exact congrArg (place s.regs.ssbr) hsp

/-- The code stays in the memory. -/
theorem Inner.ready (hin : Inner s L f₀ pushed h ram sp tsr0 tsr1) (hp : Placed s L f₀.sp)
    {c : Code} (hc : c ∈ L.codes) (hready : Ready s c f₀.ram) : Ready s c ram := by
  refine ⟨fun n w hw => ?_, hready.quiet⟩
  have hn : n < c.words.length := (List.getElem?_eq_some_iff.mp hw).1
  rw [hin.others _ (fun howns => hp.code c hc _ howns n hn rfl)
    fun i hi => hp.pushes c hc i hi n hn]
  exact hready.loaded n w hw

theorem Inner.enter (hv : View s L f₀.ram h) :
    Inner s L f₀ [] h f₀.ram f₀.sp f₀.tsr0 f₀.tsr1 :=
  ⟨hv, fun _ _ _ => rfl, nofun, (BitVec.sub_zero _).symm, rfl, rfl⟩

theorem Inner.push (hin : Inner s L f₀ pushed h ram sp tsr0 tsr1) (hp : Placed s L f₀.sp)
    (hlength : pushed.length < 3) (v : U16) :
    Inner s L f₀ (pushed ++ [v]) h (Function.update ram (stackWord s sp 1) v) (sp - 1) tsr0
      tsr1 := by
  have hword : stackWord s sp 1 = stackWord s f₀.sp (pushed.length + 1) := by
    rw [hin.sp, stackWord_sub, Nat.add_comm]
  rw [hword]
  constructor
  case view =>
    refine hin.view.congr fun p howns => ?_
    rw [Function.update_of_ne (hp.stack p howns _ (by omega)).symm]
  case others =>
    intro p howns hstack
    rw [Function.update_of_ne (hstack _ hlength)]
    exact hin.others p howns hstack
  case stack =>
    intro i w hw
    have hi : i < (pushed ++ [v]).length := (List.getElem?_eq_some_iff.mp hw).1
    rw [List.length_append, List.length_singleton] at hi
    by_cases hlast : i = pushed.length
    · rw [hlast, List.getElem?_concat_length] at hw
      rw [hlast, Function.update_self]
      exact Option.some.inj hw
    · rw [List.getElem?_append_left (by omega)] at hw
      rw [Function.update_of_ne (stackWord_ne _ (by omega) (by omega) (by omega))]
      exact hin.stack i w hw
  case sp =>
    rw [hin.sp, List.length_append, List.length_singleton, BitVec.ofNat_add]
    bv_omega
  case tsr0 => exact hin.tsr0
  case tsr1 => exact hin.tsr1

/-- What a POP takes -/
theorem Inner.top {v : U16} (hin : Inner s L f₀ (pushed ++ [v]) h ram sp tsr0 tsr1) :
    ram (stackWord s sp 0) = v := by
  rw [hin.sp, stackWord_sub, Nat.zero_add, List.length_append, List.length_singleton]
  exact hin.stack _ v List.getElem?_concat_length

theorem Inner.pop {v : U16} (hin : Inner s L f₀ (pushed ++ [v]) h ram sp tsr0 tsr1) :
    Inner s L f₀ pushed h ram (sp + 1) tsr0 tsr1 := by
  refine ⟨hin.view, hin.others, fun i w hw => hin.stack i w ?_, ?_, hin.tsr0, hin.tsr1⟩
  · rw [List.getElem?_append_left (List.getElem?_eq_some_iff.mp hw).1]
    exact hw
  · rw [hin.sp, List.length_append, List.length_singleton, BitVec.ofNat_add]
    bv_omega

/-- A word of the region or a variable is written. -/
theorem Inner.write {h' : Heap} {p : BitVec 18} {v : U16}
    (hin : Inner s L f₀ pushed h ram sp tsr0 tsr1) (hp : Placed s L f₀.sp)
    (hlength : pushed.length ≤ 3) (howns : L.Owns s p)
    (hview : View s L (Function.update ram p v) h') :
    Inner s L f₀ pushed h' (Function.update ram p v) sp tsr0 tsr1 := by
  refine ⟨hview, fun q hq hstack => ?_, fun i w hw => ?_, hin.sp, hin.tsr0, hin.tsr1⟩
  · have hne : q ≠ p := fun heq => hq (heq.symm ▸ howns)
    rw [Function.update_of_ne hne]
    exact hin.others q hq hstack
  · have hi := (List.getElem?_eq_some_iff.mp hw).1
    rw [Function.update_of_ne (hp.stack _ howns _ (by omega))]
    exact hin.stack i w hw

/-- The return address is below everything that a call pushes. -/
theorem Inner.back (hin : Inner s L f₀ [] h ram sp tsr0 tsr1) (hp : Placed s L f₀.sp) :
    ram (stackWord s sp 0) = f₀.ram (stackWord s f₀.sp 0) := by
  have hsp : sp = f₀.sp := hin.sp.trans (BitVec.sub_zero _)
  rw [hsp]
  exact hin.others _ (fun howns => hp.stack _ howns 0 (by omega) rfl) fun i hi =>
    stackWord_ne _ (by omega) (by omega) (by omega)

variable {io : Io σ} {c : Code} {f : Frame} {n : Nat} {w v : U16} {ic : U16} {Q : Frame → Prop}

/-- ST into the region, with what is known of the memory behind it -/
theorem reaches_store (i : Reg) (d : U16) {x : Mn1613Heap.Word} (hp : Placed s L f₀.sp)
    (hin : Inner s L f₀ pushed h f.ram f.sp f.tsr0 f.tsr1) (hlength : pushed.length ≤ 3)
    (hr : Ready s c f.ram) (hw : c.words[n]? = some w)
    (hx : execute io w = (ea 4 d >>= fun ea => gr i.rrr >>= wrC ea)) (hd : d &&& 0xff = d)
    (hplace : f.r3 + d = x) (hinside : L.Inside x)
    (next : ∀ ram, Inner s L f₀ pushed (h.store x (f.get i)) ram f.sp f.tsr0 f.tsr1 →
      Reaches io s (c.addr (n + 1)) { f with ram := ram } ic Q) :
    Reaches io s (c.addr n) f ic Q :=
  .step (leads_storeField i d hr hw hx hd hplace) (next _ (hin.write hp hlength
    (.inl ⟨x, hinside, rfl⟩) (hin.view.store hp hinside _)))

theorem reaches_push (i : Reg) (hp : Placed s L f₀.sp)
    (hin : Inner s L f₀ pushed h f.ram f.sp f.tsr0 f.tsr1) (hlength : pushed.length < 3)
    (hr : Ready s c f.ram) (hw : c.words[n]? = some w)
    (hx : execute io w = (gr i.rrr >>= EmuRs.Mn1613.push))
    (next : ∀ ram, Inner s L f₀ (pushed ++ [f.get i]) h ram (f.sp - 1) f.tsr0 f.tsr1 →
      Reaches io s (c.addr (n + 1)) { f with sp := f.sp - 1, ram := ram } ic Q) :
    Reaches io s (c.addr n) f ic Q :=
  .step (leads_push i hr hw hx) (next _ (hin.push hp hlength _))

/-- What a call leaves behind -/
structure Returned (s : Core σ) (L : Layout) (f₀ : Frame) (r : U16) (h : Heap) (f : Frame) :
    Prop where
  r0 : f.r0 = r
  r3 : f.r3 = f₀.r3
  r4 : f.r4 = f₀.r4
  sp : f.sp = f₀.sp + 1
  tsr0 : f.tsr0 = f₀.tsr0
  tsr1 : f.tsr1 = f₀.tsr1
  view : View s L f.ram h
  others : ∀ p, ¬ L.Owns s p → (∀ i < 3, p ≠ stackWord s f₀.sp (i + 1)) → f.ram p = f₀.ram p

/-- `R4` and `R3` are popped, and the call returns. -/
theorem reaches_return (hp : Placed s L f₀.sp) (hr : Ready s c f.ram)
    (hin : Inner s L f₀ ([f₀.r3] ++ [f₀.r4]) h f.ram f.sp f.tsr0 f.tsr1)
    (hR4 : c.words[n]? = some 0x2402) (hR3 : c.words[n + 1]? = some 0x2302)
    (hret : c.words[n + 1 + 1]? = some 0x2003) :
    Reaches io s (c.addr n) f (f₀.ram (stackWord s f₀.sp 0)) (Returned s L f₀ f.r0 h) := by
  have hin' : Inner s L f₀ ([] ++ [f₀.r3]) h f.ram (f.sp + 1) f.tsr0 f.tsr1 := hin.pop
  refine .step (leads_popValue .R4 hr hR4 rfl hin.top) ?_
  refine .step (leads_popValue .R3 hr hR3 rfl hin'.top) ?_
  rw [← hin'.pop.back hp]
  refine .step (leads_ret hr hret rfl) (.done ?_)
  have hsp : f.sp + 1 + 1 = f₀.sp := hin'.pop.sp.trans (BitVec.sub_zero _)
  exact ⟨rfl, rfl, rfl, congrArg (· + 1) hsp, hin.tsr0, hin.tsr1, hin.view, hin.others⟩

end Memory

section Blocks

variable {L : Layout} {h : Heap} {R2 R4 : Mn1613Heap.Word} {b : Block} {bs : List Block}

/-- From an address on, the region is a row of blocks. -/
structure Row (L : Layout) (h : Heap) (R2 : Mn1613Heap.Word) (blocks : List Block) : Prop where
  laid : Laid h.mem R2.toNat blocks
  ok : ∀ b ∈ blocks, b.Ok 2
  stop : L.stop = R2.toNat + span blocks
  base : L.base.toNat ≤ R2.toNat

/-- What the loops find at a block -/
structure Header (L : Layout) (h : Heap) (R2 R4 : Mn1613Heap.Word) (b : Block) : Prop where
  before : ¬ R4 ≤ R2
  header : GL_HEAP_HDR ≤ h.mem R2
  noCarry : BitVec.uaddOverflow R2 (h.mem R2) = false
  inside : R2 + h.mem R2 ≤ R4
  size : (h.mem R2).toNat = b.size
  next : (R2 + h.mem R2).toNat = R2.toNat + b.size
  here : L.Inside R2
  mark : (R2 + 1).toNat = R2.toNat + 1 ∧ L.Inside (R2 + 1)
  flag : h.mem (R2 + 1) = if b.user = none then 0 else GL_HEAP_USED

theorem Row.header (hrow : Row L h R2 (b :: bs)) (hend : L.stop < 65536)
    (hR4 : R4.toNat = L.stop) : Header L h R2 R4 b := by
  have hsize : h.mem R2 = word b.size := by
    have hlaid := hrow.laid.1
    rwa [word_toNat] at hlaid
  have hroom := (hrow.ok b List.mem_cons_self).room
  have hstop := hrow.stop
  have hbase := hrow.base
  rw [span] at hstop
  have hnat : (h.mem R2).toNat = b.size := by rw [hsize, toNat_word (by omega)]
  have hnext : (R2 + h.mem R2).toNat = R2.toNat + b.size := by
    rw [BitVec.toNat_add, hnat, Nat.mod_eq_of_lt (by omega)]
  have hmark : (R2 + 1).toNat = R2.toNat + 1 := by
    rw [BitVec.toNat_add, show (1 : Mn1613Heap.Word).toNat = 1 from rfl,
      Nat.mod_eq_of_lt (by omega)]
  constructor
  case before =>
    rw [BitVec.le_def, hR4]
    omega
  case header =>
    rw [BitVec.le_def, hnat]
    exact hroom
  case noCarry =>
    rw [BitVec.uaddOverflow, hnat]
    exact decide_eq_false (by omega)
  case inside =>
    rw [BitVec.le_def, hnext, hR4]
    omega
  case size => exact hnat
  case next => exact hnext
  case here => exact ⟨hbase, by omega⟩
  case mark => exact ⟨hmark, by rw [Layout.Inside, hmark]; omega⟩
  case flag =>
    have hflag := hrow.laid.2.1
    rwa [← hmark, word_toNat] at hflag

theorem Row.next (hrow : Row L h R2 (b :: bs)) (hend : L.stop < 65536) :
    Row L h (R2 + h.mem R2) bs := by
  have hnext : (R2 + h.mem R2).toNat = R2.toNat + b.size :=
    (hrow.header hend (toNat_word hend)).next
  have hstop := hrow.stop
  have hbase := hrow.base
  rw [span] at hstop
  refine ⟨?_, fun c hc => hrow.ok c (List.mem_cons_of_mem _ hc), ?_, ?_⟩
  · rw [hnext]
    exact hrow.laid.2.2
  · rw [hnext]
    omega
  · omega

/-- What is left of a block behind a part is a block of the region. -/
theorem Header.rest {R1 : Mn1613Heap.Word} (hb : Header L h R2 R4 b) (hR4 : R4.toNat = L.stop)
    (hR1 : R1 ≤ h.mem R2) (hleft : GL_HEAP_HDR ≤ h.mem R2 - R1) :
    L.Inside (R2 + R1) ∧ L.Inside (R2 + R1 + 1) := by
  have hinside := hb.inside
  rw [BitVec.le_def, hb.next, hR4] at hinside
  have hbase := hb.here.1
  rw [BitVec.le_def, hb.size] at hR1
  rw [BitVec.le_def, BitVec.toNat_sub_of_le (BitVec.le_def.mpr (hb.size ▸ hR1)), hb.size,
    show GL_HEAP_HDR.toNat = 2 from rfl] at hleft
  have hX0 : (R2 + R1).toNat = R2.toNat + R1.toNat := by
    rw [BitVec.toNat_add, Nat.mod_eq_of_lt (by omega)]
  have hmark : (R2 + R1 + 1).toNat = R2.toNat + R1.toNat + 1 := by
    rw [BitVec.toNat_add, hX0, show (1 : Mn1613Heap.Word).toNat = 1 from rfl,
      Nat.mod_eq_of_lt (by omega)]
  rw [Layout.Inside, Layout.Inside, hX0, hmark]
  omega

/-- Two free blocks are joined. -/
theorem Row.joined {c : Block} {cs : List Block} (hrow : Row L h R2 (b :: c :: cs))
    (hend : L.stop < 65536) (hfree : h.mem (R2 + 1) = 0) :
    Row L (h.store R2 (h.mem R2 + h.mem (R2 + h.mem R2))) R2 (⟨b.size + c.size, none⟩ :: cs) := by
  have hb : Header L h R2 (word L.stop) b := hrow.header hend (toNat_word hend)
  have hc : Header L h (R2 + h.mem R2) (word L.stop) c :=
    (hrow.next hend).header hend (toNat_word hend)
  have hnone : b.user = none := by
    refine Decidable.not_not.mp fun hne => ?_
    exact (flag_ne_zero hb.flag).mpr hne hfree
  have hsum : h.mem R2 + h.mem (R2 + h.mem R2) = word (b.size + c.size) := by
    rw [← word_add, ← hb.size, ← hc.size, word_toNat, word_toNat]
  have hstop := hrow.stop
  have hroom := (hrow.ok b List.mem_cons_self).room
  have hlaid := laid_joined hrow.laid hrow.ok (hstop ▸ hend) hnone
  rw [word_toNat, ← hsum] at hlaid
  rw [span, span] at hstop
  refine ⟨hlaid, fun d hd => ?_, ?_, hrow.base⟩
  · rcases List.mem_cons.mp hd with rfl | hd
    · exact ⟨hroom.trans (Nat.le_add_right _ _), fun n hn => absurd hn (Option.not_mem_none n)⟩
    · exact hrow.ok d (List.mem_cons_of_mem _ (List.mem_cons_of_mem _ hd))
  · rw [span, hstop, Nat.add_assoc]

theorem Row.end_ (hrow : Row L h R2 []) (hR4 : R4.toNat = L.stop) : R4 ≤ R2 := by
  rw [BitVec.le_def, hR4, hrow.stop]
  exact Nat.le_refl _

/-- A block that has been found is freed, and the other parts in use stay, away from its mark. -/
theorem Row.cleared {blocks : List Block} {fuel : Nat} {target hit : Mn1613Heap.Word}
    (hrow : Row L h R2 blocks) (hend : L.stop < 65536) (hR4 : R4.toNat = L.stop)
    (hroom : R2.toNat < L.stop) (hfind : l_f_lp target R4 fuel R2 h = some (some hit))
    (hused : h.mem (hit + 1) = GL_HEAP_USED) :
    hit = target ∧ ∃ b bs, Row L (h.store (hit + 1) 0) R2 (b :: bs) ∧
      ∀ e ∈ owned 2 R2.toNat blocks, e.1 ≠ hit.toNat + 2 → e ∈ owned 2 R2.toNat (b :: bs) ∧
        (e.1 + e.2 ≤ hit.toNat ∨ hit.toNat + 2 ≤ e.1) := by
  obtain ⟨hit', hrun, hfound⟩ := l_f_lp_spec target.toNat hrow.laid hrow.ok hrow.stop hend
    target.isLt (Nat.lt_succ_self blocks.length)
  rw [word_toNat, word_toNat, ← hR4, word_toNat] at hrun
  have hsame : some hit = hit' := by
    have h₁ := l_f_lp_mono (le_max_left fuel (blocks.length + 1)) hfind
    rw [l_f_lp_mono (le_max_right fuel (blocks.length + 1)) hrun] at h₁
    exact (Option.some.inj h₁).symm
  subst hsame
  rcases hfound with ⟨-, hnot⟩ | ⟨blocks', hsome, heq, -, hlaid, -⟩
  · rcases hnot with hnone | ⟨heq, hunused⟩
    · cases hnone
    · cases heq
      rw [word_succ] at hused
      exact absurd hused hunused
  · rw [word_toNat] at heq
    obtain rfl : hit = target := Option.some.inj heq
    obtain ⟨hspan, hok, before, n, behind, hold, hnew⟩ := deallocate_spec hrow.ok hsome
    have hstop := hrow.stop
    rw [← word_succ, word_toNat] at hlaid
    have hpair := owned_pairwise hrow.ok R2.toNat
    rw [hold, List.pairwise_append, List.pairwise_cons] at hpair
    have hkeep (e : Nat × Nat) (he : e ∈ owned 2 R2.toNat blocks) (hne : e.1 ≠ hit.toNat + 2) :
        e ∈ owned 2 R2.toNat blocks' ∧ (e.1 + e.2 ≤ hit.toNat ∨ hit.toNat + 2 ≤ e.1) := by
      rw [hold, List.mem_append, List.mem_cons] at he
      rw [hnew, List.mem_append]
      rcases he with he | rfl | he
      · have hbefore := hpair.2.2 e he _ List.mem_cons_self
        exact ⟨.inl he, .inl (by dsimp only at hbefore; omega)⟩
      · exact absurd rfl hne
      · have hbehind := hpair.2.1.1 e he
        exact ⟨.inr he, .inr (by dsimp only at hbehind; omega)⟩
    refine ⟨rfl, ?_⟩
    cases blocks' with
    | nil =>
        have hnil : span blocks = 0 := hspan.symm
        omega
    | cons b bs => exact ⟨b, bs, ⟨hlaid, hok, hspan ▸ hstop, hrow.base⟩, hkeep⟩

end Blocks

section Init

variable {σ : Type} {io : Io σ} {s : Core σ} {L : Layout} {f₀ : Frame} {h : Heap}

theorem init_mem : L.initCode ∈ L.codes := List.mem_cons_self

variable {f : Frame} {pushed : List U16} (hp : Placed s L f₀.sp) (hr₀ : Ready s L.initCode f₀.ram)

include hp hr₀

/-- The variables -/
theorem init_vars (hlength : pushed.length ≤ 3)
    (hin : Inner s L f₀ pushed h f.ram f.sp f.tsr0 f.tsr1) :
    Reaches io s (L.initCode.addr 1) f (L.initCode.addr 3) (fun g => ∃ ram,
      g = { f with ram := ram } ∧ Inner s L f₀ pushed
        { h with GL_ALLOC_ADR := f.r0, GL_ALLOC_SIZE := f.r1 } ram f.sp f.tsr0 f.tsr1) := by
  have hr := hin.ready hp init_mem hr₀
  have hin' := hin.write hp hlength (.inr (.inl rfl)) (hin.view.storeAdr hp f.r0)
  have hr' := hin'.ready hp init_mem hr₀
  refine .step (leads_storeVar .R0 0x8000 L.adr hr rfl rfl rfl rfl) ?_
  refine .step (leads_storeVar .R1 0x8100 L.size hr' rfl rfl rfl rfl) (.done ⟨_, rfl, ?_⟩)
  exact hin'.write hp hlength (.inr (.inr rfl)) (hin'.view.storeSize hp f.r1)

/-- The first block, and the return -/
theorem init_block (hin : Inner s L f₀ ([] ++ [f₀.r3]) h f.ram f.sp f.tsr0 f.tsr1)
    (hR0 : f.r0 = L.base) (hR1 : f.r1 = L.words) (hR4 : f.r4 = f₀.r4)
    (hsize : h.GL_ALLOC_SIZE = L.words) :
    Reaches io s (L.initCode.addr 3) f (f₀.ram (stackWord s f₀.sp 0))
      (Returned s L f₀ f.r0 ((h.store L.base L.words).store (L.base + 1) 0)) := by
  have hroom := hp.room
  have hend := hp.stop
  have hstop : L.stop = L.base.toNat + L.words.toNat := rfl
  have hbase : L.Inside L.base := ⟨Nat.le_refl _, by omega⟩
  have hmark : (L.base + 1).toNat = L.base.toNat + 1 := by
    rw [BitVec.toNat_add, show (1 : Mn1613Heap.Word).toNat = 1 from rfl,
      Nat.mod_eq_of_lt (by omega)]
  have hinside : L.Inside (L.base + 1) := by
    rw [Layout.Inside, hmark]
    omega
  have hlength : ([] ++ [f₀.r3]).length ≤ 3 := Nat.le_of_ble_eq_true rfl
  have hheader : GL_HEAP_HDR ≤ f.r1 := hR1 ▸ BitVec.le_def.mpr hroom
  have hplace : f.r0 + 0 = L.base := (BitVec.add_zero _).trans hR0
  have hr := hin.ready hp init_mem hr₀
  refine .step (leads_cmpImm .R1 0xe hr rfl rfl rfl rfl fun str =>
    (holds_LPZ_sub _ _ _ str).trans (decide_eq_true hheader)) ?_
  refine .step (leads_unary .R3 .R0 0 id hr rfl rfl rfl fun _ => rfl) ?_
  refine reaches_store .R1 0 hp hin hlength hr rfl rfl rfl hplace hbase fun ram hin => ?_
  have hr := hin.ready hp init_mem hr₀
  refine .step (leads_logic .R1 .R1 0 (· ^^^ ·) hr rfl rfl rfl fun _ => rfl) ?_
  refine reaches_store .R1 1 hp hin hlength hr rfl rfl rfl (congrArg (· + 1) hR0) hinside
    fun ram hin => ?_
  have hr := hin.ready hp init_mem hr₀
  refine .step (leads_loadVar .R1 0xc100 L.size hr rfl rfl rfl rfl
    (hin.view.size.trans hsize)) ?_
  refine .step (leads_popValue .R3 hr rfl rfl hin.top) ?_
  rw [← hin.pop.back hp]
  refine .step (leads_ret hr rfl rfl) (.done ?_)
  have hzero : f.r1 ^^^ f.r1 = 0 := BitVec.xor_self
  have hsp : f.sp + 1 = f₀.sp := hin.pop.sp.trans (BitVec.sub_zero _)
  have hview : View s L ram ((h.store L.base L.words).store (L.base + 1) 0) := by
    rw [← hzero, ← hR1]
    exact hin.view
  exact ⟨rfl, rfl, hR4, congrArg (· + 1) hsp, hin.tsr0, hin.tsr1, hview, hin.others⟩

/-- `g_malloc_init` does what the routine does to a heap. -/
theorem init_runs (hv : View s L f₀.ram h) (hR0 : f₀.r0 = L.base) (hR1 : f₀.r1 = L.words) :
    Reaches io s (L.initCode.addr 0) f₀ (f₀.ram (stackWord s f₀.sp 0))
      (Returned s L f₀ f₀.r0 (g_malloc_init L.base L.words h)) := by
  have hlength : ([] ++ [f₀.r3]).length ≤ 3 := Nat.le_of_ble_eq_true rfl
  have hinit : g_malloc_init L.base L.words h =
      (({ h with GL_ALLOC_ADR := L.base, GL_ALLOC_SIZE := L.words } : Heap).store L.base
        L.words).store (L.base + 1) 0 :=
    if_pos (show GL_HEAP_HDR ≤ L.words from BitVec.le_def.mpr hp.room)
  rw [hinit]
  refine reaches_push .R3 hp (.enter hv) (Nat.succ_pos 2) hr₀ rfl rfl fun ram hin => ?_
  refine .trans (init_vars hp hr₀ hlength hin) fun g hg => ?_
  obtain ⟨ram, rfl, hin⟩ := hg
  have hvars : Inner s L f₀ ([] ++ [f₀.r3])
      { h with GL_ALLOC_ADR := L.base, GL_ALLOC_SIZE := L.words } ram (f₀.sp - 1) f₀.tsr0
        f₀.tsr1 := by
    rw [← hR0, ← hR1]
    exact hin
  exact init_block hp hr₀ hvars hR0 hR1 rfl rfl

end Init

section Malloc

variable {σ : Type} {io : Io σ} {s : Core σ} {L : Layout} {f₀ f : Frame} {h h' : Heap}
  {pushed : List U16} {r : Mn1613Heap.Word} {b : Block} {bs : List Block}

/-- An answer in `R0`, still inside the call -/
def Result (s : Core σ) (L : Layout) (f₀ : Frame) (pushed : List U16)
    (r : Mn1613Heap.Word) (h : Heap)
    (f : Frame) : Prop :=
  f.r0 = r ∧ Inner s L f₀ pushed h f.ram f.sp f.tsr0 f.tsr1

theorem malloc_fail (hr : Ready s L.mallocCode f.ram)
    (hin : Inner s L f₀ pushed h f.ram f.sp f.tsr0 f.tsr1) :
    Reaches io s (L.mallocCode.addr 60) f (L.mallocCode.addr 61) (Result s L f₀ pushed 0 h) :=
  .step (leads_logic .R0 .R0 0 (· ^^^ ·) hr rfl rfl rfl fun _ => rfl)
    (.done ⟨BitVec.xor_self, hin⟩)

/-- `l_m_lp` and `l_m_body` up to the mark of the block -/
theorem malloc_header (hr : Ready s L.mallocCode f.ram) (hv : View s L f.ram h)
    (hb : Header L h f.r2 f.r4 b) :
    Leads io s (L.mallocCode.addr 14) f (L.mallocCode.addr 29)
      { f with r0 := h.mem f.r2, r3 := h.mem (f.r2 + 1) } := by
  refine .trans (leads_cmp .R2 .R4 0xe hr rfl rfl rfl fun str =>
    (holds_LPZ_sub _ _ _ str).trans (decide_eq_false hb.before)) ?_
  refine .trans (leads_b 2 hr rfl rfl rfl) ?_
  refine .trans (leads_unary .R3 .R2 0 id hr rfl rfl rfl fun _ => rfl) ?_
  refine .trans (leads_loadField .R0 0 hr rfl rfl rfl (BitVec.add_zero _)
    (hv.mem _ hb.here)) ?_
  refine .trans (leads_cmpImm .R0 0xe hr rfl rfl rfl rfl fun str =>
    (holds_LPZ_sub _ _ _ str).trans (decide_eq_true hb.header)) ?_
  refine .trans (leads_unary .R3 .R2 0 id hr rfl rfl rfl fun _ => rfl) ?_
  refine .trans (leads_add .R3 .R0 8 hr rfl rfl rfl fun str =>
    (holds_EZ_add _ _ _ str).trans (congrArg not hb.noCarry)) ?_
  refine .trans (leads_cmp .R4 .R3 0xe hr rfl rfl rfl fun str =>
    (holds_LPZ_sub _ _ _ str).trans (decide_eq_true hb.inside)) ?_
  refine .trans (leads_unary .R3 .R2 0 id hr rfl rfl rfl fun _ => rfl) ?_
  exact leads_loadField .R3 1 hr rfl rfl rfl rfl (hv.mem _ hb.mark.2)

/-- `l_m_next` -/
theorem malloc_next (hr : Ready s L.mallocCode f.ram) (hv : View s L f.ram h)
    (hb : Header L h f.r2 f.r4 b) :
    Leads io s (L.mallocCode.addr 56) f (L.mallocCode.addr 14)
      { f with r0 := h.mem f.r2, r2 := f.r2 + h.mem f.r2, r3 := f.r2 } := by
  refine .trans (leads_unary .R3 .R2 0 id hr rfl rfl rfl fun _ => rfl) ?_
  refine .trans (leads_loadField .R0 0 hr rfl rfl rfl (BitVec.add_zero _)
    (hv.mem _ hb.here)) ?_
  refine .trans (leads_add .R2 .R0 0 hr rfl rfl rfl fun _ => rfl) ?_
  exact leads_b 0xd3 hr rfl rfl rfl

/-- `l_m_user` -/
theorem malloc_user (hr : Ready s L.mallocCode f.ram)
    (hin : Inner s L f₀ pushed h f.ram f.sp f.tsr0 f.tsr1) :
    Reaches io s (L.mallocCode.addr 53) f (L.mallocCode.addr 61)
      (Result s L f₀ pushed (f.r2 + GL_HEAP_HDR) h) := by
  refine .step (leads_unary .R0 .R2 0 id hr rfl rfl rfl fun _ => rfl) ?_
  refine .step (leads_unary .R0 .R0 0 (· + 2) hr rfl rfl rfl fun _ => rfl) ?_
  exact .step (leads_b 6 hr rfl rfl rfl) (.done ⟨rfl, hin⟩)

variable (hp : Placed s L f₀.sp) (hr₀ : Ready s L.mallocCode f₀.ram)

theorem malloc_mem : L.mallocCode ∈ L.codes := List.mem_cons_of_mem _ List.mem_cons_self

include hp hr₀

/-- `l_m_take` -/
theorem malloc_take (hin : Inner s L f₀ pushed h f.ram f.sp f.tsr0 f.tsr1)
    (hlength : pushed.length ≤ 3) (hb : Header L h f.r2 f.r4 b) :
    Reaches io s (L.mallocCode.addr 49) f (L.mallocCode.addr 61)
      (Result s L f₀ pushed (f.r2 + GL_HEAP_HDR) (h.store (f.r2 + 1) GL_HEAP_USED)) := by
  have hr := hin.ready hp malloc_mem hr₀
  refine .step (leads_unary .R3 .R2 0 id hr rfl rfl rfl fun _ => rfl) ?_
  refine .step (leads_mvwi .R0 hr rfl rfl rfl) ?_
  refine reaches_store .R0 1 hp hin hlength hr rfl rfl rfl rfl hb.mark.2 fun ram hin => ?_
  exact malloc_user (hin.ready hp malloc_mem hr₀) hin

/-- What is left over becomes a free block. -/
theorem malloc_rest {v : U16} (hin : Inner s L f₀ (pushed ++ [v]) h f.ram f.sp f.tsr0 f.tsr1)
    (hlength : pushed.length < 3) (hrest : L.Inside f.r3 ∧ L.Inside (f.r3 + 1)) :
    Reaches io s (L.mallocCode.addr 44) f (L.mallocCode.addr 61)
      (Result s L f₀ pushed (f.r2 + GL_HEAP_HDR) ((h.store f.r3 v).store (f.r3 + 1) 0)) := by
  have hzero : v ^^^ v = 0 := BitVec.xor_self
  have hr := hin.ready hp malloc_mem hr₀
  refine .step (leads_popValue .R0 hr rfl rfl hin.top) ?_
  refine reaches_store .R0 0 hp hin.pop (Nat.le_of_lt hlength) hr rfl rfl rfl (BitVec.add_zero _)
    hrest.1 fun ram hin => ?_
  have hr := hin.ready hp malloc_mem hr₀
  refine .step (leads_logic .R0 .R0 0 (· ^^^ ·) hr rfl rfl rfl fun _ => rfl) ?_
  refine reaches_store .R0 1 hp hin (Nat.le_of_lt hlength) hr rfl rfl rfl rfl hrest.2
    fun ram hin => ?_
  have hr := hin.ready hp malloc_mem hr₀
  refine .step (leads_b 5 hr rfl rfl rfl) ?_
  rw [← hzero]
  exact malloc_user hr hin

/-- The block is cut. -/
theorem malloc_split (hin : Inner s L f₀ pushed h f.ram f.sp f.tsr0 f.tsr1)
    (hlength : pushed.length < 3) (hb : Header L h f.r2 f.r4 b)
    (hrest : L.Inside (f.r2 + f.r1) ∧ L.Inside (f.r2 + f.r1 + 1)) :
    Reaches io s (L.mallocCode.addr 37) f (L.mallocCode.addr 61)
      (Result s L f₀ pushed (f.r2 + GL_HEAP_HDR) ((((h.store f.r2 f.r1).store (f.r2 + 1)
        GL_HEAP_USED).store (f.r2 + f.r1) f.r0).store (f.r2 + f.r1 + 1) 0)) := by
  have hlength' : (pushed ++ [f.r0]).length ≤ 3 := by
    rw [List.length_append, List.length_singleton]
    omega
  have hr := hin.ready hp malloc_mem hr₀
  refine reaches_push .R0 hp hin hlength hr rfl rfl fun ram hin => ?_
  have hr := hin.ready hp malloc_mem hr₀
  refine .step (leads_unary .R3 .R2 0 id hr rfl rfl rfl fun _ => rfl) ?_
  refine reaches_store .R1 0 hp hin hlength' hr rfl rfl rfl (BitVec.add_zero _) hb.here
    fun ram hin => ?_
  have hr := hin.ready hp malloc_mem hr₀
  refine .step (leads_mvwi .R0 hr rfl rfl rfl) ?_
  refine reaches_store .R0 1 hp hin hlength' hr rfl rfl rfl rfl hb.mark.2 fun ram hin => ?_
  have hr := hin.ready hp malloc_mem hr₀
  refine .step (leads_add .R3 .R1 0 hr rfl rfl rfl fun _ => rfl) ?_
  exact malloc_rest hp hr₀ hin hlength hrest

/-- The scan for a block -/
theorem malloc_scan {blocks : List Block} {fuel : Nat} (hlength : pushed.length < 3)
    (hin : Inner s L f₀ pushed h f.ram f.sp f.tsr0 f.tsr1) (hR4 : f.r4.toNat = L.stop)
    (hrow : Row L h f.r2 blocks) (hrun : l_m_lp f.r1 f.r4 fuel f.r2 h = some (r, h')) :
    Reaches io s (L.mallocCode.addr 14) f (L.mallocCode.addr 61) (Result s L f₀ pushed r h') := by
  induction blocks generalizing f fuel with
  | nil =>
      have hr := hin.ready hp malloc_mem hr₀
      have hend : f.r4 ≤ f.r2 := hrow.end_ hR4
      cases fuel with
      | zero => cases hrun
      | succ fuel =>
          rw [l_m_lp, if_pos hend] at hrun
          cases hrun
          refine .step (leads_cmp .R2 .R4 0xe hr rfl rfl rfl fun str =>
            (holds_LPZ_sub _ _ _ str).trans (decide_eq_true hend)) ?_
          exact .step (leads_b 0x2c hr rfl rfl rfl) (malloc_fail hr hin)
  | cons b bs ih =>
      have hr := hin.ready hp malloc_mem hr₀
      have hb : Header L h f.r2 f.r4 b := hrow.header hp.stop hR4
      cases fuel with
      | zero => cases hrun
      | succ fuel =>
          rw [l_m_lp, if_neg hb.before] at hrun
          dsimp only at hrun
          rw [if_neg (BitVec.not_lt.mpr hb.header), hb.noCarry, if_neg Bool.false_ne_true,
            if_neg (BitVec.not_lt.mpr hb.inside)] at hrun
          refine .step (malloc_header hr hin.view hb) ?_
          by_cases hused : h.mem (f.r2 + 1) ≠ 0
          · rw [if_pos hused] at hrun
            refine .step (leads_unary .R3 .R3 4 id hr rfl rfl rfl fun str =>
              (holds_Z _ _).trans (decide_eq_false hused)) ?_
            refine .step (leads_b 0x1a hr rfl rfl rfl) ?_
            refine .step (malloc_next hr hin.view hb) ?_
            exact ih hin hR4 (hrow.next hp.stop) hrun
          · rw [if_neg hused] at hrun
            refine .step (leads_unary .R3 .R3 4 id hr rfl rfl rfl fun str =>
              (holds_Z _ _).trans (decide_eq_true (not_not.mp hused))) ?_
            by_cases hsmall : h.mem f.r2 < f.r1
            · rw [if_pos hsmall] at hrun
              refine .step (leads_cmp .R0 .R1 0xe hr rfl rfl rfl fun str =>
                (holds_LPZ_sub _ _ _ str).trans (decide_eq_false (BitVec.not_le.mpr hsmall))) ?_
              refine .step (leads_b 0x18 hr rfl rfl rfl) ?_
              refine .step (malloc_next hr hin.view hb) ?_
              exact ih hin hR4 (hrow.next hp.stop) hrun
            · rw [if_neg hsmall] at hrun
              refine .step (leads_cmp .R0 .R1 0xe hr rfl rfl rfl fun str =>
                (holds_LPZ_sub _ _ _ str).trans (decide_eq_true (BitVec.not_lt.mp hsmall))) ?_
              refine .step (leads_sub .R0 .R1 0 hr rfl rfl rfl fun _ => rfl) ?_
              by_cases hleft : h.mem f.r2 - f.r1 ≥ GL_HEAP_HDR
              · rw [if_pos hleft] at hrun
                cases hrun
                refine .step (leads_cmpImm .R0 0xe hr rfl rfl rfl rfl fun str =>
                  (holds_LPZ_sub _ _ _ str).trans (decide_eq_true hleft)) ?_
                exact malloc_split hp hr₀ hin hlength hb
                  (hb.rest hR4 (BitVec.not_lt.mp hsmall) hleft)
              · rw [if_neg hleft] at hrun
                cases hrun
                refine .step (leads_cmpImm .R0 0xe hr rfl rfl rfl rfl fun str =>
                  (holds_LPZ_sub _ _ _ str).trans (decide_eq_false hleft)) ?_
                refine .step (leads_b 0xd hr rfl rfl rfl) ?_
                exact malloc_take hp hr₀ hin (Nat.le_of_lt hlength) hb

/-- `g_malloc_` between the pushes and the pops -/
theorem malloc_body {blocks : List Block} {fuel : Nat} (hlength : pushed.length < 3)
    (hin : Inner s L f₀ pushed h f.ram f.sp f.tsr0 f.tsr1) (hadr : h.GL_ALLOC_ADR = L.base)
    (hsize : h.GL_ALLOC_SIZE = L.words) (hrow : Row L h L.base blocks)
    (hrun : g_malloc_ fuel f.r0 h = some (r, h')) :
    Reaches io s (L.mallocCode.addr 2) f (L.mallocCode.addr 61) (Result s L f₀ pushed r h') := by
  have hR4 : (L.words + L.base).toNat = L.stop := by
    rw [BitVec.toNat_add, Nat.add_comm]
    exact Nat.mod_eq_of_lt hp.stop
  have hr := hin.ready hp malloc_mem hr₀
  refine .step (leads_unary .R1 .R0 0 id hr rfl rfl rfl fun _ => rfl) ?_
  rw [g_malloc_] at hrun
  by_cases hzero : f.r0 = 0
  · rw [if_pos hzero] at hrun
    cases hrun
    refine .step (leads_unary .R1 .R1 5 id hr rfl rfl rfl fun str =>
      (holds_NZ _ _).trans (decide_eq_false (not_not.mpr hzero))) ?_
    exact .step (leads_b 0x38 hr rfl rfl rfl) (malloc_fail hr hin)
  · rw [if_neg hzero] at hrun
    dsimp only at hrun
    refine .step (leads_unary .R1 .R1 5 id hr rfl rfl rfl fun str =>
      (holds_NZ _ _).trans (decide_eq_true hzero)) ?_
    refine .step (leads_unary .R1 .R1 0 (· + 2) hr rfl rfl rfl fun _ => rfl) ?_
    by_cases hover : f.r0 + GL_HEAP_HDR ≤ f.r0
    · rw [if_pos hover] at hrun
      cases hrun
      refine .step (leads_cmp .R1 .R0 0xd hr rfl rfl rfl fun str =>
        (holds_LP_sub _ _ str).trans (decide_eq_false (BitVec.not_lt.mpr hover))) ?_
      exact .step (leads_b 0x35 hr rfl rfl rfl) (malloc_fail hr hin)
    · have hroom : ¬ h.GL_ALLOC_SIZE < GL_HEAP_HDR := by
        rw [hsize, BitVec.lt_def]
        exact Nat.not_lt.mpr hp.room
      rw [if_neg hover, if_neg hroom, hadr, hsize] at hrun
      refine .step (leads_cmp .R1 .R0 0xd hr rfl rfl rfl fun str =>
        (holds_LP_sub _ _ str).trans (decide_eq_true (BitVec.not_le.mp hover))) ?_
      refine .step (leads_loadVar .R2 0xc200 L.adr hr rfl rfl rfl rfl
        (hin.view.adr.trans hadr)) ?_
      refine .step (leads_loadVar .R4 0xc400 L.size hr rfl rfl rfl rfl
        (hin.view.size.trans hsize)) ?_
      refine .step (leads_cmpImm .R4 0xe hr rfl rfl rfl rfl fun str =>
        (holds_LPZ_sub _ _ _ str).trans (decide_eq_true (BitVec.le_def.mpr hp.room))) ?_
      refine .step (leads_add .R4 .R2 0 hr rfl rfl rfl fun _ => rfl) ?_
      exact malloc_scan hp hr₀ hlength hin hR4 hrow hrun

/-- `g_malloc_` does what the routine does to a heap. -/
theorem malloc_runs {blocks : List Block} {fuel : Nat} (hv : View s L f₀.ram h)
    (hadr : h.GL_ALLOC_ADR = L.base) (hsize : h.GL_ALLOC_SIZE = L.words)
    (hrow : Row L h L.base blocks) (hrun : g_malloc_ fuel f₀.r0 h = some (r, h')) :
    Reaches io s (L.mallocCode.addr 0) f₀ (f₀.ram (stackWord s f₀.sp 0))
      (Returned s L f₀ r h') := by
  have hlength : ([f₀.r3] ++ [f₀.r4]).length < 3 := Nat.lt_succ_self 2
  refine reaches_push .R3 hp (.enter hv) (Nat.succ_pos 2) hr₀ rfl rfl fun ram hin => ?_
  have hr := hin.ready hp malloc_mem hr₀
  refine reaches_push .R4 hp hin (Nat.lt_of_succ_lt hlength) hr rfl rfl fun ram hin => ?_
  refine .trans (malloc_body hp hr₀ hlength hin hadr hsize hrow hrun) fun g hg => ?_
  rw [← hg.1]
  exact reaches_return hp (hg.2.ready hp malloc_mem hr₀) hg.2 rfl rfl rfl

end Malloc

section Free

variable {σ : Type} {io : Io σ} {s : Core σ} {L : Layout} {f₀ f : Frame} {h h' : Heap}
  {pushed : List U16} {r v : Mn1613Heap.Word} {b : Block} {bs : List Block}

theorem sub_eq_zero_iff {a b : Mn1613Heap.Word} : a - b = 0 ↔ a = b := by bv_omega

theorem free_mem : L.freeCode ∈ L.codes :=
  List.mem_cons_of_mem _ (List.mem_cons_of_mem _ List.mem_cons_self)

/-- `l_f_lp` and `l_f_body`, past a block that is not the one -/
theorem free_past (hr : Ready s L.freeCode f.ram) (hv : View s L f.ram h)
    (hb : Header L h f.r2 f.r4 b) (hne : f.r2 ≠ f.r1) :
    Leads io s (L.freeCode.addr 13) f (L.freeCode.addr 13)
      { f with r0 := h.mem f.r2, r2 := f.r2 + h.mem f.r2, r3 := f.r2 } := by
  have hdiff : f.r2 - f.r1 ≠ 0 := fun hzero => hne (sub_eq_zero_iff.mp hzero)
  refine .trans (leads_cmp .R2 .R4 0xe hr rfl rfl rfl fun str =>
    (holds_LPZ_sub _ _ _ str).trans (decide_eq_false hb.before)) ?_
  refine .trans (leads_b 2 hr rfl rfl rfl) ?_
  refine .trans (leads_cmp .R2 .R1 5 hr rfl rfl rfl fun str =>
    (holds_NZ _ _).trans (decide_eq_true hdiff)) ?_
  refine .trans (leads_unary .R3 .R2 0 id hr rfl rfl rfl fun _ => rfl) ?_
  refine .trans (leads_loadField .R0 0 hr rfl rfl rfl (BitVec.add_zero _)
    (hv.mem _ hb.here)) ?_
  refine .trans (leads_cmpImm .R0 0xe hr rfl rfl rfl rfl fun str =>
    (holds_LPZ_sub _ _ _ str).trans (decide_eq_true hb.header)) ?_
  refine .trans (leads_add .R2 .R0 9 hr rfl rfl rfl fun str =>
    (holds_ENZ_add _ _ _ str).trans hb.noCarry) ?_
  refine .trans (leads_b 2 hr rfl rfl rfl) ?_
  refine .trans (leads_cmp .R4 .R2 0xe hr rfl rfl rfl fun str =>
    (holds_LPZ_sub _ _ _ str).trans (decide_eq_true hb.inside)) ?_
  exact leads_b 0xf1 hr rfl rfl rfl

/-- `l_c_lp` and `l_c_body` up to the test whether the block is the last -/
theorem free_block (hr : Ready s L.freeCode f.ram) (hv : View s L f.ram h)
    (hb : Header L h f.r2 f.r4 b) :
    Leads io s (L.freeCode.addr 39) f (L.freeCode.addr 53)
      { f with r0 := h.mem f.r2, r1 := h.mem (f.r2 + 1), r3 := f.r2 + h.mem f.r2 } := by
  refine .trans (leads_cmp .R2 .R4 0xe hr rfl rfl rfl fun str =>
    (holds_LPZ_sub _ _ _ str).trans (decide_eq_false hb.before)) ?_
  refine .trans (leads_b 2 hr rfl rfl rfl) ?_
  refine .trans (leads_unary .R3 .R2 0 id hr rfl rfl rfl fun _ => rfl) ?_
  refine .trans (leads_loadField .R0 0 hr rfl rfl rfl (BitVec.add_zero _)
    (hv.mem _ hb.here)) ?_
  refine .trans (leads_cmpImm .R0 0xe hr rfl rfl rfl rfl fun str =>
    (holds_LPZ_sub _ _ _ str).trans (decide_eq_true hb.header)) ?_
  refine .trans (leads_loadField .R1 1 hr rfl rfl rfl rfl (hv.mem _ hb.mark.2)) ?_
  refine .trans (leads_unary .R3 .R2 0 id hr rfl rfl rfl fun _ => rfl) ?_
  refine .trans (leads_add .R3 .R0 8 hr rfl rfl rfl fun str =>
    (holds_EZ_add _ _ _ str).trans (congrArg not hb.noCarry)) ?_
  refine .trans (leads_cmp .R4 .R3 0xe hr rfl rfl rfl fun str =>
    (holds_LPZ_sub _ _ _ str).trans (decide_eq_true hb.inside)) ?_
  exact .refl

/-- `l_c_adv` -/
theorem free_next (hr : Ready s L.freeCode f.ram) (hv : View s L f.ram h)
    (hb : Header L h f.r2 f.r4 b) :
    Leads io s (L.freeCode.addr 67) f (L.freeCode.addr 39)
      { f with r0 := h.mem f.r2, r2 := f.r2 + h.mem f.r2, r3 := f.r2 } := by
  refine .trans (leads_unary .R3 .R2 0 id hr rfl rfl rfl fun _ => rfl) ?_
  refine .trans (leads_loadField .R0 0 hr rfl rfl rfl (BitVec.add_zero _)
    (hv.mem _ hb.here)) ?_
  refine .trans (leads_add .R2 .R0 0 hr rfl rfl rfl fun _ => rfl) ?_
  exact leads_b 0xe1 hr rfl rfl rfl

/-- Where the search for a block ends -/
def Layout.found (L : Layout) : Option Mn1613Heap.Word → U16
  | none => L.freeCode.addr 73
  | some _ => L.freeCode.addr 29

/-- What the search knows at its end -/
def Searched (s : Core σ) (L : Layout) (f₀ : Frame) (pushed : List U16) (h : Heap)
    (hit : Option Mn1613Heap.Word) (f : Frame) : Prop :=
  Inner s L f₀ pushed h f.ram f.sp f.tsr0 f.tsr1 ∧ ∀ R2, hit = some R2 → f.r2 = R2 ∧
    L.Inside (R2 + 1)

variable (hp : Placed s L f₀.sp) (hr₀ : Ready s L.freeCode f₀.ram)

include hp hr₀

theorem free_search {blocks : List Block} {fuel : Nat} {hit : Option Mn1613Heap.Word}
    (hin : Inner s L f₀ pushed h f.ram f.sp f.tsr0 f.tsr1) (hR4 : f.r4.toNat = L.stop)
    (hrow : Row L h f.r2 blocks) (hrun : l_f_lp f.r1 f.r4 fuel f.r2 h = some hit) :
    Reaches io s (L.freeCode.addr 13) f (L.found hit) (Searched s L f₀ pushed h hit) := by
  induction blocks generalizing f fuel with
  | nil =>
      have hr := hin.ready hp free_mem hr₀
      have hend : f.r4 ≤ f.r2 := hrow.end_ hR4
      cases fuel with
      | zero => cases hrun
      | succ fuel =>
          rw [l_f_lp, if_pos hend] at hrun
          cases hrun
          refine .step (leads_cmp .R2 .R4 0xe hr rfl rfl rfl fun str =>
            (holds_LPZ_sub _ _ _ str).trans (decide_eq_true hend)) ?_
          refine .step (leads_b 0x3a hr rfl rfl rfl) (.done ⟨hin, fun R2 hR2 => ?_⟩)
          cases hR2
  | cons b bs ih =>
      have hr := hin.ready hp free_mem hr₀
      have hb : Header L h f.r2 f.r4 b := hrow.header hp.stop hR4
      cases fuel with
      | zero => cases hrun
      | succ fuel =>
          rw [l_f_lp, if_neg hb.before] at hrun
          by_cases hhere : f.r2 = f.r1
          · rw [if_pos hhere] at hrun
            cases hrun
            refine .step (leads_cmp .R2 .R4 0xe hr rfl rfl rfl fun str =>
              (holds_LPZ_sub _ _ _ str).trans (decide_eq_false hb.before)) ?_
            refine .step (leads_b 2 hr rfl rfl rfl) ?_
            refine .step (leads_cmp .R2 .R1 5 hr rfl rfl rfl fun str =>
              (holds_NZ _ _).trans (decide_eq_false (not_not.mpr
                (sub_eq_zero_iff.mpr hhere)))) ?_
            refine .step (leads_b 0xc hr rfl rfl rfl) (.done ⟨hin, fun R2 hR2 => ?_⟩)
            cases hR2
            exact ⟨rfl, hb.mark.2⟩
          · rw [if_neg hhere] at hrun
            dsimp only at hrun
            rw [if_neg (BitVec.not_lt.mpr hb.header), hb.noCarry, if_neg Bool.false_ne_true,
              if_neg (BitVec.not_lt.mpr hb.inside)] at hrun
            exact .step (free_past hr hin.view hb hhere) (ih hin hR4 (hrow.next hp.stop) hrun)

/-- From the last test of `l_c_body` to `l_c_lp`: the block behind is joined. -/
theorem free_merge {c : Block} {ic : U16} {Q : Frame → Prop}
    (hin : Inner s L f₀ pushed h f.ram f.sp f.tsr0 f.tsr1) (hlength : pushed.length ≤ 3)
    (hb : Header L h f.r2 f.r4 b) (hc : Header L h f.r3 f.r4 c)
    (next : ∀ r0 r1 ram, Inner s L f₀ pushed (h.store f.r2 (h.mem f.r2 + h.mem f.r3)) ram f.sp
      f.tsr0 f.tsr1 → Reaches io s (L.freeCode.addr 39)
        { f with r0 := r0, r1 := r1, r3 := f.r2, ram := ram } ic Q) :
    Reaches io s (L.freeCode.addr 61) f ic Q := by
  have hr := hin.ready hp free_mem hr₀
  refine .step (leads_loadField .R1 0 hr rfl rfl rfl (BitVec.add_zero _)
    (hin.view.mem _ hc.here)) ?_
  refine .step (leads_unary .R3 .R2 0 id hr rfl rfl rfl fun _ => rfl) ?_
  refine .step (leads_loadField .R0 0 hr rfl rfl rfl (BitVec.add_zero _)
    (hin.view.mem _ hb.here)) ?_
  refine .step (leads_add .R0 .R1 0 hr rfl rfl rfl fun _ => rfl) ?_
  refine reaches_store .R0 0 hp hin hlength hr rfl rfl rfl (BitVec.add_zero _) hb.here
    fun ram hin => ?_
  have hr := hin.ready hp free_mem hr₀
  exact .step (leads_b 0xe5 hr rfl rfl rfl) (next _ _ ram hin)

/-- The joining of free neighbours -/
theorem free_join {fuel : Nat} (hin : Inner s L f₀ pushed h f.ram f.sp f.tsr0 f.tsr1)
    (hlength : pushed.length ≤ 3) (hR4 : f.r4.toNat = L.stop) (hrow : Row L h f.r2 (b :: bs))
    (hrun : l_c_lp f.r4 fuel f.r2 h = some h') :
    Reaches io s (L.freeCode.addr 39) f (L.freeCode.addr 71)
      (fun g => Inner s L f₀ pushed h' g.ram g.sp g.tsr0 g.tsr1) := by
  induction bs generalizing b f h fuel with
  | nil =>
      have hr := hin.ready hp free_mem hr₀
      have hb : Header L h f.r2 f.r4 b := hrow.header hp.stop hR4
      have hlast : f.r2 + h.mem f.r2 = f.r4 := by
        apply BitVec.eq_of_toNat_eq
        rw [hb.next, hR4, hrow.stop]
        rfl
      cases fuel with
      | zero => cases hrun
      | succ fuel =>
          rw [l_c_lp, if_neg hb.before] at hrun
          dsimp only at hrun
          rw [if_neg (BitVec.not_lt.mpr hb.header), hb.noCarry, if_neg Bool.false_ne_true,
            if_neg (BitVec.not_lt.mpr hb.inside), if_pos hlast] at hrun
          cases hrun
          refine .step (free_block hr hin.view hb) ?_
          refine .step (leads_cmp .R3 .R4 5 hr rfl rfl rfl fun str =>
            (holds_NZ _ _).trans (decide_eq_false (not_not.mpr (sub_eq_zero_iff.mpr hlast)))) ?_
          exact .step (leads_b 0x11 hr rfl rfl rfl) (.done hin)
  | cons c cs ih =>
      have hr := hin.ready hp free_mem hr₀
      have hb : Header L h f.r2 f.r4 b := hrow.header hp.stop hR4
      have hnext := hrow.next hp.stop
      have hc : Header L h (f.r2 + h.mem f.r2) f.r4 c := hnext.header hp.stop hR4
      have hlast : f.r2 + h.mem f.r2 ≠ f.r4 := fun heq => hc.before (heq ▸ BitVec.le_refl _)
      cases fuel with
      | zero => cases hrun
      | succ fuel =>
          rw [l_c_lp, if_neg hb.before] at hrun
          dsimp only at hrun
          rw [if_neg (BitVec.not_lt.mpr hb.header), hb.noCarry, if_neg Bool.false_ne_true,
            if_neg (BitVec.not_lt.mpr hb.inside), if_neg hlast] at hrun
          refine .step (free_block hr hin.view hb) ?_
          refine .step (leads_cmp .R3 .R4 5 hr rfl rfl rfl fun str =>
            (holds_NZ _ _).trans (decide_eq_true fun hzero =>
              hlast (sub_eq_zero_iff.mp hzero))) ?_
          by_cases hused : h.mem (f.r2 + 1) ≠ 0
          · rw [if_pos hused] at hrun
            refine .step (leads_unary .R1 .R1 4 id hr rfl rfl rfl fun str =>
              (holds_Z _ _).trans (decide_eq_false hused)) ?_
            refine .step (leads_b 0xb hr rfl rfl rfl) ?_
            exact .step (free_next hr hin.view hb) (ih hin hR4 hnext hrun)
          · rw [if_neg hused] at hrun
            refine .step (leads_unary .R1 .R1 4 id hr rfl rfl rfl fun str =>
              (holds_Z _ _).trans (decide_eq_true (not_not.mp hused))) ?_
            refine .step (leads_unary .R3 .R3 0 id hr rfl rfl rfl fun _ => rfl) ?_
            refine .step (leads_loadField .R1 1 hr rfl rfl rfl rfl
              (hin.view.mem _ hc.mark.2)) ?_
            by_cases hused' : h.mem (f.r2 + h.mem f.r2 + 1) ≠ 0
            · rw [if_pos hused'] at hrun
              refine .step (leads_unary .R1 .R1 4 id hr rfl rfl rfl fun str =>
                (holds_Z _ _).trans (decide_eq_false hused')) ?_
              refine .step (leads_b 7 hr rfl rfl rfl) ?_
              exact .step (free_next hr hin.view hb) (ih hin hR4 hnext hrun)
            · rw [if_neg hused'] at hrun
              refine .step (leads_unary .R1 .R1 4 id hr rfl rfl rfl fun str =>
                (holds_Z _ _).trans (decide_eq_true (not_not.mp hused'))) ?_
              refine free_merge hp hr₀ hin hlength hb hc fun r0 r1 ram hin => ?_
              exact ih hin hR4 (hrow.joined hp.stop (not_not.mp hused)) hrun

omit hp hr₀ in
/-- `l_f_fail0` -/
theorem free_fail0 (hr : Ready s L.freeCode f.ram)
    (hin : Inner s L f₀ pushed h f.ram f.sp f.tsr0 f.tsr1) :
    Reaches io s (L.freeCode.addr 74) f (L.freeCode.addr 75) (Result s L f₀ pushed 0 h) :=
  .step (leads_logic .R0 .R0 0 (· ^^^ ·) hr rfl rfl rfl fun _ => rfl)
    (.done ⟨BitVec.xor_self, hin⟩)

omit hp hr₀ in
/-- `l_f_fail1` -/
theorem free_fail1 (hr : Ready s L.freeCode f.ram)
    (hin : Inner s L f₀ (pushed ++ [v]) h f.ram f.sp f.tsr0 f.tsr1) :
    Reaches io s (L.freeCode.addr 73) f (L.freeCode.addr 75) (Result s L f₀ pushed 0 h) :=
  .step (leads_popValue .R1 hr rfl rfl hin.top) (free_fail0 hr hin.pop)

omit hp hr₀ in
/-- `l_f_ok` -/
theorem free_ok (hr : Ready s L.freeCode f.ram)
    (hin : Inner s L f₀ (pushed ++ [v]) h f.ram f.sp f.tsr0 f.tsr1) :
    Reaches io s (L.freeCode.addr 71) f (L.freeCode.addr 75) (Result s L f₀ pushed v h) := by
  refine .step (leads_popValue .R0 hr rfl rfl hin.top) ?_
  exact .step (leads_b 3 hr rfl rfl rfl) (.done ⟨rfl, hin.pop⟩)

/-- `l_f_hit` -/
theorem free_hit {fuel : Nat} (hlength : pushed.length < 3)
    (hin : Inner s L f₀ (pushed ++ [v]) h f.ram f.sp f.tsr0 f.tsr1) (hinside : L.Inside (f.r2 + 1))
    (hadr : h.GL_ALLOC_ADR = L.base) (hsize : h.GL_ALLOC_SIZE = L.words)
    (hrow : h.mem (f.r2 + 1) = GL_HEAP_USED →
      ∃ b bs, Row L (h.store (f.r2 + 1) 0) L.base (b :: bs))
    (hrun : (if h.mem (f.r2 + 1) ≠ GL_HEAP_USED then some (0, h) else
      (l_c_lp (h.GL_ALLOC_SIZE + h.GL_ALLOC_ADR) fuel h.GL_ALLOC_ADR
        (h.store (f.r2 + 1) 0)).bind fun h => some (v, h)) = some (r, h')) :
    Reaches io s (L.freeCode.addr 29) f (L.freeCode.addr 75) (Result s L f₀ pushed r h') := by
  have hlength' : (pushed ++ [v]).length ≤ 3 := by
    rw [List.length_append, List.length_singleton]
    omega
  have hR4 : (L.words + L.base).toNat = L.stop := by
    rw [BitVec.toNat_add, Nat.add_comm]
    exact Nat.mod_eq_of_lt hp.stop
  have hr := hin.ready hp free_mem hr₀
  refine .step (leads_unary .R3 .R2 0 id hr rfl rfl rfl fun _ => rfl) ?_
  refine .step (leads_loadField .R0 1 hr rfl rfl rfl rfl (hin.view.mem _ hinside)) ?_
  by_cases hused : h.mem (f.r2 + 1) = GL_HEAP_USED
  · rw [if_neg (not_not.mpr hused)] at hrun
    obtain ⟨h₁, hjoin, hpair⟩ := Option.bind_eq_some_iff.mp hrun
    obtain ⟨b, bs, hrow⟩ := hrow hused
    rw [hadr, hsize] at hjoin
    cases hpair
    refine .step (leads_cmpImm .R0 4 hr rfl rfl rfl rfl fun str =>
      (holds_Z _ _).trans (decide_eq_true (sub_eq_zero_iff.mpr hused))) ?_
    refine .step (leads_logic .R0 .R0 0 (· ^^^ ·) hr rfl rfl rfl fun _ => rfl) ?_
    refine reaches_store .R0 1 hp hin hlength' hr rfl rfl rfl rfl hinside fun ram hin => ?_
    have hzero : h.mem (f.r2 + 1) ^^^ h.mem (f.r2 + 1) = 0 := BitVec.xor_self
    have hin : Inner s L f₀ (pushed ++ [r]) (h.store (f.r2 + 1) 0) ram f.sp f.tsr0 f.tsr1 := by
      rw [← hzero]
      exact hin
    have hr := hin.ready hp free_mem hr₀
    refine .step (leads_loadVar .R2 0xc200 L.adr hr rfl rfl rfl rfl
      (hin.view.adr.trans hadr)) ?_
    refine .step (leads_loadVar .R4 0xc400 L.size hr rfl rfl rfl rfl
      (hin.view.size.trans hsize)) ?_
    refine .step (leads_add .R4 .R2 0 hr rfl rfl rfl fun _ => rfl) ?_
    refine .trans (free_join hp hr₀ hin hlength' hR4 hrow hjoin) fun g hg => ?_
    exact free_ok (hg.ready hp free_mem hr₀) hg
  · rw [if_pos hused] at hrun
    cases hrun
    refine .step (leads_cmpImm .R0 4 hr rfl rfl rfl rfl fun str =>
      (holds_Z _ _).trans (decide_eq_false fun hzero => hused (sub_eq_zero_iff.mp hzero))) ?_
    exact .step (leads_b 0x28 hr rfl rfl rfl) (free_fail1 hr hin)

/-- `g_free_` between the pushes and the pops -/
theorem free_body {blocks : List Block} {fuel : Nat} (hlength : pushed.length < 3)
    (hin : Inner s L f₀ pushed h f.ram f.sp f.tsr0 f.tsr1) (hadr : h.GL_ALLOC_ADR = L.base)
    (hsize : h.GL_ALLOC_SIZE = L.words) (hrow : Row L h L.base blocks)
    (hrun : g_free_ fuel f.r0 h = some (r, h')) :
    Reaches io s (L.freeCode.addr 2) f (L.freeCode.addr 75) (Result s L f₀ pushed r h') := by
  have hR4 : (L.words + L.base).toNat = L.stop := by
    rw [BitVec.toNat_add, Nat.add_comm]
    exact Nat.mod_eq_of_lt hp.stop
  have hroom : ¬ h.GL_ALLOC_SIZE < GL_HEAP_HDR := by
    rw [hsize, BitVec.lt_def]
    exact Nat.not_lt.mpr hp.room
  have hr := hin.ready hp free_mem hr₀
  rw [g_free_] at hrun
  by_cases hzero : f.r0 = 0
  · rw [if_pos hzero] at hrun
    cases hrun
    refine .step (leads_unary .R0 .R0 5 id hr rfl rfl rfl fun str =>
      (holds_NZ _ _).trans (decide_eq_false (not_not.mpr hzero))) ?_
    exact .step (leads_b 0x47 hr rfl rfl rfl) (free_fail0 hr hin)
  · rw [if_neg hzero, if_neg hroom] at hrun
    dsimp only at hrun
    rw [hadr, hsize] at hrun
    obtain ⟨hit, hfind, hrun⟩ := Option.bind_eq_some_iff.mp hrun
    refine .step (leads_unary .R0 .R0 5 id hr rfl rfl rfl fun str =>
      (holds_NZ _ _).trans (decide_eq_true hzero)) ?_
    refine reaches_push .R0 hp hin hlength hr rfl rfl fun ram hin => ?_
    have hr := hin.ready hp free_mem hr₀
    refine .step (leads_unary .R0 .R0 0 (· - 2) hr rfl rfl rfl fun _ => rfl) ?_
    refine .step (leads_loadVar .R2 0xc200 L.adr hr rfl rfl rfl rfl
      (hin.view.adr.trans hadr)) ?_
    refine .step (leads_loadVar .R4 0xc400 L.size hr rfl rfl rfl rfl
      (hin.view.size.trans hsize)) ?_
    refine .step (leads_cmpImm .R4 0xe hr rfl rfl rfl rfl fun str =>
      (holds_LPZ_sub _ _ _ str).trans (decide_eq_true (BitVec.le_def.mpr hp.room))) ?_
    refine .step (leads_add .R4 .R2 0 hr rfl rfl rfl fun _ => rfl) ?_
    refine .step (leads_unary .R1 .R0 0 id hr rfl rfl rfl fun _ => rfl) ?_
    refine .trans (free_search hp hr₀ hin hR4 hrow hfind) fun g hg => ?_
    cases hit with
    | none =>
        cases hrun
        exact free_fail1 (hg.1.ready hp free_mem hr₀) hg.1
    | some R2 =>
        obtain ⟨hR2, hinside⟩ := hg.2 R2 rfl
        subst hR2
        have hlt : L.base.toNat < L.stop := by
          have := hp.room
          rw [Layout.stop]
          omega
        refine free_hit hp hr₀ hlength hg.1 hinside hadr hsize (fun hused => ?_) hrun
        obtain ⟨-, b, bs, hcleared, -⟩ := hrow.cleared hp.stop hR4 hlt hfind hused
        exact ⟨b, bs, hcleared⟩

/-- `g_free_` does what the routine does to a heap. -/
theorem free_runs {blocks : List Block} {fuel : Nat} (hv : View s L f₀.ram h)
    (hadr : h.GL_ALLOC_ADR = L.base) (hsize : h.GL_ALLOC_SIZE = L.words)
    (hrow : Row L h L.base blocks) (hrun : g_free_ fuel f₀.r0 h = some (r, h')) :
    Reaches io s (L.freeCode.addr 0) f₀ (f₀.ram (stackWord s f₀.sp 0)) (Returned s L f₀ r h') := by
  have hlength : ([f₀.r3] ++ [f₀.r4]).length < 3 := Nat.lt_succ_self 2
  refine reaches_push .R3 hp (.enter hv) (Nat.succ_pos 2) hr₀ rfl rfl fun ram hin => ?_
  have hr := hin.ready hp free_mem hr₀
  refine reaches_push .R4 hp hin (Nat.lt_of_succ_lt hlength) hr rfl rfl fun ram hin => ?_
  refine .trans (free_body hp hr₀ hlength hin hadr hsize hrow hrun) fun g hg => ?_
  rw [← hg.1]
  exact reaches_return hp (hg.2.ready hp free_mem hr₀) hg.2 rfl rfl rfl

end Free

section Contents

variable {L : Layout} {h h' : Heap} {R1 R2 R4 r p n x : Mn1613Heap.Word} {b c : Block}
  {bs blocks : List Block}
  {base fuel : Nat} {live : List (Nat × Nat)}

/-- The words in front of a row of blocks, and those of its parts in use -/
def Held (base : Nat) (blocks : List Block) (x : Mn1613Heap.Word) : Prop :=
  x.toNat < base ∨ ∃ e ∈ owned 2 base blocks, e.1 ≤ x.toNat ∧ x.toNat < e.1 + e.2

theorem Held.next (hx : Held base (b :: bs) x) (hb : b.Ok 2) : Held (base + b.size) bs x := by
  rcases hx with hx | ⟨e, he, hlow, hhigh⟩
  · exact .inl (by omega)
  · rw [owned] at he
    rcases List.mem_append.mp he with he | he
    · obtain ⟨n, hn, rfl⟩ := Option.map_eq_some_iff.mp (Option.mem_toList.mp he)
      have hpart := hb.part n hn
      dsimp only at hhigh
      exact .inl (by omega)
    · exact .inr ⟨e, he, hlow, hhigh⟩

/-- A free block holds nothing. -/
theorem Held.outside (hx : Held base (b :: bs) x) (hok : ∀ b ∈ bs, b.Ok 2) (hfree : b.user = none) :
    x.toNat < base ∨ base + b.size ≤ x.toNat := by
  rcases hx with hx | ⟨e, he, hlow, -⟩
  · exact .inl hx
  · rw [owned, hfree] at he
    have hrange := owned_range hok he
    exact .inr (by omega)

theorem Held.joined (hx : Held base (b :: c :: bs) x) (hb : b.user = none) (hc : c.user = none) :
    Held base (⟨b.size + c.size, none⟩ :: bs) x := by
  rw [Held, owned, owned, hb, hc, Nat.add_assoc base b.size c.size] at hx
  exact hx

theorem store_other (a v : Mn1613Heap.Word) (hne : x ≠ a) : (h.store a v).mem x = h.mem x :=
  Function.update_of_ne hne _ _

/-- A block that is not marked is free. -/
theorem Header.free (hb : Header L h R2 R4 b) (hfree : h.mem (R2 + 1) = 0) : b.user = none :=
  Decidable.not_not.mp fun hne => (flag_ne_zero hb.flag).mpr hne hfree

/-- `l_m_lp` stores into a free block only. -/
theorem l_m_lp_keeps (hend : L.stop < 65536) (hR4 : R4.toNat = L.stop) (hrow : Row L h R2 blocks)
    (hrun : l_m_lp R1 R4 fuel R2 h = some (r, h')) (hx : Held R2.toNat blocks x) :
    h'.mem x = h.mem x := by
  induction blocks generalizing R2 fuel with
  | nil =>
      cases fuel with
      | zero => cases hrun
      | succ fuel =>
          rw [l_m_lp, if_pos (show R2 ≥ R4 from hrow.end_ hR4)] at hrun
          cases hrun
          rfl
  | cons b bs ih =>
      have hb : Header L h R2 R4 b := hrow.header hend hR4
      have hnext : Held (R2 + h.mem R2).toNat bs x :=
        hb.next ▸ hx.next (hrow.ok b List.mem_cons_self)
      cases fuel with
      | zero => cases hrun
      | succ fuel =>
          rw [l_m_lp, if_neg hb.before] at hrun
          dsimp only at hrun
          rw [if_neg (BitVec.not_lt.mpr hb.header), hb.noCarry, if_neg Bool.false_ne_true,
            if_neg (BitVec.not_lt.mpr hb.inside)] at hrun
          by_cases hused : h.mem (R2 + 1) ≠ 0
          · rw [if_pos hused] at hrun
            exact ih (hrow.next hend) hrun hnext
          rw [if_neg hused] at hrun
          by_cases hsmall : h.mem R2 < R1
          · rw [if_pos hsmall] at hrun
            exact ih (hrow.next hend) hrun hnext
          rw [if_neg hsmall] at hrun
          have houtside := hx.outside (fun b hb => hrow.ok b (List.mem_cons_of_mem _ hb))
            (hb.free (not_not.mp hused))
          have hroom := (hrow.ok b List.mem_cons_self).room
          have hmark : x ≠ R2 + 1 := by
            intro heq
            have := congrArg BitVec.toNat heq
            rw [hb.mark.1] at this
            omega
          by_cases hleft : h.mem R2 - R1 ≥ GL_HEAP_HDR
          · rw [if_pos hleft] at hrun
            cases hrun
            have hle := BitVec.not_lt.mp hsmall
            have hroomLeft := BitVec.le_def.mp hleft
            have hheader : GL_HEAP_HDR.toNat = 2 := rfl
            rw [BitVec.toNat_sub_of_le hle, hb.size, hheader] at hroomLeft
            have hsize := hb.size
            have hplace := hb.next
            rw [BitVec.toNat_add] at hplace
            rw [BitVec.le_def] at hle
            rw [store_other _ _ (by bv_omega), store_other _ _ (by bv_omega),
              store_other _ _ hmark, store_other _ _ (by bv_omega)]
          · rw [if_neg hleft] at hrun
            cases hrun
            exact store_other _ _ hmark

/-- `l_c_lp` stores into a free block only. -/
theorem l_c_lp_keeps (hend : L.stop < 65536) (hR4 : R4.toNat = L.stop)
    (hrow : Row L h R2 (b :: bs)) (hrun : l_c_lp R4 fuel R2 h = some h')
    (hx : Held R2.toNat (b :: bs) x) : h'.mem x = h.mem x := by
  induction bs generalizing b R2 h fuel with
  | nil =>
      have hb : Header L h R2 R4 b := hrow.header hend hR4
      have hlast : R2 + h.mem R2 = R4 := by
        apply BitVec.eq_of_toNat_eq
        rw [hb.next, hR4, hrow.stop]
        rfl
      cases fuel with
      | zero => cases hrun
      | succ fuel =>
          rw [l_c_lp, if_neg hb.before] at hrun
          dsimp only at hrun
          rw [if_neg (BitVec.not_lt.mpr hb.header), hb.noCarry, if_neg Bool.false_ne_true,
            if_neg (BitVec.not_lt.mpr hb.inside), if_pos hlast] at hrun
          cases hrun
          rfl
  | cons c cs ih =>
      have hb : Header L h R2 R4 b := hrow.header hend hR4
      have hnext := hrow.next hend
      have hc : Header L h (R2 + h.mem R2) R4 c := hnext.header hend hR4
      have hlast : R2 + h.mem R2 ≠ R4 := fun heq => hc.before (heq ▸ BitVec.le_refl _)
      have hheld : Held (R2 + h.mem R2).toNat (c :: cs) x :=
        hb.next ▸ hx.next (hrow.ok b List.mem_cons_self)
      cases fuel with
      | zero => cases hrun
      | succ fuel =>
          rw [l_c_lp, if_neg hb.before] at hrun
          dsimp only at hrun
          rw [if_neg (BitVec.not_lt.mpr hb.header), hb.noCarry, if_neg Bool.false_ne_true,
            if_neg (BitVec.not_lt.mpr hb.inside), if_neg hlast] at hrun
          by_cases hused : h.mem (R2 + 1) ≠ 0
          · rw [if_pos hused] at hrun
            exact ih hnext hrun hheld
          rw [if_neg hused] at hrun
          by_cases hused' : h.mem (R2 + h.mem R2 + 1) ≠ 0
          · rw [if_pos hused'] at hrun
            exact ih hnext hrun hheld
          rw [if_neg hused'] at hrun
          have hfree := hb.free (not_not.mp hused)
          have houtside := hx.outside (fun b hb => hrow.ok b (List.mem_cons_of_mem _ hb)) hfree
          have hroom := (hrow.ok b List.mem_cons_self).room
          have hne : x ≠ R2 := by
            rintro rfl
            omega
          rw [ih (hrow.joined hend (not_not.mp hused)) hrun
            (hx.joined hfree (hc.free (not_not.mp hused')))]
          exact store_other _ _ hne

/-- The region as a row of blocks -/
theorem row_of_tiled (ht : Tiled L.base L.words h live blocks) : Row L h L.base blocks :=
  ⟨ht.laid, ht.ok, congrArg (L.base.toNat + ·) ht.span.symm, Nat.le_refl _⟩

/-- `g_malloc_` keeps what is in the parts in use. -/
theorem malloc_keeps (ht : Tiled L.base L.words h live blocks) (hend : L.stop < 65536)
    (hrun : g_malloc_ fuel n h = some (r, h')) {e : Nat × Nat} (he : e ∈ live)
    (hlow : e.1 ≤ x.toNat) (hhigh : x.toNat < e.1 + e.2) : h'.mem x = h.mem x := by
  have hR4 : (L.words + L.base).toNat = L.stop := by
    rw [BitVec.toNat_add, Nat.add_comm]
    exact Nat.mod_eq_of_lt hend
  rw [g_malloc_, ht.adr, ht.size] at hrun
  dsimp only at hrun
  split at hrun
  · cases hrun
    rfl
  split at hrun
  · cases hrun
    rfl
  split at hrun
  · cases hrun
    rfl
  · exact l_m_lp_keeps hend hR4 (row_of_tiled ht) hrun
      (.inr ⟨e, (ht.live e).mp he, hlow, hhigh⟩)

/-- `g_free_` keeps what is in the other parts. -/
theorem free_keeps (ht : Tiled L.base L.words h live blocks) (hend : L.stop < 65536)
    (hwords : 2 ≤ L.words.toNat) (hrun : g_free_ fuel p h = some (r, h')) {e : Nat × Nat}
    (he : e ∈ live) (hne : e.1 ≠ p.toNat) (hlow : e.1 ≤ x.toNat) (hhigh : x.toNat < e.1 + e.2) :
    h'.mem x = h.mem x := by
  have hR4 : (L.words + L.base).toNat = L.stop := by
    rw [BitVec.toNat_add, Nat.add_comm]
    exact Nat.mod_eq_of_lt hend
  have hstop : L.stop = L.base.toNat + L.words.toNat := rfl
  have hrange := ht.range he
  rw [g_free_, ht.adr, ht.size] at hrun
  dsimp only at hrun
  split at hrun
  · cases hrun
    rfl
  split at hrun
  · cases hrun
    rfl
  obtain ⟨hit, hfind, hrun⟩ := Option.bind_eq_some_iff.mp hrun
  cases hit with
  | none =>
      cases hrun
      rfl
  | some hit =>
      dsimp only at hrun
      split at hrun
      · cases hrun
        rfl
      next hused =>
        obtain ⟨h₁, hjoin, hpair⟩ := Option.bind_eq_some_iff.mp hrun
        obtain ⟨rfl, b, bs, hrow, hothers⟩ := (row_of_tiled ht).cleared hend hR4 (by omega) hfind
          (not_not.mp hused)
        obtain ⟨rfl, rfl⟩ := Prod.mk.inj (Option.some.inj hpair)
        have hback : (p - GL_HEAP_HDR).toNat = (65536 - 2 + p.toNat) % 65536 :=
          BitVec.toNat_sub _ _
        have hp := p.isLt
        obtain ⟨hmem, haway⟩ := hothers e ((ht.live e).mp he) (by omega)
        rw [show (h.store _ 0).GL_ALLOC_SIZE = L.words from ht.size,
          show (h.store _ 0).GL_ALLOC_ADR = L.base from ht.adr] at hjoin
        rw [l_c_lp_keeps hend hR4 hrow hjoin (.inr ⟨e, hmem, hlow, hhigh⟩)]
        exact store_other _ _ (by bv_omega)

end Contents

section Owners

variable {a words : Mn1613Heap.Word} {h h' : Heap}
  {mem mem' : Mn1613Heap.Word → Mn1613Heap.Word} {base : Nat} {blocks : List Block}
  {live : List (Nat × Nat)}

/-- A header is no word of a part in use. -/
theorem laid_kept (hlaid : Laid mem base blocks) (hok : ∀ b ∈ blocks, b.Ok 2)
    (hlt : base + span blocks < 65536)
    (heq : ∀ x : Mn1613Heap.Word, base ≤ x.toNat → x.toNat < base + span blocks →
      (∀ e ∈ owned 2 base blocks, ¬ (e.1 ≤ x.toNat ∧ x.toNat < e.1 + e.2)) → mem' x = mem x) :
    Laid mem' base blocks := by
  induction blocks generalizing base with
  | nil => trivial
  | cons b bs ih =>
      have hroom := (hok b List.mem_cons_self).room
      have hrange {e : Nat × Nat} (he : e ∈ owned 2 base (b :: bs)) := (owned_range hok he).1
      rw [span] at hlt heq
      have hfirst : (word base).toNat = base := toNat_word (by omega)
      have hmark : (word (base + 1)).toNat = base + 1 := toNat_word (by omega)
      refine ⟨?_, ?_, ih hlaid.2.2 (fun c hc => hok c (List.mem_cons_of_mem _ hc)) (by omega) ?_⟩
      · rw [heq _ (by omega) (by omega) fun e he hin => by
          have := hrange he
          omega]
        exact hlaid.1
      · rw [heq _ (by omega) (by omega) fun e he hin => by
          have := hrange he
          omega]
        exact hlaid.2.1
      · intro x hlow hhigh hout
        refine heq x (by omega) (by omega) fun e he hin => ?_
        rw [owned] at he
        rcases List.mem_append.mp he with he | he
        · obtain ⟨n, hn, rfl⟩ := Option.map_eq_some_iff.mp (Option.mem_toList.mp he)
          have hpart := (hok b List.mem_cons_self).part n hn
          dsimp only at hin
          omega
        · exact hout e he hin

/-- Owners may write into their parts, and anybody beside the region. -/
theorem tiled_kept (ht : Tiled a words h live blocks) (hroom : a.toNat + words.toNat < 65536)
    (hadr : h'.GL_ALLOC_ADR = h.GL_ALLOC_ADR) (hsize : h'.GL_ALLOC_SIZE = h.GL_ALLOC_SIZE)
    (hmem : ∀ x : Mn1613Heap.Word, a.toNat ≤ x.toNat → x.toNat < a.toNat + words.toNat →
      (∀ e ∈ live, ¬ (e.1 ≤ x.toNat ∧ x.toNat < e.1 + e.2)) → h'.mem x = h.mem x) :
    Tiled a words h' live blocks := by
  refine ⟨hadr.trans ht.adr, hsize.trans ht.size, ?_, ht.span, ht.ok, ht.live⟩
  refine laid_kept ht.laid ht.ok (by rw [ht.span]; exact hroom) fun x hlow hhigh hout => ?_
  rw [ht.span] at hhigh
  exact hmem x hlow hhigh fun e he => hout e ((ht.live e).mp he)

end Owners

section Sessions

/-- What a caller asks for -/
inductive Request
  | init
  | malloc (n : Mn1613Heap.Word)
  | free (p : Mn1613Heap.Word)

namespace Request

/-- The routine -/
def code (L : Layout) : Request → Code
  | .init => L.initCode
  | .malloc _ => L.mallocCode
  | .free _ => L.freeCode

/-- What stands in `R0`. -/
def argument (L : Layout) : Request → Mn1613Heap.Word
  | .init => L.base
  | .malloc n => n
  | .free p => p

/-- The parts in use behind an answer -/
def after (r : Mn1613Heap.Word) (live : List (Nat × Nat)) : Request → List (Nat × Nat)
  | .init => []
  | .malloc n => if r = 0 then live else (r.toNat, n.toNat) :: live
  | .free p => if r = 0 then live else live.filter (·.1 ≠ p.toNat)

/-- What an answer tells of the heaps before and behind the call -/
def Correct (L : Layout) (live : List (Nat × Nat)) (h : Heap) (r : Mn1613Heap.Word) (h' : Heap) :
    Request → Prop
  | .init => r = L.base
  | .malloc n => ∃ blocks, Tiled L.base L.words h live blocks ∧
      MallocSpec L.base L.words h live blocks n r h'
  | .free p => FreeSpec L.base L.words h live p r h'

end Request

variable {σ : Type} (io : Io σ) (L : Layout) (live : List (Nat × Nat))

/-- The heap in the memory of a core -/
def heapOf (s : Core σ) : Heap where
  GL_ALLOC_ADR := s.ram (place s.regs.csbr (L.adr.setWidth 16))
  GL_ALLOC_SIZE := s.ram (place s.regs.csbr (L.size.setWidth 16))
  mem x := s.ram (place s.regs.csbr x)

/-- The region is a row of blocks, and the parts in use are theirs. -/
def Heaped (s : Core σ) : Prop := ∃ blocks, Tiled L.base L.words (heapOf L s) live blocks

/-- The core stands at the routine, with its arguments in the registers. -/
structure Asks (q : Request) (s : Core σ) : Prop where
  ready : ∀ c ∈ L.codes, Ready s c s.ram
  ic : s.regs.ic = (q.code L).addr 0
  argument : s.regs.r 0 = q.argument L
  words : q = .init → s.regs.r 1 = L.words
  placed : Placed s L s.regs.sp

/-- The core behind the return from the routine -/
structure Answers (q : Request) (s t : Core σ) : Prop where
  back : t.regs.ic = s.ram (stackWord s s.regs.sp 0)
  sp : t.regs.sp = s.regs.sp + 1
  r3 : t.regs.r 3 = s.regs.r 3
  r4 : t.regs.r 4 = s.regs.r 4
  tsr0 : t.regs.tsr0 = s.regs.tsr0
  tsr1 : t.regs.tsr1 = s.regs.tsr1
  masks : KeepsMasks s.regs.str t.regs.str
  others : core s t.regs.ic t.regs.str t.fetches (frameOf t) = t
  ram : ∀ p, ¬ L.Owns s p → (∀ i < 3, p ≠ stackWord s s.regs.sp (i + 1)) → t.ram p = s.ram p
  kept : ∀ e ∈ live, e ∈ q.after (t.regs.r 0) live → ∀ x : Mn1613Heap.Word, e.1 ≤ x.toNat →
    x.toNat < e.1 + e.2 → t.ram (place s.regs.csbr x) = s.ram (place s.regs.csbr x)
  correct : ∃ h', View s L t.ram h' ∧ q.Correct L live (heapOf L s) (t.regs.r 0) h'
  heaped : Heaped L (q.after (t.regs.r 0) live) t

variable {io L live} {q : Request} {s : Core σ} {f' : Frame} {h' : Heap} {r : Mn1613Heap.Word}
  {blocks : List Block}

/-- What a frame says of a call is said of the core. -/
theorem Returned.answers {ic : U16} (hp : Placed s L s.regs.sp)
    (hret : Returned s L (frameOf s) r h' f') (hic : s.ram (stackWord s s.regs.sp 0) = ic)
    (hleads : Leads io s ((q.code L).addr 0) (frameOf s) ic f')
    (hentry : s.regs.ic = (q.code L).addr 0)
    (ht : Tiled L.base L.words h' (q.after r live) blocks)
    (hkept : ∀ e ∈ live, e ∈ q.after r live → ∀ x : Mn1613Heap.Word, e.1 ≤ x.toNat →
      x.toNat < e.1 + e.2 →
      h'.mem x = (heapOf L s).mem x)
    (hcorrect : q.Correct L live (heapOf L s) r h') :
    ∃ n, Answers L live q s ((step io)^[n] s) := by
  obtain ⟨n, k, str, hmasks, hrun⟩ := leads_core hleads hentry
  have hr : (core s ic str k f').regs.r 0 = r := hret.r0
  refine ⟨n, ?_⟩
  rw [hrun]
  constructor
  case back => exact hic.symm
  case sp => exact hret.sp
  case r3 => exact hret.r3
  case r4 => exact hret.r4
  case tsr0 => exact hret.tsr0
  case tsr1 => exact hret.tsr1
  case masks => exact hmasks
  case others => rfl
  case ram => exact hret.others
  case kept =>
    rw [hr]
    intro e he hafter x hlow hhigh
    have hrange := ht.range hafter
    have hstop : L.stop = L.base.toNat + L.words.toNat := rfl
    exact (hret.view.mem x ⟨by omega, by omega⟩).trans (hkept e he hafter x hlow hhigh)
  case correct =>
    rw [hr]
    exact ⟨h', hret.view, hcorrect⟩
  case heaped =>
    rw [hr]
    exact ⟨blocks, tiled_kept ht hp.stop hret.view.adr hret.view.size
      fun x hlow hhigh _ => hret.view.mem x ⟨hlow, hhigh⟩⟩

theorem heapOf_view (s : Core σ) : View s L s.ram (heapOf L s) := ⟨rfl, rfl, fun _ _ => rfl⟩

theorem serves_init (hasks : Asks L .init s) : ∃ n, Answers L live .init s ((step io)^[n] s) := by
  have hready : Ready s L.initCode (frameOf s).ram := hasks.ready _ init_mem
  obtain ⟨f', hleads, hret⟩ : Reaches io s _ (frameOf s) _ _ := init_runs hasks.placed hready
    (heapOf_view s) hasks.argument (hasks.words rfl)
  exact hret.answers hasks.placed rfl hleads hasks.ic
    (tiled_init hasks.placed.room hasks.placed.stop _) nofun hasks.argument

theorem serves_malloc {n : Mn1613Heap.Word} (hasks : Asks L (.malloc n) s)
    (hheap : Heaped L live s) :
    ∃ k, Answers L live (.malloc n) s ((step io)^[k] s) := by
  have hp := hasks.placed
  obtain ⟨blocks, ht⟩ := hheap
  obtain ⟨r, h', ⟨fuel, hreturns⟩, hspec⟩ := ht.malloc hp.room hp.stop n
  have hrun : g_malloc_ fuel n (heapOf L s) = some (r, h') := hreturns fuel (le_refl _)
  have hready : Ready s L.mallocCode (frameOf s).ram := hasks.ready _ malloc_mem
  have hR0 : (frameOf s).r0 = n := hasks.argument
  obtain ⟨f', hleads, hret⟩ : Reaches io s _ (frameOf s) _ _ :=
    malloc_runs hp hready (heapOf_view s)
    ht.adr ht.size (row_of_tiled ht) (hR0 ▸ hrun)
  have htiled : ∃ blocks', Tiled L.base L.words h' ((Request.malloc n).after r live) blocks' := by
    rw [Request.after]
    split
    · next hr => exact ⟨blocks, (hspec.none hr).1 ▸ ht⟩
    · next hr => exact hspec.tiled hr
  obtain ⟨blocks', ht'⟩ := htiled
  exact hret.answers hp rfl hleads hasks.ic ht'
    (fun e he _ x hlow hhigh => malloc_keeps ht hp.stop hrun he hlow hhigh) ⟨blocks, ht, hspec⟩

theorem serves_free {p : Mn1613Heap.Word} (hasks : Asks L (.free p) s) (hheap : Heaped L live s) :
    ∃ k, Answers L live (.free p) s ((step io)^[k] s) := by
  have hp := hasks.placed
  obtain ⟨blocks, ht⟩ := hheap
  obtain ⟨r, h', ⟨fuel, hreturns⟩, hspec⟩ := ht.free hp.room hp.stop p
  have hrun : g_free_ fuel p (heapOf L s) = some (r, h') := hreturns fuel (le_refl _)
  have hready : Ready s L.freeCode (frameOf s).ram := hasks.ready _ free_mem
  have hR0 : (frameOf s).r0 = p := hasks.argument
  obtain ⟨f', hleads, hret⟩ : Reaches io s _ (frameOf s) _ _ := free_runs hp hready (heapOf_view s)
    ht.adr ht.size (row_of_tiled ht) (hR0 ▸ hrun)
  have htiled : ∃ blocks', Tiled L.base L.words h' ((Request.free p).after r live) blocks' := by
    rw [Request.after]
    split
    · next hr => exact ⟨blocks, hspec.none hr ▸ ht⟩
    · next hr =>
        obtain ⟨-, blocks', ht', -⟩ := hspec.tiled hr
        exact ⟨blocks', ht'⟩
  obtain ⟨blocks', ht'⟩ := htiled
  refine hret.answers hp rfl hleads hasks.ic ht' (fun e he hafter x hlow hhigh => ?_) hspec
  by_cases hr : r = 0
  · rw [hspec.none hr]
  · rw [Request.after, if_neg hr, List.mem_filter, decide_eq_true_iff] at hafter
    exact free_keeps ht hp.stop hp.room hrun he hafter.2 hlow hhigh

theorem serves (io : Io σ) (L : Layout) :
    Serves (step io) (fun live q s => Asks L q s ∧ (q = .init ∨ Heaped L live s))
      (Answers L) := by
  rintro live q s ⟨hasks, hheap⟩
  cases q with
  | init => exact serves_init hasks
  | malloc n => exact serves_malloc hasks (hheap.resolve_left nofun)
  | free p => exact serves_free hasks (hheap.resolve_left nofun)

/-- From one core to another the variables are kept, and the region outside the parts in use. -/
structure Kept (L : Layout) (live : List (Nat × Nat)) (t u : Core σ) : Prop where
  adr : (heapOf L u).GL_ALLOC_ADR = (heapOf L t).GL_ALLOC_ADR
  size : (heapOf L u).GL_ALLOC_SIZE = (heapOf L t).GL_ALLOC_SIZE
  mem : ∀ x, L.Inside x → (∀ e ∈ live, ¬ (e.1 ≤ x.toNat ∧ x.toNat < e.1 + e.2)) →
    (heapOf L u).mem x = (heapOf L t).mem x

theorem Heaped.kept {t u : Core σ} (h : Heaped L live t) (hend : L.stop < 65536)
    (hkept : Kept L live t u) : Heaped L live u := by
  obtain ⟨blocks, ht⟩ := h
  exact ⟨blocks, tiled_kept ht hend hkept.adr hkept.size
    fun x hlow hhigh hout => hkept.mem x ⟨hlow, hhigh⟩ hout⟩

/-- The parts in use are parts of the region, and two of them have a header between them. -/
def Separate (L : Layout) (live : List (Nat × Nat)) : Prop :=
  (∀ e ∈ live, L.base.toNat + 2 ≤ e.1 ∧ e.1 + e.2 ≤ L.stop) ∧
    ∀ e ∈ live, ∀ f ∈ live, e ≠ f → e.1 + e.2 + 2 ≤ f.1 ∨ f.1 + f.2 + 2 ≤ e.1

theorem Heaped.separate (h : Heaped L live s) : Separate L live := by
  obtain ⟨blocks, ht⟩ := h
  refine ⟨fun e he => ht.range he, fun e he f hf hne => ?_⟩
  have hpair := owned_pairwise ht.ok L.base.toNat
  exact List.Pairwise.forall_of_forall_of_flip (R := fun e f : Nat × Nat => e ≠ f →
    e.1 + e.2 + 2 ≤ f.1 ∨ f.1 + f.2 + 2 ≤ e.1) (fun _ _ hne => absurd rfl hne)
    (hpair.imp fun h _ => .inl h) (hpair.imp fun h _ => .inr h) ((ht.live e).mp he)
    ((ht.live f).mp hf) hne

/-- Requests one after the other, with any other work in between that keeps the headers and asks
again: each returns to its caller, no word of the region has two owners, and an owner finds in its
part what it has written there. -/
theorem heap_session {ops : Nat → Request} {between : Nat → List (Nat × Nat) → Core σ → Core σ}
    (hinit : ops 0 = .init) (hfirst : Asks L (ops 0) s)
    (hnext : ∀ i live s t, Asks L (ops i) s → Answers L live (ops i) s t → Asks L (ops (i + 1))
      (between i ((ops i).after (t.regs.r 0) live) t))
    (hkeeps : ∀ i live t, Kept L live t (between i live t)) :
    ∃ live asked answered, live 0 = [] ∧ asked 0 = s ∧
      Session (step io) (fun live q s => Asks L q s ∧ (q = .init ∨ Heaped L live s)) (Answers L)
        (fun q t live => q.after (t.regs.r 0) live) ops between live asked answered ∧
      ∀ i, Separate L (live i) := by
  obtain ⟨live, asked, answered, hlive, hstart, hsession⟩ :=
    (serves io L).session (fun q t live => q.after (t.regs.r 0) live) ops between
      (h := []) ⟨hfirst, .inl hinit⟩ fun i live s t hs ht => ⟨hnext i live s t hs.1 ht,
        .inr (ht.heaped.kept hs.1.placed.stop (hkeeps _ _ _))⟩
  refine ⟨live, asked, answered, hlive, hstart, hsession, fun i => ?_⟩
  cases i with
  | zero =>
      rw [hlive]
      exact ⟨nofun, nofun⟩
  | succ i =>
      rw [hsession.remembers i]
      exact (hsession.answers i).heaped.separate

end Sessions

section Sample

variable {σ : Type} {L : Layout} {live : List (Nat × Nat)}

/-- A caller that asks again at once. -/
def again (L : Layout) (q : Request) (t : Core σ) : Core σ :=
  core t ((q.code L).addr 0) t.regs.str t.fetches
    { frameOf t with r0 := q.argument L, r1 := L.words, sp := t.regs.sp - 1 }

theorem Placed.congr {s t : Core σ} {sp : U16} (hp : Placed s L sp)
    (hcsbr : t.regs.csbr = s.regs.csbr) (hssbr : t.regs.ssbr = s.regs.ssbr) : Placed t L sp := by
  have howns (p : BitVec 18) : L.Owns t p ↔ L.Owns s p := by
    rw [Layout.Owns, Layout.Owns, hcsbr]
  have hapart (c : Code) (p : BitVec 18) : Apart t c p ↔ Apart s c p := by
    rw [Apart, Apart, hcsbr]
  have hstack (i : Nat) : stackWord t sp i = stackWord s sp i := by
    rw [stackWord, stackWord, hssbr]
  refine ⟨hp.room, hp.stop, hp.adr, hp.size, hp.vars, fun c hc p h => ?_, fun c hc i hi => ?_,
    fun p h i hi => ?_⟩
  · exact (hapart c p).mpr (hp.code c hc p ((howns p).mp h))
  · rw [hapart, hstack]
    exact hp.pushes c hc i hi
  · rw [hstack]
    exact hp.stack p ((howns p).mp h) i hi

theorem Asks.again {q q' : Request} {s t : Core σ} (h : Asks L q s) (ht : Answers L live q s t) :
    Asks L q' (again L q' t) := by
  have hcsbr : t.regs.csbr = s.regs.csbr := (congrArg (fun s => s.regs.csbr) ht.others).symm
  have hssbr : t.regs.ssbr = s.regs.ssbr := (congrArg (fun s => s.regs.ssbr) ht.others).symm
  have hsp : t.regs.sp - 1 = s.regs.sp := by rw [ht.sp, BitVec.add_sub_cancel]
  refine ⟨fun c hc => ⟨fun n w hw => ?_, ?_⟩, rfl, rfl, fun _ => rfl, ?_⟩
  · have hn : n < c.words.length := (List.getElem?_eq_some_iff.mp hw).1
    show t.ram (place t.regs.csbr _) = w
    rw [hcsbr, ht.ram _ (fun howns => h.placed.code c hc _ howns n hn rfl)
      fun i hi => h.placed.pushes c hc i hi n hn]
    exact (h.ready c hc).loaded n w hw
  · rw [Mn1613HeapCode.again, ← ht.others]
    exact (h.ready c hc).irqLevel ht.masks _ _ _
  · show Placed (Mn1613HeapCode.again L q' t) L (t.regs.sp - 1)
    rw [hsp]
    exact h.placed.congr hcsbr hssbr

/-- The routines from `0010` on, the variables at `00F0` and the region at `0200`. -/
def sampleLayout : Layout := ⟨0x10, 0x20, 0x60, 0xf0, 0xf1, 0x200, 16⟩

/-- A part is taken and given back in turn. -/
def sampleOps : Nat → Request
  | 0 => .init
  | i + 1 => if i % 2 = 0 then .malloc 3 else .free 0x202

/-- A core with the routines and a stack at `0300`. -/
def sampleCore : Core Unit where
  regs := { CpuRegister.default with sp := 0x302 }
  ram p := if p.toNat < 0x20 then sampleLayout.initCode.words.getD (p.toNat - 0x10) 0
    else if p.toNat < 0x60 then sampleLayout.mallocCode.words.getD (p.toNat - 0x20) 0
    else sampleLayout.freeCode.words.getD (p.toNat - 0x60) 0
  execStatus := .running
  stepMode := false
  pendingIrq := 0
  io := ()
  fetches := 0

theorem place_sample (x : U16) : (place 0 x).toNat = x.toNat := by
  have hzero : (0 : U8).toNat = 0 := rfl
  rw [place_toNat, hzero]
  omega

/-- The words of the routines are in front of the variables. -/
theorem sample_addr {c : Code} (hc : c ∈ sampleLayout.codes) {n : Nat} (hn : n < c.words.length) :
    (place 0 (c.addr n)).toNat = c.entry.toNat + n ∧ c.entry.toNat + n < 0xf0 := by
  have hlow : c.entry.toNat + c.words.length < 0xf0 := by
    rcases List.mem_cons.mp hc with rfl | hc
    · exact Nat.le_of_ble_eq_true rfl
    rcases List.mem_cons.mp hc with rfl | hc
    · exact Nat.le_of_ble_eq_true rfl
    · rw [List.mem_singleton.mp hc]
      exact Nat.le_of_ble_eq_true rfl
  have haddr : (c.addr n).toNat = (c.entry.toNat + n % 65536) % 65536 := rfl
  rw [place_sample, haddr]
  omega

theorem sample_owns {p : BitVec 18} (hp : sampleLayout.Owns sampleCore p) :
    0xf0 ≤ p.toNat ∧ p.toNat < 0x210 := by
  have hcsbr : sampleCore.regs.csbr = 0 := rfl
  rw [Layout.Owns, hcsbr] at hp
  rcases hp with ⟨x, ⟨hlow, hhigh⟩, rfl⟩ | rfl | rfl
  · have hbase : sampleLayout.base.toNat = 0x200 := rfl
    have hstop : sampleLayout.stop = 0x210 := rfl
    rw [place_sample]
    omega
  · rw [place_sample]
    exact ⟨Nat.le_of_ble_eq_true rfl, Nat.le_of_ble_eq_true rfl⟩
  · rw [place_sample]
    exact ⟨Nat.le_of_ble_eq_true rfl, Nat.le_of_ble_eq_true rfl⟩

theorem sample_stack {i : Nat} (hi : i < 4) :
    (stackWord sampleCore 0x301 i).toNat = 0x302 - i := by
  have hssbr : sampleCore.regs.ssbr = 0 := rfl
  rw [stackWord, hssbr, place_sample]
  bv_omega

theorem sample_placed : Placed sampleCore sampleLayout 0x301 where
  room := Nat.le_of_ble_eq_true rfl
  stop := Nat.le_of_ble_eq_true rfl
  adr h := absurd h.1 (by decide)
  size h := absurd h.1 (by decide)
  vars := by decide
  code := by
    intro c hc p hp n hn heq
    have haddr := sample_addr hc hn
    have howns := sample_owns hp
    rw [← heq, show sampleCore.regs.csbr = 0 from rfl] at howns
    omega
  pushes := by
    intro c hc i hi n hn heq
    have haddr := sample_addr hc hn
    have hstack := sample_stack (Nat.succ_lt_succ hi)
    rw [← heq, show sampleCore.regs.csbr = 0 from rfl] at hstack
    omega
  stack := by
    intro p hp i hi heq
    have howns := sample_owns hp
    rw [← heq, sample_stack hi] at howns
    omega

theorem sample_loaded {c : Code} (hc : c ∈ sampleLayout.codes) (n : Nat) (w : U16)
    (hw : c.words[n]? = some w) : sampleCore.ram (place 0 (c.addr n)) = w := by
  have hn := (List.getElem?_eq_some_iff.mp hw).1
  have haddr := (sample_addr hc hn).1
  have hget : c.words.getD (c.entry.toNat + n - c.entry.toNat) 0 = w := by
    rw [Nat.add_sub_cancel_left, List.getD_eq_getElem?_getD, hw]
    rfl
  rw [← hget]
  rcases List.mem_cons.mp hc with rfl | hc
  · have hlength : sampleLayout.initCode.words.length = 13 := rfl
    have hentry : sampleLayout.initCode.entry.toNat = 0x10 := rfl
    show ite _ _ _ = _
    rw [haddr, hentry, if_pos (by omega)]
  rcases List.mem_cons.mp hc with rfl | hc
  · have hlength : sampleLayout.mallocCode.words.length = 64 := rfl
    have hentry : sampleLayout.mallocCode.entry.toNat = 0x20 := rfl
    show ite _ _ _ = _
    rw [haddr, hentry, if_neg (by omega), if_pos (by omega)]
  · obtain rfl := List.mem_singleton.mp hc
    have hentry : sampleLayout.freeCode.entry.toNat = 0x60 := rfl
    show ite _ _ _ = _
    rw [haddr, hentry, if_neg (by omega), if_neg (by omega)]

theorem sampleCore_asks :
    Asks sampleLayout (sampleOps 0) (again sampleLayout (sampleOps 0) sampleCore) where
  ready _ hc := ⟨sample_loaded hc, rfl⟩
  ic := rfl
  argument := rfl
  words _ := rfl
  placed := sample_placed.congr rfl rfl

theorem heap_session_sample :
    ∃ live asked answered, live 0 = [] ∧ asked 0 = again sampleLayout .init sampleCore ∧
      Session (step Mn1613Random.sampleIo)
        (fun live q s => Asks sampleLayout q s ∧ (q = .init ∨ Heaped sampleLayout live s))
        (Answers sampleLayout) (fun q t live => q.after (t.regs.r 0) live) sampleOps
        (fun i _ => again sampleLayout (sampleOps (i + 1))) live asked answered ∧
      ∀ i, Separate sampleLayout (live i) :=
  heap_session rfl sampleCore_asks (fun _ _ _ _ h ht => h.again ht)
    fun _ _ _ => ⟨rfl, rfl, fun _ _ _ => rfl⟩

end Sample

end Mn1613HeapCode
end BootMonitor
end RetroCpu
