import Mathlib.Logic.Function.Basic

/-!
# The heap of the TMS9995 monitor (`tms9995/bios/bios_common.asm`)

The routines as programs on the registers, the variables of the allocator and the memory, which
has bytes; an access to a word leaves the lowest bit of its address out.  The sizes of the heap
count words, but the pointers move by bytes.
-/

namespace RetroCpu
namespace BootMonitor
namespace Tms9995Heap

section Routines

abbrev Word := BitVec 16

structure Heap where
  GL_ALLOC_ADR : Word
  GL_ALLOC_SIZE : Word
  /-- The words of the memory. -/
  mem : Nat → Word

def Heap.load (h : Heap) (address : Word) : Word := h.mem (address.toNat / 2)

def Heap.store (h : Heap) (address value : Word) : Heap :=
  { h with mem := Function.update h.mem (address.toNat / 2) value }

def GL_HEAP_HDR : Word := 2

/-- `g_malloc_init` -/
def g_malloc_init (R2 R3 : Word) (h : Heap) : Heap :=
  let h := { h with GL_ALLOC_ADR := R2, GL_ALLOC_SIZE := R3 }
  if R3 < GL_HEAP_HDR then h else (h.store R2 R3).store (R2 + 2) 0

/-- `l_m_scan`: a block of `R2` words is looked for, from `R5` on; `R4` is the size of the heap. -/
def l_m_scan (R2 R4 : Word) : Nat → Word → Heap → Option (Word × Heap)
  | 0, _, _ => none
  | fuel + 1, R5, h =>
      let R3 := h.load R5
      if h.load (R5 + 2) ≠ 0 ∨ R3 < R2 then
        -- l_m_next
        let R5 := R5 + R3
        if R5 < h.GL_ALLOC_ADR + R4 then l_m_scan R2 R4 fuel R5 h else some (0, h)
      else
        let R0 := R3 - R2
        if R0 < GL_HEAP_HDR then
          -- l_m_take
          some (R5 + 4, h.store (R5 + 2) 1)
        else
          let h := (h.store R5 R2).store (R5 + 2) 1
          let R5 := R5 + R2
          let h := (h.store R5 R0).store (R5 + 2) 0
          some (R5 - R2 + 4, h)

/-- `g_malloc_` -/
def g_malloc_ (fuel : Nat) (R2 : Word) (h : Heap) : Option (Word × Heap) :=
  if R2 = 0 then some (0, h)
  else
    let R2 := R2 + GL_HEAP_HDR
    if h.GL_ALLOC_SIZE < GL_HEAP_HDR then some (0, h)
    else l_m_scan R2 h.GL_ALLOC_SIZE fuel h.GL_ALLOC_ADR h

/-- `g_free_` -/
def g_free_ (R2 : Word) (h : Heap) : Word × Heap :=
  if R2 = 0 then (0, h)
  else
    let R2 := R2 + -4
    if h.load (R2 + 2) ≠ 1 then (0, h) else (R2 + 4, h.store (R2 + 2) 0)

end Routines

section Runs

/-- A call has a result, whatever the rounds that it is given beyond enough. -/
def Returns {α : Type} (f : Nat → Option α) (result : α) : Prop :=
  ∃ rounds, ∀ fuel ≥ rounds, f fuel = some result

/-- The places at which the scan sees a block. -/
inductive IsBlock (h : Heap) : Word → Prop
  | first : IsBlock h h.GL_ALLOC_ADR
  | next {R5 : Word} (hblock : IsBlock h R5)
      (hlow : R5 + h.load R5 < h.GL_ALLOC_ADR + h.GL_ALLOC_SIZE) : IsBlock h (R5 + h.load R5)

/-- The bytes of two ranges are different ones. -/
def Apart (p n q m : Nat) : Prop := p + n ≤ q ∨ q + m ≤ p

/-- The parts in use lie in the heap, away from each other and from the headers. -/
structure Sound (a s : Word) (h : Heap) (live : List (Word × Word)) : Prop where
  inside : ∀ e ∈ live, a.toNat ≤ e.1.toNat ∧
    e.1.toNat + 2 * e.2.toNat ≤ a.toNat + 2 * s.toNat
  apart : live.Pairwise fun e f => Apart e.1.toNat (2 * e.2.toNat) f.1.toNat (2 * f.2.toNat)
  headers : ∀ e ∈ live, ∀ R5, IsBlock h R5 → Apart e.1.toNat (2 * e.2.toNat) R5.toNat 4

/-- A call that the routines are good for: an allocation splits no block, and what is given back
is in use, or is not marked as a part in use. -/
inductive Call
  | malloc (n : Word)
  | free (p : Word)
deriving DecidableEq

def Call.Good (s : Word) (h : Heap) (live : List (Word × Word)) : Call → Prop
  | .malloc n => live = [] → n = 0 ∨ (n.toNat + 2 < 65536 ∧ s.toNat < n.toNat + 4)
  | .free p => p = 0 ∨ (∃ n, (p, n) ∈ live) ∨ h.load (p + -4 + 2) ≠ 1

/-- The parts in use after a call with the answer `r`. -/
def Call.after (live : List (Word × Word)) (r : Word) : Call → List (Word × Word)
  | .malloc n => if r = 0 then live else (r, n) :: live
  | .free p => if r = 0 then live else live.filter (·.1 ≠ p)

/-- The results of a call. -/
def Call.Result (h : Heap) (r : Word) (h' : Heap) : Call → Prop
  | .malloc n => Returns (g_malloc_ · n h) (r, h')
  | .free p => g_free_ p h = (r, h')

/-- The heaps that good calls lead to, with the parts in use, into which their users write. -/
inductive Reachable (a s : Word) : Heap → List (Word × Word) → Prop
  | init (h : Heap) : Reachable a s (g_malloc_init a s h) []
  | call {h h' : Heap} {live : List (Word × Word)} {r : Word} (c : Call)
      (hreach : Reachable a s h live) (hgood : c.Good s h live) (hresult : c.Result h r h') :
      Reachable a s h' (c.after live r)
  | write {h : Heap} {live : List (Word × Word)} {e : Word × Word} (address value : Word)
      (hreach : Reachable a s h live) (he : e ∈ live) (hlow : e.1.toNat ≤ address.toNat)
      (hhigh : address.toNat < e.1.toNat + 2 * e.2.toNat) : Reachable a s (h.store address value) live

/-- What a call has to do. -/
def Call.Spec (a s : Word) (h : Heap) (live : List (Word × Word)) (r : Word) (h' : Heap) :
    Call → Prop
  | .malloc n =>
      Sound a s h' (Call.after live r (.malloc n)) ∧
      ((∀ R5, IsBlock h R5 → h.load (R5 + 2) = 0 → (h.load R5).toNat < n.toNat + 2) → r = 0) ∧
      (live = [] → n ≠ 0 → n.toNat + 2 = s.toNat → r ≠ 0)
  | .free p =>
      Sound a s h' (Call.after live r (.free p)) ∧
      ((∃ n, (p, n) ∈ live) → r = p) ∧ ((¬ ∃ n, (p, n) ∈ live) → r = 0 ∧ h' = h)

end Runs

section OneBlock

variable {a s : Word} {h h' : Heap} {live : List (Word × Word)}

theorem Call.after_zero (live : List (Word × Word)) (c : Call) : c.after live 0 = live := by
  cases c <;> rw [Call.after, if_pos rfl]

theorem load_store (h : Heap) (x y v : Word) :
    (h.store x v).load y = if y.toNat / 2 = x.toNat / 2 then v else h.load y := by
  rw [Heap.load, Heap.store]
  dsimp only
  rw [Function.update_apply]
  rfl

/-- The heap is one block, and free or in use as a whole. -/
structure OneBlock (a s : Word) (h : Heap) (live : List (Word × Word)) : Prop where
  adr : h.GL_ALLOC_ADR = a
  size : h.GL_ALLOC_SIZE = s
  header : 2 ≤ s.toNat → h.load a = s
  mark : (live = [] ∧ (2 ≤ s.toNat → h.load (a + 2) = 0)) ∨
    ∃ n, live = [(a + 4, n)] ∧ h.load (a + 2) = 1 ∧ n ≠ 0 ∧ n.toNat + 2 ≤ s.toNat ∧
      s.toNat < n.toNat + 4

theorem OneBlock.isBlock (hone : OneBlock a s h live) (hs : 2 ≤ s.toNat) {R5 : Word}
    (hblock : IsBlock h R5) : R5 = a := by
  induction hblock with
  | first => exact hone.adr
  | next _ hlow ih =>
      rw [ih, hone.adr, hone.size, hone.header hs] at hlow
      exact absurd hlow (BitVec.lt_irrefl _)

theorem toNat_add_of_room {k : Nat} (hk : a.toNat + k < 65536) :
    (a + BitVec.ofNat 16 k).toNat = a.toNat + k := by
  rw [BitVec.toNat_add, BitVec.toNat_ofNat]
  omega

theorem OneBlock.sound (hone : OneBlock a s h live) (hroom : a.toNat + 2 * s.toNat ≤ 65536) :
    Sound a s h live := by
  rcases hone.mark with ⟨rfl, _⟩ | ⟨n, rfl, _, hn, hlow, hhigh⟩
  · exact ⟨nofun, List.Pairwise.nil, nofun⟩
  · have hpos : n.toNat ≠ 0 := fun hzero => hn (BitVec.eq_of_toNat_eq hzero)
    have hp : (a + 4).toNat = a.toNat + 4 := toNat_add_of_room (k := 4) (by omega)
    refine ⟨?_, List.pairwise_singleton _ _, ?_⟩
    · intro e he
      rw [List.mem_singleton.mp he, hp]
      dsimp only
      omega
    · intro e he R5 hblock
      rw [List.mem_singleton.mp he, hone.isBlock (by omega) hblock, Apart, hp]
      exact .inr (Nat.le_refl _)

theorem oneBlock_init (heven : a.toNat % 2 = 0) (hroom : a.toNat + 2 * s.toNat ≤ 65536)
    (h : Heap) : OneBlock a s (g_malloc_init a s h) [] := by
  by_cases hs : s.toNat < 2
  · have hinit : g_malloc_init a s h = { h with GL_ALLOC_ADR := a, GL_ALLOC_SIZE := s } :=
      if_pos (BitVec.lt_def.mpr hs)
    rw [hinit]
    exact ⟨rfl, rfl, fun hle => absurd hs (Nat.not_lt.mpr hle),
      .inl ⟨rfl, fun hle => absurd hs (Nat.not_lt.mpr hle)⟩⟩
  · have hinit : g_malloc_init a s h =
        (({ h with GL_ALLOC_ADR := a, GL_ALLOC_SIZE := s } : Heap).store a s).store (a + 2) 0 :=
      if_neg fun hlt => hs (BitVec.lt_def.mp hlt)
    have hmark : (a + 2).toNat = a.toNat + 2 := toNat_add_of_room (k := 2) (by omega)
    rw [hinit]
    refine ⟨rfl, rfl, fun _ => ?_, .inl ⟨rfl, fun _ => ?_⟩⟩
    · rw [load_store, hmark, if_neg (by omega), load_store, if_pos rfl]
    · rw [load_store, if_pos rfl]

/-- A store to the mark keeps the size of the block. -/
theorem OneBlock.header_store (hone : OneBlock a s h live) (heven : a.toNat % 2 = 0)
    (hroom : a.toNat + 2 * s.toNat ≤ 65536) (v : Word) (hs : 2 ≤ s.toNat) :
    (h.store (a + 2) v).load a = s := by
  have hmark : (a + 2).toNat = a.toNat + 2 := toNat_add_of_room (k := 2) (by omega)
  rw [load_store, hmark, if_neg (by omega)]
  exact hone.header hs

theorem OneBlock.malloc (hone : OneBlock a s h live) (heven : a.toNat % 2 = 0)
    (hroom : a.toNat + 2 * s.toNat ≤ 65536) {n : Word}
    (hgood : (Call.malloc n).Good s h live) :
    ∃ r h', (Call.malloc n).Result h r h' ∧ OneBlock a s h' ((Call.malloc n).after live r) ∧
      (Call.malloc n).Spec a s h live r h' := by
  have hsound := hone.sound hroom
  have hfails (hcall : ∀ fuel, g_malloc_ (fuel + 1) n h = some (0, h))
      (hfull : live = [] → n ≠ 0 → n.toNat + 2 = s.toNat → False) :
      ∃ r h', (Call.malloc n).Result h r h' ∧ OneBlock a s h' ((Call.malloc n).after live r) ∧
        (Call.malloc n).Spec a s h live r h' := by
    have hafter := Call.after_zero live (.malloc n)
    refine ⟨0, h, ⟨1, fun fuel hfuel => ?_⟩, ?_, ?_, fun _ => rfl, fun hnil hn heq =>
      (hfull hnil hn heq).elim⟩
    · obtain ⟨k, rfl⟩ := Nat.exists_eq_succ_of_ne_zero (Nat.ne_of_gt hfuel)
      exact hcall k
    · rw [hafter]
      exact hone
    · rw [hafter]
      exact hsound
  by_cases hn : n = 0
  · exact hfails (fun fuel => if_pos hn) fun _ hne _ => hne hn
  have hpos : n.toNat ≠ 0 := fun hzero => hn (BitVec.eq_of_toNat_eq hzero)
  by_cases hs : s.toNat < 2
  · refine hfails (fun fuel => ?_) fun _ _ heq => by omega
    rw [g_malloc_, if_neg hn, hone.size]
    exact if_pos (BitVec.lt_def.mpr hs)
  have hs' : 2 ≤ s.toNat := Nat.not_lt.mp hs
  have hcall (fuel : Nat) : g_malloc_ (fuel + 1) n h = l_m_scan (n + GL_HEAP_HDR) s (fuel + 1) a h := by
    rw [g_malloc_, if_neg hn, hone.size, hone.adr]
    exact if_neg fun hlt => hs (BitVec.lt_def.mp hlt)
  have hnext (hskip : h.load (a + 2) ≠ 0 ∨ s < n + GL_HEAP_HDR) (fuel : Nat) :
      g_malloc_ (fuel + 1) n h = some (0, h) := by
    rw [hcall, l_m_scan, hone.header hs', hone.adr]
    dsimp only
    rw [if_pos hskip, if_neg (BitVec.lt_irrefl _)]
  rcases hone.mark with ⟨rfl, hfree⟩ | ⟨m, rfl, hused, hm⟩
  · obtain ⟨hwrap, hsplit⟩ := (hgood rfl).resolve_left hn
    have hneed : (n + GL_HEAP_HDR).toNat = n.toNat + 2 := toNat_add_of_room (k := 2) hwrap
    by_cases hlarge : s.toNat < n.toNat + 2
    · refine hfails (hnext (.inr ?_)) fun _ _ heq => by omega
      rw [BitVec.lt_def, hneed]
      exact hlarge
    · have hp : (a + 4).toNat = a.toNat + 4 := toNat_add_of_room (k := 4) (by omega)
      have hne : a + 4 ≠ 0 := by
        intro hzero
        rw [hzero] at hp
        exact absurd hp.symm (Nat.succ_ne_zero _)
      have hafter : (Call.malloc n).after [] (a + 4) = [(a + 4, n)] := if_neg hne
      have hnew : OneBlock a s (h.store (a + 2) 1) [(a + 4, n)] := by
        refine ⟨hone.adr, hone.size, hone.header_store heven hroom 1,
          .inr ⟨n, rfl, ?_, hn, by omega, hsplit⟩⟩
        rw [load_store, if_pos rfl]
      refine ⟨a + 4, h.store (a + 2) 1, ⟨1, fun fuel hfuel => ?_⟩, ?_, ?_, fun hfull => ?_,
        fun _ _ _ => hne⟩
      · obtain ⟨k, rfl⟩ := Nat.exists_eq_succ_of_ne_zero (Nat.ne_of_gt hfuel)
        have htake : ¬ (h.load (a + 2) ≠ 0 ∨ s < n + GL_HEAP_HDR) := by
          rw [hfree hs', BitVec.lt_def, hneed]
          exact fun hskip => hskip.elim (fun hne => hne rfl) hlarge
        have hrest : s - (n + GL_HEAP_HDR) < GL_HEAP_HDR := by
          rw [BitVec.lt_def, BitVec.toNat_sub, hneed]
          have hheader : GL_HEAP_HDR.toNat = 2 := rfl
          have := s.isLt
          omega
        dsimp only
        rw [hcall, l_m_scan, hone.header hs']
        dsimp only
        rw [if_neg htake, if_pos hrest]
      · rw [hafter]
        exact hnew
      · rw [hafter]
        exact hnew.sound hroom
      · have := hfull a (hone.adr ▸ .first) (hfree hs')
        rw [hone.header hs'] at this
        omega
  · refine hfails (hnext (.inl ?_)) fun hnil _ _ => ?_
    · rw [hused]
      decide
    · cases hnil

theorem OneBlock.free (hone : OneBlock a s h live) (heven : a.toNat % 2 = 0)
    (hroom : a.toNat + 2 * s.toNat ≤ 65536) {p : Word} (hgood : (Call.free p).Good s h live) :
    ∃ r h', (Call.free p).Result h r h' ∧ OneBlock a s h' ((Call.free p).after live r) ∧
      (Call.free p).Spec a s h live r h' := by
  have hback (x : Word) : x + 4 + -4 + 2 = x + 2 := by
    rw [BitVec.add_assoc x 4, show (4 : Word) + -4 = 0#16 by decide, BitVec.add_zero]
  by_cases hlive : ∃ n, (p, n) ∈ live
  · obtain ⟨n, hmem⟩ := hlive
    rcases hone.mark with ⟨rfl, _⟩ | ⟨m, rfl, hused, hm, hlow, hhigh⟩
    · cases hmem
    · cases List.mem_singleton.mp hmem
      have hpos : n.toNat ≠ 0 := fun hzero => hm (BitVec.eq_of_toNat_eq hzero)
      have hp : (a + 4).toNat = a.toNat + 4 := toNat_add_of_room (k := 4) (by omega)
      have hne : a + 4 ≠ 0 := by
        intro hzero
        rw [hzero] at hp
        exact absurd hp.symm (Nat.succ_ne_zero _)
      have hcall : g_free_ (a + 4) h = (a + 4, h.store (a + 2) 0) := by
        rw [g_free_, if_neg hne]
        dsimp only
        rw [hback, hused, if_neg (fun hne => hne rfl), BitVec.add_assoc (a + 4),
          show (-4 : Word) + 4 = 0#16 by decide, BitVec.add_zero]
      have hafter : (Call.free (a + 4)).after [(a + 4, n)] (a + 4) = [] := by
        rw [Call.after, if_neg hne, List.filter_cons_of_neg]
        · rfl
        · exact fun h => absurd rfl (decide_eq_true_iff.mp h)
      have hnew : OneBlock a s (h.store (a + 2) 0) [] := by
        refine ⟨hone.adr, hone.size, hone.header_store heven hroom 0, .inl ⟨rfl, fun _ => ?_⟩⟩
        rw [load_store, if_pos rfl]
      refine ⟨a + 4, h.store (a + 2) 0, hcall, ?_, ?_, fun _ => rfl, fun hnot =>
        absurd ⟨n, hmem⟩ hnot⟩
      · rw [hafter]
        exact hnew
      · rw [hafter]
        exact hnew.sound hroom
  · have hcall : g_free_ p h = (0, h) := by
      rw [g_free_]
      by_cases hp : p = 0
      · rw [if_pos hp]
      · rw [if_neg hp]
        rcases hgood with hzero | hmem | hmark
        · exact absurd hzero hp
        · exact absurd hmem hlive
        · exact if_pos hmark
    have hafter := Call.after_zero live (.free p)
    refine ⟨0, h, hcall, ?_, ?_, fun hmem => absurd hmem hlive, fun _ => ⟨rfl, rfl⟩⟩
    · rw [hafter]
      exact hone
    · rw [hafter]
      exact hone.sound hroom

theorem OneBlock.write (hone : OneBlock a s h live) (heven : a.toNat % 2 = 0)
    (hroom : a.toNat + 2 * s.toNat ≤ 65536) {e : Word × Word} (he : e ∈ live) {address : Word}
    (value : Word) (hlow : e.1.toNat ≤ address.toNat)
    (hhigh : address.toNat < e.1.toNat + 2 * e.2.toNat) :
    OneBlock a s (h.store address value) live := by
  rcases hone.mark with ⟨rfl, _⟩ | ⟨n, rfl, hused, hn, hsize, hsize'⟩
  · cases he
  · obtain rfl := List.mem_singleton.mp he
    have hpos : n.toNat ≠ 0 := fun hzero => hn (BitVec.eq_of_toNat_eq hzero)
    have hp : (a + 4).toNat = a.toNat + 4 := toNat_add_of_room (k := 4) (by omega)
    have hmark : (a + 2).toNat = a.toNat + 2 := toNat_add_of_room (k := 2) (by omega)
    rw [hp] at hlow
    refine ⟨hone.adr, hone.size, fun hs => ?_, .inr ⟨n, rfl, ?_, hn, hsize, hsize'⟩⟩
    · rw [load_store, if_neg (by omega)]
      exact hone.header hs
    · rw [load_store, hmark, if_neg (by omega)]
      exact hused

theorem Reachable.oneBlock (heven : a.toNat % 2 = 0) (hroom : a.toNat + 2 * s.toNat ≤ 65536)
    (hreach : Reachable a s h live) : OneBlock a s h live := by
  induction hreach with
  | init h => exact oneBlock_init heven hroom h
  | call c _ hgood hresult ih =>
      cases c with
      | malloc n =>
          obtain ⟨r, h', hcall, hone, _⟩ := ih.malloc heven hroom hgood
          obtain ⟨k, hk⟩ := hcall
          obtain ⟨k', hk'⟩ := hresult
          have heq := (hk (max k k') (Nat.le_max_left _ _)).symm.trans (hk' _ (Nat.le_max_right _ _))
          cases heq
          exact hone
      | free p =>
          obtain ⟨r, h', hcall, hone, _⟩ := ih.free heven hroom hgood
          cases hcall.symm.trans hresult
          exact hone
  | write address value _ he hlow hhigh ih => exact ih.write heven hroom he value hlow hhigh

end OneBlock

section Overlap

/-- The heap of the monitor after two requests for four words. -/
def twoRequests : Option (Word × Word) := do
  let h := g_malloc_init 0xe000 0xc00 ⟨0, 0, fun _ => 0⟩
  let (p, h) ← g_malloc_ 9 4 h
  let (q, _) ← g_malloc_ 9 4 h
  return (p, q)

end Overlap

end Tms9995Heap
end BootMonitor
end RetroCpu
