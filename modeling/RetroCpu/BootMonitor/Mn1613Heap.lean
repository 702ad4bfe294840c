import Mathlib.Logic.Function.Basic
import RetroCpu.Lib.FirstFit

/-!
# The heap of the MN1613 monitor (`mn1613/bios/bios_common.asm`)

The routines as programs on the registers, the variables of the allocator and the memory of
the heap.  What is pushed and popped is kept in a local name; a loop counts its rounds down, so
that one that does not end has no result.
-/

namespace RetroCpu
namespace BootMonitor
namespace Mn1613Heap

open FirstFit

section Routines

abbrev Word := BitVec 16

structure Heap where
  GL_ALLOC_ADR : Word
  GL_ALLOC_SIZE : Word
  mem : Word → Word

/-- `st` -/
def Heap.store (h : Heap) (address value : Word) : Heap :=
  { h with mem := Function.update h.mem address value }

def GL_HEAP_HDR : Word := 2

def GL_HEAP_USED : Word := 1

/-- `g_malloc_init` -/
def g_malloc_init (R0 R1 : Word) (h : Heap) : Heap :=
  let h := { h with GL_ALLOC_ADR := R0, GL_ALLOC_SIZE := R1 }
  if R1 ≥ GL_HEAP_HDR then (h.store R0 R1).store (R0 + 1) 0 else h

/-- `l_m_lp`: a block of `R1` words is looked for, from `R2` up to `R4`. -/
def l_m_lp (R1 R4 : Word) : Nat → Word → Heap → Option (Word × Heap)
  | 0, _, _ => none
  | fuel + 1, R2, h =>
      if R2 ≥ R4 then some (0, h)
      else
        let R0 := h.mem R2
        if R0 < GL_HEAP_HDR then some (0, h)
        else if BitVec.uaddOverflow R2 R0 then some (0, h)
        else if R4 < R2 + R0 then some (0, h)
        else if h.mem (R2 + 1) ≠ 0 then l_m_lp R1 R4 fuel (R2 + h.mem R2) h
        else if R0 < R1 then l_m_lp R1 R4 fuel (R2 + h.mem R2) h
        else
          let R0 := R0 - R1
          if R0 ≥ GL_HEAP_HDR then
            let h := (h.store R2 R1).store (R2 + 1) GL_HEAP_USED
            let X0 := R2 + R1
            some (R2 + GL_HEAP_HDR, (h.store X0 R0).store (X0 + 1) 0)
          else
            -- l_m_take
            some (R2 + GL_HEAP_HDR, h.store (R2 + 1) GL_HEAP_USED)

/-- `g_malloc_` -/
def g_malloc_ (fuel : Nat) (R0 : Word) (h : Heap) : Option (Word × Heap) :=
  if R0 = 0 then some (0, h)
  else
    let R1 := R0 + GL_HEAP_HDR
    if R1 ≤ R0 then some (0, h)
    else if h.GL_ALLOC_SIZE < GL_HEAP_HDR then some (0, h)
    else l_m_lp R1 (h.GL_ALLOC_SIZE + h.GL_ALLOC_ADR) fuel h.GL_ALLOC_ADR h

/-- `l_f_lp`: the block at `R1` is looked for; the answer is its place at `l_f_hit`, or none at
`l_f_fail1`. -/
def l_f_lp (R1 R4 : Word) : Nat → Word → Heap → Option (Option Word)
  | 0, _, _ => none
  | fuel + 1, R2, h =>
      if R2 ≥ R4 then some none
      else if R2 = R1 then some (some R2)
      else
        let R0 := h.mem R2
        if R0 < GL_HEAP_HDR then some none
        else if BitVec.uaddOverflow R2 R0 then some none
        else if R4 < R2 + R0 then some none
        else l_f_lp R1 R4 fuel (R2 + R0) h

/-- `l_c_lp`: free neighbours are joined, from `R2` on. -/
def l_c_lp (R4 : Word) : Nat → Word → Heap → Option Heap
  | 0, _, _ => none
  | fuel + 1, R2, h =>
      if R2 ≥ R4 then some h
      else
        let R0 := h.mem R2
        if R0 < GL_HEAP_HDR then some h
        else if BitVec.uaddOverflow R2 R0 then some h
        else
          let R3 := R2 + R0
          if R4 < R3 then some h
          else if R3 = R4 then some h
          else if h.mem (R2 + 1) ≠ 0 then l_c_lp R4 fuel (R2 + h.mem R2) h
          else if h.mem (R3 + 1) ≠ 0 then l_c_lp R4 fuel (R2 + h.mem R2) h
          else l_c_lp R4 fuel R2 (h.store R2 (h.mem R2 + h.mem R3))

/-- `g_free_` -/
def g_free_ (fuel : Nat) (R0 : Word) (h : Heap) : Option (Word × Heap) :=
  if R0 = 0 then some (0, h)
  else if h.GL_ALLOC_SIZE < GL_HEAP_HDR then some (0, h)
  else do
    let R4 := h.GL_ALLOC_SIZE + h.GL_ALLOC_ADR
    match ← l_f_lp (R0 - GL_HEAP_HDR) R4 fuel h.GL_ALLOC_ADR h with
    | none => some (0, h)
    | some R2 =>
        -- l_f_hit
        if h.mem (R2 + 1) ≠ GL_HEAP_USED then some (0, h)
        else do
          let h := h.store (R2 + 1) 0
          let h ← l_c_lp (h.GL_ALLOC_SIZE + h.GL_ALLOC_ADR) fuel h.GL_ALLOC_ADR h
          some (R0, h)

end Routines

section Words

/-- A number as a word. -/
def word (n : Nat) : Word := BitVec.ofNat 16 n

theorem toNat_word {n : Nat} (h : n < 65536) : (word n).toNat = n := by
  rw [word, BitVec.toNat_ofNat, Nat.mod_eq_of_lt h]

theorem word_toNat (x : Word) : word x.toNat = x := BitVec.eq_of_toNat_eq (toNat_word x.isLt)

theorem word_add (m n : Nat) : word m + word n = word (m + n) := (BitVec.ofNat_add m n).symm

theorem word_succ (n : Nat) : word n + 1 = word (n + 1) := word_add n 1

theorem word_inj {m n : Nat} (hm : m < 65536) (hn : n < 65536) : word m = word n ↔ m = n := by
  rw [← BitVec.toNat_inj, toNat_word hm, toNat_word hn]

theorem word_lt {m n : Nat} (hm : m < 65536) (hn : n < 65536) : word m < word n ↔ m < n := by
  rw [BitVec.lt_def, toNat_word hm, toNat_word hn]

theorem word_le {m n : Nat} (hm : m < 65536) (hn : n < 65536) : word m ≤ word n ↔ m ≤ n := by
  rw [BitVec.le_def, toNat_word hm, toNat_word hn]

theorem word_sub {m n : Nat} (hm : m < 65536) (hn : n ≤ m) : word m - word n = word (m - n) := by
  apply BitVec.eq_of_toNat_eq
  rw [BitVec.toNat_sub, toNat_word hm, toNat_word (by omega), toNat_word (by omega)]
  omega

theorem word_overflow {m n : Nat} (h : m + n < 65536) :
    BitVec.uaddOverflow (word m) (word n) = false := by
  rw [BitVec.uaddOverflow, toNat_word (by omega), toNat_word (by omega)]
  exact decide_eq_false (by omega)

theorem store_mem {h : Heap} {a x : Nat} {v : Word} (ha : a < 65536) (hx : x < 65536) :
    (h.store (word a) v).mem (word x) = if x = a then v else h.mem (word x) := by
  rw [Heap.store]
  dsimp only
  rw [Function.update_apply]
  by_cases heq : x = a
  · rw [if_pos heq, if_pos (congrArg word heq)]
  · rw [if_neg heq, if_neg fun hw => heq ((word_inj hx ha).mp hw)]

end Words

section Layout

/-- The headers of a row of blocks: the size, and whether the block is in use. -/
def Laid (mem : Word → Word) : Nat → List Block → Prop
  | _, [] => True
  | base, b :: bs =>
      mem (word base) = word b.size ∧
      mem (word (base + 1)) = (if b.user = none then 0 else GL_HEAP_USED) ∧
      Laid mem (base + b.size) bs

variable {mem mem' : Word → Word} {base : Nat} {blocks : List Block}

theorem Laid.congr (h : Laid mem base blocks) (hok : ∀ b ∈ blocks, b.Ok 2)
    (heq : ∀ x, base ≤ x → x < base + span blocks → mem' (word x) = mem (word x)) :
    Laid mem' base blocks := by
  induction blocks generalizing base with
  | nil => trivial
  | cons b blocks ih =>
      have hroom := (hok b List.mem_cons_self).room
      rw [span] at heq
      refine ⟨?_, ?_, ih h.2.2 (fun b hb => hok b (List.mem_cons_of_mem _ hb)) fun x hx hx' => ?_⟩
      · rw [heq base (le_refl _) (by omega)]
        exact h.1
      · rw [heq (base + 1) (by omega) (by omega)]
        exact h.2.1
      · exact heq x (by omega) (by omega)

/-- The variables and what stands below a place are as before. -/
structure SameBelow (base : Nat) (h h' : Heap) : Prop where
  adr : h'.GL_ALLOC_ADR = h.GL_ALLOC_ADR
  size : h'.GL_ALLOC_SIZE = h.GL_ALLOC_SIZE
  mem : ∀ x < base, h'.mem (word x) = h.mem (word x)

theorem SameBelow.refl (base : Nat) (h : Heap) : SameBelow base h h := ⟨rfl, rfl, fun _ _ => rfl⟩

theorem SameBelow.mono {base' : Nat} {h h' : Heap} (hsame : SameBelow base' h h')
    (hle : base ≤ base') : SameBelow base h h' :=
  ⟨hsame.adr, hsame.size, fun x hx => hsame.mem x (lt_of_lt_of_le hx hle)⟩

theorem SameBelow.trans {h h' h'' : Heap} (h₁ : SameBelow base h h') (h₂ : SameBelow base h' h'') :
    SameBelow base h h'' :=
  ⟨h₂.adr.trans h₁.adr, h₂.size.trans h₁.size, fun x hx => (h₂.mem x hx).trans (h₁.mem x hx)⟩

theorem SameBelow.store {h : Heap} {a : Nat} (v : Word) (hle : base ≤ a) (ha : a < 65536) :
    SameBelow base h (h.store (word a) v) := by
  refine ⟨rfl, rfl, fun x hx => ?_⟩
  rw [store_mem ha (by omega), if_neg (by omega)]

/-- A block in front of blocks that have changed. -/
theorem Laid.cons_of_sameBelow {b : Block} {bs bs' : List Block} {h h' : Heap}
    (hlaid : Laid h.mem base (b :: bs)) (hb : b.Ok 2)
    (hsame : SameBelow (base + b.size) h h') (hrest : Laid h'.mem (base + b.size) bs') :
    Laid h'.mem base (b :: bs') := by
  have hroom := hb.room
  refine ⟨?_, ?_, hrest⟩
  · rw [hsame.mem base (by omega)]
    exact hlaid.1
  · rw [hsame.mem (base + 1) (by omega)]
    exact hlaid.2.1

end Layout

section Scan

variable {n base : Nat} {h : Heap}

/-- What a scan for `n` words leaves behind. -/
def Allocated (n base : Nat) (blocks : List Block) (h : Heap) (r : Word) (h' : Heap) : Prop :=
  (allocate 2 n base blocks = none ∧ r = 0 ∧ h' = h) ∨
  ∃ start blocks', allocate 2 n base blocks = some (start, blocks') ∧ r = word (start + 2) ∧
    Laid h'.mem base blocks' ∧ SameBelow base h h'

/-- A free block with enough room is cut as the blocks are. -/
theorem laid_cut {b : Block} {bs : List Block} (hlaid : Laid h.mem base (b :: bs))
    (hok : ∀ c ∈ b :: bs, c.Ok 2) (hlt : base + span (b :: bs) < 65536)
    (hroom : n + 2 ≤ b.size) (hleft : 2 ≤ b.size - (n + 2)) :
    Laid ((((h.store (word base) (word (n + 2))).store (word (base + 1)) GL_HEAP_USED).store
        (word (base + (n + 2))) (word (b.size - (n + 2)))).store (word (base + (n + 2) + 1)) 0).mem
      base (b.cut 2 n ++ bs) := by
  rw [span] at hlt
  have hmem {x : Nat} (hx : x < 65536) :
      ((((h.store (word base) (word (n + 2))).store (word (base + 1)) GL_HEAP_USED).store
        (word (base + (n + 2))) (word (b.size - (n + 2)))).store (word (base + (n + 2) + 1)) 0).mem
          (word x) =
        if x = base + (n + 2) + 1 then 0 else if x = base + (n + 2) then word (b.size - (n + 2))
        else if x = base + 1 then GL_HEAP_USED else if x = base then word (n + 2)
        else h.mem (word x) := by
    rw [store_mem (by omega) hx, store_mem (by omega) hx, store_mem (by omega) hx,
      store_mem (by omega) hx]
  rw [Block.cut, if_pos hleft]
  refine ⟨?_, ?_, ?_, ?_, ?_⟩
  · rw [hmem (by omega), if_neg (by omega), if_neg (by omega), if_neg (by omega), if_pos rfl]
  · rw [hmem (by omega), if_neg (by omega), if_neg (by omega), if_pos rfl]
    rfl
  · rw [hmem (by dsimp only; omega), if_neg (by dsimp only; omega), if_pos rfl]
  · rw [hmem (by dsimp only; omega), if_pos rfl]
    rfl
  · have hend : base + (n + 2) + (b.size - (n + 2)) = base + b.size := by omega
    dsimp only
    rw [hend]
    refine hlaid.2.2.congr (fun c hc => hok c (List.mem_cons_of_mem _ hc)) fun x hx hx' => ?_
    rw [hmem (by omega), if_neg (by omega), if_neg (by omega), if_neg (by omega), if_neg (by omega)]

/-- A free block that is just large enough is taken whole. -/
theorem laid_whole {b : Block} {bs : List Block} (hlaid : Laid h.mem base (b :: bs))
    (hok : ∀ c ∈ b :: bs, c.Ok 2) (hlt : base + span (b :: bs) < 65536)
    (hleft : ¬ 2 ≤ b.size - (n + 2)) :
    Laid (h.store (word (base + 1)) GL_HEAP_USED).mem base (b.cut 2 n ++ bs) := by
  rw [span] at hlt
  have hroom := (hok b List.mem_cons_self).room
  rw [Block.cut, if_neg hleft]
  refine ⟨?_, ?_, ?_⟩
  · rw [store_mem (by omega) (by omega), if_neg (by omega)]
    exact hlaid.1
  · rw [store_mem (by omega) (by omega), if_pos rfl]
    rfl
  · refine hlaid.2.2.congr (fun c hc => hok c (List.mem_cons_of_mem _ hc)) fun x hx hx' => ?_
    rw [store_mem (by omega) (by omega), if_neg (by omega)]

/-- What every loop sees of a block in front of `stop`. -/
structure Seen (base stop : Nat) (b : Block) : Prop where
  before : ¬ word base ≥ word stop
  header : ¬ word b.size < GL_HEAP_HDR
  noCarry : BitVec.uaddOverflow (word base) (word b.size) = false
  inside : ¬ word stop < word (base + b.size)

theorem seen_block {b : Block} {bs : List Block} {stop : Nat} (hok : ∀ c ∈ b :: bs, c.Ok 2)
    (hstop : stop = base + span (b :: bs)) (hlt : stop < 65536) : Seen base stop b := by
  have hroom := (hok b List.mem_cons_self).room
  rw [span] at hstop
  refine ⟨?_, ?_, word_overflow (by omega), ?_⟩
  · rw [ge_iff_le, word_le hlt (by omega)]
    omega
  · rw [show GL_HEAP_HDR = word 2 from rfl, word_lt (by omega) (by omega)]
    omega
  · rw [word_lt hlt (by omega)]
    omega

theorem flag_ne_zero {b : Block} {flag : Word}
    (h : flag = if b.user = none then 0 else GL_HEAP_USED) : flag ≠ 0 ↔ b.user ≠ none := by
  rw [h]
  split
  · rename_i hfree
    exact iff_of_false (fun hne => hne rfl) (fun hne => hne hfree)
  · rename_i hused
    exact iff_of_true (by decide) hused

/-- The scan goes as the blocks do. -/
theorem l_m_lp_spec {blocks : List Block} {stop fuel : Nat} (hlaid : Laid h.mem base blocks)
    (hok : ∀ b ∈ blocks, b.Ok 2) (hstop : stop = base + span blocks) (hlt : stop < 65536)
    (hn : n + 2 < 65536) (hfuel : blocks.length < fuel) :
    ∃ r h', l_m_lp (word (n + 2)) (word stop) fuel (word base) h = some (r, h') ∧
      Allocated n base blocks h r h' := by
  induction blocks generalizing base fuel with
  | nil =>
      obtain ⟨fuel, rfl⟩ := Nat.exists_eq_succ_of_ne_zero (Nat.ne_of_gt hfuel)
      rw [span, Nat.add_zero] at hstop
      rw [hstop]
      refine ⟨0, h, ?_, .inl ⟨rfl, rfl, rfl⟩⟩
      rw [l_m_lp]
      exact if_pos (BitVec.le_refl _)
  | cons b bs ih =>
      obtain ⟨fuel, rfl⟩ := Nat.exists_eq_succ_of_ne_zero (Nat.ne_of_gt (Nat.zero_lt_of_lt hfuel))
      have hok' : ∀ c ∈ bs, c.Ok 2 := fun c hc => hok c (List.mem_cons_of_mem _ hc)
      have hb := hok b List.mem_cons_self
      have hseen := seen_block hok hstop hlt
      have hflag := flag_ne_zero hlaid.2.1
      have hspan : stop = base + b.size + span bs := by rw [hstop, span, Nat.add_assoc]
      have hroom := hb.room
      have hnext : ¬ (b.user = none ∧ n + 2 ≤ b.size) →
          ∃ r h', l_m_lp (word (n + 2)) (word stop) fuel (word (base + b.size)) h = some (r, h') ∧
            Allocated n base (b :: bs) h r h' := by
        intro hnot
        obtain ⟨r, h', hrun, hall⟩ := ih hlaid.2.2 hok' hspan (Nat.succ_lt_succ_iff.mp hfuel)
        refine ⟨r, h', hrun, ?_⟩
        rcases hall with ⟨hnone, hr, hh⟩ | ⟨start, blocks', hsome, hr, hlaid', hsame⟩
        · left
          rw [allocate, if_neg hnot, hnone]
          exact ⟨rfl, hr, hh⟩
        · right
          refine ⟨start, b :: blocks', ?_, hr, hlaid.cons_of_sameBelow hb hsame hlaid',
            hsame.mono (Nat.le_add_right _ _)⟩
          rw [allocate, if_neg hnot, hsome]
          rfl
      rw [l_m_lp, if_neg hseen.before]
      dsimp only
      rw [hlaid.1, if_neg hseen.header, hseen.noCarry, if_neg Bool.false_ne_true, word_add,
        if_neg hseen.inside, word_succ]
      by_cases hused : h.mem (word (base + 1)) ≠ 0
      · rw [if_pos hused]
        exact hnext fun hfits => hflag.mp hused hfits.1
      · have hfree : b.user = none := Decidable.not_not.mp fun hne => hused (hflag.mpr hne)
        rw [if_neg hused]
        by_cases hsmall : word b.size < word (n + 2)
        · rw [if_pos hsmall]
          rw [word_lt (by omega) hn] at hsmall
          exact hnext fun hfits => absurd hfits.2 (by omega)
        · rw [if_neg hsmall]
          rw [word_lt (by omega) hn, Nat.not_lt] at hsmall
          have htake : allocate 2 n base (b :: bs) = some (base, b.cut 2 n ++ bs) := by
            rw [allocate, if_pos ⟨hfree, hsmall⟩]
          rw [word_sub (by omega) hsmall]
          by_cases hleft : word (b.size - (n + 2)) ≥ GL_HEAP_HDR
          · rw [if_pos hleft, word_add, word_succ]
            rw [ge_iff_le, show GL_HEAP_HDR = word 2 from rfl,
              word_le (by omega) (by omega)] at hleft
            refine ⟨_, _, rfl, .inr ⟨base, _, htake, word_add base 2, ?_, ?_⟩⟩
            · exact laid_cut hlaid hok (hstop ▸ hlt) hsmall hleft
            · exact (((SameBelow.store _ (le_refl _) (by omega)).trans
                (.store _ (Nat.le_add_right _ _) (by omega))).trans
                (.store _ (Nat.le_add_right _ _) (by omega))).trans
                (.store _ (by omega) (by omega))
          · rw [if_neg hleft]
            rw [ge_iff_le, show GL_HEAP_HDR = word 2 from rfl,
              word_le (by omega) (by omega)] at hleft
            refine ⟨_, _, rfl, .inr ⟨base, _, htake, word_add base 2, ?_, ?_⟩⟩
            · exact laid_whole hlaid hok (hstop ▸ hlt) hleft
            · exact .store _ (Nat.le_add_right _ _) (by omega)

end Scan

section Find

variable {base : Nat} {h : Heap}

/-- What the search for a block leaves: there is none to give back, or it is found and its mark
can be cleared. -/
def Found (target base : Nat) (blocks : List Block) (h : Heap) (hit : Option Word) : Prop :=
  (deallocate target base blocks = none ∧
    (hit = none ∨ hit = some (word target) ∧ h.mem (word (target + 1)) ≠ GL_HEAP_USED)) ∨
  ∃ blocks', deallocate target base blocks = some blocks' ∧ hit = some (word target) ∧
    h.mem (word (target + 1)) = GL_HEAP_USED ∧
    Laid (h.store (word (target + 1)) 0).mem base blocks' ∧
    SameBelow base h (h.store (word (target + 1)) 0)

theorem l_f_lp_spec {blocks : List Block} {stop fuel : Nat} (target : Nat) (hlaid : Laid h.mem base blocks)
    (hok : ∀ b ∈ blocks, b.Ok 2) (hstop : stop = base + span blocks) (hlt : stop < 65536)
    (htarget : target < 65536) (hfuel : blocks.length < fuel) :
    ∃ hit, l_f_lp (word target) (word stop) fuel (word base) h = some hit ∧
      Found target base blocks h hit := by
  induction blocks generalizing base fuel with
  | nil =>
      obtain ⟨fuel, rfl⟩ := Nat.exists_eq_succ_of_ne_zero (Nat.ne_of_gt hfuel)
      rw [span, Nat.add_zero] at hstop
      rw [hstop]
      refine ⟨none, ?_, .inl ⟨rfl, .inl rfl⟩⟩
      rw [l_f_lp]
      exact if_pos (BitVec.le_refl _)
  | cons b bs ih =>
      obtain ⟨fuel, rfl⟩ := Nat.exists_eq_succ_of_ne_zero (Nat.ne_of_gt (Nat.zero_lt_of_lt hfuel))
      have hok' : ∀ c ∈ bs, c.Ok 2 := fun c hc => hok c (List.mem_cons_of_mem _ hc)
      have hb := hok b List.mem_cons_self
      have hseen := seen_block hok hstop hlt
      have hspan : stop = base + b.size + span bs := by rw [hstop, span, Nat.add_assoc]
      have hroom := hb.room
      rw [l_f_lp, if_neg hseen.before]
      by_cases hhere : base = target
      · subst hhere
        rw [if_pos rfl]
        refine ⟨_, rfl, ?_⟩
        by_cases hfree : b.user = none
        · left
          rw [deallocate, if_pos rfl, if_pos hfree]
          refine ⟨rfl, .inr ⟨rfl, ?_⟩⟩
          rw [hlaid.2.1, if_pos hfree]
          decide
        · right
          refine ⟨{ b with user := none } :: bs, ?_, rfl, ?_, ?_,
            .store _ (Nat.le_add_right _ _) (by omega)⟩
          · rw [deallocate, if_pos rfl, if_neg hfree]
          · rw [hlaid.2.1, if_neg hfree]
          · refine ⟨?_, ?_, ?_⟩
            · rw [store_mem (by omega) (by omega), if_neg (by omega)]
              exact hlaid.1
            · rw [store_mem (by omega) (by omega), if_pos rfl]
              rfl
            · refine hlaid.2.2.congr hok' fun x hx hx' => ?_
              rw [store_mem (by omega) (by omega), if_neg (by omega)]
      · rw [if_neg fun heq => hhere ((word_inj (by omega) htarget).mp heq)]
        dsimp only
        rw [hlaid.1, if_neg hseen.header, hseen.noCarry, if_neg Bool.false_ne_true, word_add,
          if_neg hseen.inside]
        obtain ⟨hit, hrun, hfound⟩ := ih hlaid.2.2 hok' hspan (Nat.succ_lt_succ_iff.mp hfuel)
        refine ⟨hit, hrun, ?_⟩
        have hne : target ≠ base := fun heq => hhere heq.symm
        rcases hfound with ⟨hnone, hhit⟩ | ⟨blocks', hsome, hhit, hused, hlaid', hsame⟩
        · left
          rw [deallocate, if_neg hne, hnone]
          exact ⟨rfl, hhit⟩
        · right
          refine ⟨b :: blocks', ?_, hhit, hused, hlaid.cons_of_sameBelow hb hsame hlaid',
            hsame.mono (Nat.le_add_right _ _)⟩
          rw [deallocate, if_neg hne, hsome]
          rfl

end Find

section Joining

variable {base : Nat} {h : Heap}

/-- Two free blocks become one. -/
theorem laid_joined {b c : Block} {cs : List Block} (hlaid : Laid h.mem base (b :: c :: cs))
    (hok : ∀ d ∈ b :: c :: cs, d.Ok 2) (hlt : base + span (b :: c :: cs) < 65536)
    (hfree : b.user = none) :
    Laid (h.store (word base) (word (b.size + c.size))).mem base
      (⟨b.size + c.size, none⟩ :: cs) := by
  rw [span, span] at hlt
  have hroom := (hok b List.mem_cons_self).room
  refine ⟨?_, ?_, ?_⟩
  · rw [store_mem (by omega) (by omega), if_pos rfl]
  · rw [store_mem (by omega) (by omega), if_neg (by omega), hlaid.2.1, if_pos hfree]
    rfl
  · have hrest := hlaid.2.2.2.2
    rw [Nat.add_assoc] at hrest
    refine hrest.congr (fun d hd => hok d (List.mem_cons_of_mem _ (List.mem_cons_of_mem _ hd)))
      fun x hx hx' => ?_
    rw [store_mem (by omega) (by omega), if_neg (by omega)]

theorem l_c_lp_spec {b : Block} {bs : List Block} {stop fuel : Nat}
    (hlaid : Laid h.mem base (b :: bs)) (hok : ∀ c ∈ b :: bs, c.Ok 2)
    (hstop : stop = base + span (b :: bs)) (hlt : stop < 65536) (hfuel : bs.length < fuel) :
    ∃ h', l_c_lp (word stop) fuel (word base) h = some h' ∧ Laid h'.mem base (join b bs) ∧
      SameBelow base h h' := by
  induction bs generalizing b base h fuel with
  | nil =>
      obtain ⟨fuel, rfl⟩ := Nat.exists_eq_succ_of_ne_zero (Nat.ne_of_gt hfuel)
      have hseen := seen_block hok hstop hlt
      refine ⟨h, ?_, hlaid, SameBelow.refl _ _⟩
      rw [l_c_lp, if_neg hseen.before]
      dsimp only
      rw [hlaid.1, if_neg hseen.header, hseen.noCarry, if_neg Bool.false_ne_true, word_add,
        if_neg hseen.inside]
      exact if_pos (congrArg word hstop.symm)
  | cons c cs ih =>
      obtain ⟨fuel, rfl⟩ := Nat.exists_eq_succ_of_ne_zero (Nat.ne_of_gt (Nat.zero_lt_of_lt hfuel))
      have hok' : ∀ d ∈ c :: cs, d.Ok 2 := fun d hd => hok d (List.mem_cons_of_mem _ hd)
      have hb := hok b List.mem_cons_self
      have hc := hok c (List.mem_cons_of_mem _ List.mem_cons_self)
      have hseen := seen_block hok hstop hlt
      have hspan : stop = base + b.size + span (c :: cs) := by rw [hstop, span, Nat.add_assoc]
      have hlength : cs.length < fuel := Nat.succ_lt_succ_iff.mp hfuel
      have hroom := hb.room
      have hroom' := hc.room
      have hsum : stop = base + b.size + c.size + span cs := by
        rw [hspan, span, ← Nat.add_assoc (base + b.size)]
      have hnext : ¬ (b.user = none ∧ c.user = none) →
          ∃ h', l_c_lp (word stop) fuel (word (base + b.size)) h = some h' ∧
            Laid h'.mem base (join b (c :: cs)) ∧ SameBelow base h h' := by
        intro hnot
        obtain ⟨h', hrun, hlaid', hsame⟩ := ih hlaid.2.2 hok' hspan hlength
        refine ⟨h', hrun, ?_, hsame.mono (Nat.le_add_right _ _)⟩
        rw [join, if_neg hnot]
        exact hlaid.cons_of_sameBelow hb hsame hlaid'
      rw [l_c_lp, if_neg hseen.before]
      dsimp only
      rw [hlaid.1, if_neg hseen.header, hseen.noCarry, if_neg Bool.false_ne_true, word_add,
        if_neg hseen.inside, word_succ, word_succ,
        if_neg fun heq => absurd ((word_inj (by omega) hlt).mp heq) (by omega)]
      by_cases hused : h.mem (word (base + 1)) ≠ 0
      · rw [if_pos hused]
        exact hnext fun hfree => (flag_ne_zero hlaid.2.1).mp hused hfree.1
      · rw [if_neg hused]
        have hfree : b.user = none :=
          Decidable.not_not.mp fun hne => hused ((flag_ne_zero hlaid.2.1).mpr hne)
        by_cases hused' : h.mem (word (base + b.size + 1)) ≠ 0
        · rw [if_pos hused']
          exact hnext fun hfree => (flag_ne_zero hlaid.2.2.2.1).mp hused' hfree.2
        · rw [if_neg hused', hlaid.2.2.1, word_add]
          have hfree' : c.user = none :=
            Decidable.not_not.mp fun hne => hused' ((flag_ne_zero hlaid.2.2.2.1).mpr hne)
          have hjoinOk : ∀ d ∈ (⟨b.size + c.size, none⟩ : Block) :: cs, d.Ok 2 := by
            intro d hd
            rcases List.mem_cons.mp hd with rfl | hd
            · exact ⟨hroom.trans (Nat.le_add_right _ _), fun n hn => absurd hn (Option.not_mem_none n)⟩
            · exact hok d (List.mem_cons_of_mem _ (List.mem_cons_of_mem _ hd))
          have hspan' : stop = base + span ((⟨b.size + c.size, none⟩ : Block) :: cs) := by
            rw [hsum, span]
            dsimp only
            omega
          obtain ⟨h', hrun, hlaid', hsame⟩ :=
            ih (laid_joined hlaid hok (hstop ▸ hlt) hfree) hjoinOk hspan' hlength
          refine ⟨h', hrun, ?_, (SameBelow.store _ (le_refl _) (by omega)).trans hsame⟩
          rw [join, if_pos ⟨hfree, hfree'⟩]
          exact hlaid'

end Joining

section Rounds

/-- More rounds change no result. -/
theorem l_m_lp_mono {R1 R4 R2 : Word} {h : Heap} {fuel fuel' : Nat} {x : Word × Heap}
    (hle : fuel ≤ fuel') (hx : l_m_lp R1 R4 fuel R2 h = some x) :
    l_m_lp R1 R4 fuel' R2 h = some x := by
  induction fuel generalizing R2 fuel' with
  | zero => cases hx
  | succ fuel ih =>
      obtain ⟨fuel', rfl⟩ := Nat.exists_eq_succ_of_ne_zero (Nat.ne_of_gt (Nat.zero_lt_of_lt hle))
      rw [l_m_lp] at hx ⊢
      grind

theorem l_f_lp_mono {R1 R4 R2 : Word} {h : Heap} {fuel fuel' : Nat} {x : Option Word}
    (hle : fuel ≤ fuel') (hx : l_f_lp R1 R4 fuel R2 h = some x) :
    l_f_lp R1 R4 fuel' R2 h = some x := by
  induction fuel generalizing R2 fuel' with
  | zero => cases hx
  | succ fuel ih =>
      obtain ⟨fuel', rfl⟩ := Nat.exists_eq_succ_of_ne_zero (Nat.ne_of_gt (Nat.zero_lt_of_lt hle))
      rw [l_f_lp] at hx ⊢
      grind

theorem l_c_lp_mono {R4 R2 : Word} {h h' : Heap} {fuel fuel' : Nat}
    (hle : fuel ≤ fuel') (hx : l_c_lp R4 fuel R2 h = some h') :
    l_c_lp R4 fuel' R2 h = some h' := by
  induction fuel generalizing R2 fuel' h with
  | zero => cases hx
  | succ fuel ih =>
      obtain ⟨fuel', rfl⟩ := Nat.exists_eq_succ_of_ne_zero (Nat.ne_of_gt (Nat.zero_lt_of_lt hle))
      rw [l_c_lp] at hx ⊢
      grind

end Rounds

section Runs

/-- With enough rounds a routine has a result, and always the same one. -/
def Returns {α : Type} (f : Nat → Option α) (result : α) : Prop :=
  ∃ rounds, ∀ fuel ≥ rounds, f fuel = some result

theorem Returns.unique {α : Type} {f : Nat → Option α} {r r' : α} (h : Returns f r)
    (h' : Returns f r') : r = r' := by
  obtain ⟨k, hk⟩ := h
  obtain ⟨k', hk'⟩ := h'
  have heq := (hk (max k k') (le_max_left _ _)).symm.trans (hk' (max k k') (le_max_right _ _))
  exact Option.some.inj heq

theorem Returns.const {α : Type} {f : Nat → Option α} {r : α} (h : ∀ fuel, f fuel = some r) :
    Returns f r := ⟨0, fun fuel _ => h fuel⟩

/-- The heaps that calls lead to, with the parts that are in use: what `g_malloc_` has answered
and `g_free_` has not taken back.  Users write into their own parts. -/
inductive Reachable (a s : Word) : Heap → List (Nat × Nat) → Prop
  | init (h : Heap) : Reachable a s (g_malloc_init a s h) []
  | malloc {h h' : Heap} {live : List (Nat × Nat)} {r : Word} (n : Word)
      (hreach : Reachable a s h live) (hcall : Returns (g_malloc_ · n h) (r, h')) :
      Reachable a s h' (if r = 0 then live else (r.toNat, n.toNat) :: live)
  | free {h h' : Heap} {live : List (Nat × Nat)} {r : Word} (p : Word)
      (hreach : Reachable a s h live) (hcall : Returns (g_free_ · p h) (r, h')) :
      Reachable a s h' (if r = 0 then live else live.filter (·.1 ≠ p.toNat))
  | write {h : Heap} {live : List (Nat × Nat)} {e : Nat × Nat} (address value : Word)
      (hreach : Reachable a s h live) (he : e ∈ live) (hlow : e.1 ≤ address.toNat)
      (hhigh : address.toNat < e.1 + e.2) : Reachable a s (h.store address value) live

/-- The region is a row of blocks with correct headers, and the parts in use are theirs. -/
structure Tiled (a s : Word) (h : Heap) (live : List (Nat × Nat)) (blocks : List Block) : Prop where
  adr : h.GL_ALLOC_ADR = a
  size : h.GL_ALLOC_SIZE = s
  laid : Laid h.mem a.toNat blocks
  span : span blocks = s.toNat
  ok : ∀ b ∈ blocks, b.Ok 2
  live : ∀ e, e ∈ live ↔ e ∈ owned 2 a.toNat blocks

variable {a s : Word} {h h' : Heap} {live : List (Nat × Nat)} {blocks : List Block}

theorem tiled_init (hs : 2 ≤ s.toNat) (hroom : a.toNat + s.toNat < 65536) (h : Heap) :
    Tiled a s (g_malloc_init a s h) [] [⟨s.toNat, none⟩] := by
  have hheader : s ≥ GL_HEAP_HDR := by
    rw [ge_iff_le, BitVec.le_def]
    exact hs
  have hinit : g_malloc_init a s h =
      (({ h with GL_ALLOC_ADR := a, GL_ALLOC_SIZE := s } : Heap).store (word a.toNat) s).store
        (word (a.toNat + 1)) 0 := by
    rw [g_malloc_init, ← word_succ, word_toNat]
    exact if_pos hheader
  rw [hinit]
  refine ⟨rfl, rfl, ⟨?_, ?_, trivial⟩, Nat.add_zero _, ?_, fun e => Iff.rfl⟩
  · rw [store_mem (by omega) (by omega), if_neg (by omega), store_mem (by omega) (by omega),
      if_pos rfl, word_toNat]
  · rw [store_mem (by omega) (by omega), if_pos rfl]
    rfl
  · intro b hb
    rw [List.mem_singleton.mp hb]
    exact ⟨hs, nofun⟩

/-- What `g_malloc_` answers: a part of the region away from the others, or 0. -/
structure MallocSpec (a s : Word) (h : Heap) (live : List (Nat × Nat)) (blocks : List Block)
    (n r : Word) (h' : Heap) : Prop where
  part : r ≠ 0 → a.toNat + 2 ≤ r.toNat ∧ r.toNat + n.toNat ≤ a.toNat + s.toNat ∧
    ∀ e ∈ live, e.1 + e.2 + 2 ≤ r.toNat ∨ r.toNat + n.toNat + 2 ≤ e.1
  tiled : r ≠ 0 → ∃ blocks', Tiled a s h' ((r.toNat, n.toNat) :: live) blocks'
  none : r = 0 → h' = h ∧ (n = 0 ∨ ∀ b ∈ blocks, b.user = none → b.size < n.toNat + 2)

theorem Tiled.malloc (ht : Tiled a s h live blocks) (hs : 2 ≤ s.toNat)
    (hroom : a.toNat + s.toNat < 65536) (n : Word) :
    ∃ r h', Returns (g_malloc_ · n h) (r, h') ∧ MallocSpec a s h live blocks n r h' := by
  have hzero (hnone : n = 0 ∨ ∀ b ∈ blocks, b.user = none → b.size < n.toNat + 2) :
      MallocSpec a s h live blocks n 0 h :=
    ⟨fun hne => absurd rfl hne, fun hne => absurd rfl hne, fun _ => ⟨rfl, hnone⟩⟩
  by_cases hn : n = 0
  · refine ⟨0, h, .const fun fuel => ?_, hzero (.inl hn)⟩
    rw [g_malloc_, if_pos hn]
  have hheader : n + GL_HEAP_HDR = word (n.toNat + 2) := by rw [← word_add, word_toNat]; rfl
  by_cases hover : n.toNat + 2 < 65536
  · have hmore : ¬ n + GL_HEAP_HDR ≤ n := by
      rw [hheader, BitVec.le_def, toNat_word hover]
      omega
    have hsize : ¬ h.GL_ALLOC_SIZE < GL_HEAP_HDR := by
      rw [ht.size, BitVec.lt_def]
      exact Nat.not_lt.mpr hs
    have hstop : h.GL_ALLOC_SIZE + h.GL_ALLOC_ADR = word (a.toNat + s.toNat) := by
      rw [ht.size, ht.adr, ← word_add, word_toNat, word_toNat]
      exact BitVec.add_comm s a
    have hbase : h.GL_ALLOC_ADR = word a.toNat := ht.adr.trans (word_toNat a).symm
    obtain ⟨r, h', hrun, hall⟩ := l_m_lp_spec (n := n.toNat) ht.laid ht.ok
      (congrArg (a.toNat + ·) ht.span.symm) hroom hover (Nat.lt_succ_self blocks.length)
    have hcall : Returns (g_malloc_ · n h) (r, h') := by
      refine ⟨blocks.length + 1, fun fuel hfuel => ?_⟩
      dsimp only
      rw [g_malloc_, if_neg hn]
      dsimp only
      rw [if_neg hmore, if_neg hsize, hstop, hheader, hbase]
      exact l_m_lp_mono hfuel hrun
    refine ⟨r, h', hcall, ?_⟩
    rcases hall with ⟨hnone, rfl, rfl⟩ | ⟨start, blocks', hsome, rfl, hlaid', hsame⟩
    · exact hzero (.inr (allocate_eq_none.mp hnone))
    · obtain ⟨hspan, hok, before, behind, hold, hnew⟩ := allocate_spec ht.ok hsome
      have hmem : (start + 2, n.toNat) ∈ owned 2 a.toNat blocks' := by
        rw [hnew]
        exact List.mem_append_right _ List.mem_cons_self
      have hrange := owned_range hok hmem
      rw [hspan, ht.span] at hrange
      dsimp only at hrange
      have hr : (word (start + 2)).toNat = start + 2 := toNat_word (by omega)
      refine ⟨fun _ => ?_, fun _ => ⟨blocks', ?_⟩, fun hzero => ?_⟩
      · rw [hr]
        refine ⟨hrange.1, hrange.2, fun e he => ?_⟩
        have hpair := owned_pairwise hok a.toNat
        rw [hnew, List.pairwise_append, List.pairwise_cons] at hpair
        rw [ht.live, hold] at he
        rcases List.mem_append.mp he with he | he
        · exact .inl (hpair.2.2 e he _ List.mem_cons_self)
        · exact .inr (hpair.2.1.1 e he)
      · refine ⟨hsame.adr.trans ht.adr, hsame.size.trans ht.size, hlaid', hspan.trans ht.span, hok,
          fun e => ?_⟩
        rw [hr, hnew, List.mem_cons, ht.live, hold, List.mem_append, List.mem_append, List.mem_cons]
        exact or_left_comm
      · have := congrArg BitVec.toNat hzero
        rw [hr] at this
        exact absurd this (Nat.succ_ne_zero _)
  · have hless : n + GL_HEAP_HDR ≤ n := by
      rw [BitVec.le_def, BitVec.toNat_add]
      have hn := n.isLt
      have hheader : GL_HEAP_HDR.toNat = 2 := rfl
      omega
    refine ⟨0, h, .const fun fuel => ?_, hzero (.inr fun b hb _ => ?_)⟩
    · rw [g_malloc_, if_neg hn]
      exact if_pos hless
    · have hle := size_le_span hb
      rw [ht.span] at hle
      omega

/-- What `g_free_` answers: the address of a part in use, which is free then, or 0. -/
structure FreeSpec (a s : Word) (h : Heap) (live : List (Nat × Nat)) (p r : Word) (h' : Heap) :
    Prop where
  accepts : r ≠ 0 ↔ ∃ n, (p.toNat, n) ∈ live
  tiled : r ≠ 0 → r = p ∧
    ∃ blocks', Tiled a s h' (live.filter (·.1 ≠ p.toNat)) blocks' ∧ NoFreePair blocks'
  none : r = 0 → h' = h

theorem Tiled.range (ht : Tiled a s h live blocks) {e : Nat × Nat} (he : e ∈ live) :
    a.toNat + 2 ≤ e.1 ∧ e.1 + e.2 ≤ a.toNat + s.toNat := by
  rw [ht.live] at he
  have hrange := owned_range ht.ok he
  rw [ht.span] at hrange
  exact hrange

/-- The block of a part starts two words before it. -/
theorem Tiled.mem_iff (ht : Tiled a s h live blocks) (hroom : a.toNat + s.toNat < 65536) (p : Word)
    (n : Nat) : (p.toNat, n) ∈ live ↔
      ((p - GL_HEAP_HDR).toNat + 2, n) ∈ owned 2 a.toNat blocks := by
  have hp := p.isLt
  have hback : (p - GL_HEAP_HDR).toNat = (65536 - 2 + p.toNat) % 65536 := BitVec.toNat_sub _ _
  rw [← ht.live]
  by_cases hlow : p.toNat < 2
  · constructor
    · intro hmem
      have := (ht.range hmem).1
      dsimp only at this
      omega
    · intro hmem
      have := (ht.range hmem).2
      dsimp only at this
      omega
  · have heq : (p - GL_HEAP_HDR).toNat + 2 = p.toNat := by omega
    rw [heq]

theorem Tiled.free (ht : Tiled a s h live blocks) (hs : 2 ≤ s.toNat)
    (hroom : a.toNat + s.toNat < 65536) (p : Word) :
    ∃ r h', Returns (g_free_ · p h) (r, h') ∧ FreeSpec a s h live p r h' := by
  have hrejected (hnot : ¬ ∃ n, (p.toNat, n) ∈ live) : FreeSpec a s h live p 0 h :=
    ⟨iff_of_false (fun hne => hne rfl) hnot, fun hne => absurd rfl hne, fun _ => rfl⟩
  by_cases hp : p = 0
  · refine ⟨0, h, .const fun fuel => ?_, hrejected ?_⟩
    · rw [g_free_, if_pos hp]
    · rintro ⟨n, hmem⟩
      have := (ht.range hmem).1
      rw [hp] at this
      exact absurd this (Nat.not_succ_le_zero _)
  have hsize : ¬ h.GL_ALLOC_SIZE < GL_HEAP_HDR := by
    rw [ht.size, BitVec.lt_def]
    exact Nat.not_lt.mpr hs
  have hstop {h : Heap} (hadr : h.GL_ALLOC_ADR = a) (hsize : h.GL_ALLOC_SIZE = s) :
      h.GL_ALLOC_SIZE + h.GL_ALLOC_ADR = word (a.toNat + s.toNat) := by
    rw [hsize, hadr, ← word_add, word_toNat, word_toNat]
    exact BitVec.add_comm s a
  have hbase : h.GL_ALLOC_ADR = word a.toNat := ht.adr.trans (word_toNat a).symm
  obtain ⟨hit, hfind, hfound⟩ := l_f_lp_spec (p - GL_HEAP_HDR).toNat ht.laid ht.ok
    (congrArg (a.toNat + ·) ht.span.symm) hroom (BitVec.isLt _) (Nat.lt_succ_self blocks.length)
  rw [word_toNat] at hfind
  rcases hfound with ⟨hnone, hhit⟩ | ⟨blocks', hsome, rfl, hused, hlaid', hsame⟩
  · refine ⟨0, h, ⟨blocks.length + 1, fun fuel hfuel => ?_⟩, hrejected ?_⟩
    · dsimp only
      rw [g_free_, if_neg hp, if_neg hsize]
      dsimp only
      rw [hstop ht.adr ht.size, hbase, l_f_lp_mono hfuel hfind]
      rcases hhit with rfl | ⟨rfl, hunused⟩
      · rfl
      · rw [← word_succ] at hunused
        exact if_pos hunused
    · rintro ⟨n, hmem⟩
      rw [ht.mem_iff hroom] at hmem
      obtain ⟨_, hback⟩ := deallocate_of_owned (Nat.zero_lt_two) ht.ok hmem
      rw [hnone] at hback
      cases hback
  · obtain ⟨hspan, hok, before, n, behind, hold, hnew⟩ := deallocate_spec ht.ok hsome
    have hne : blocks' ≠ [] := by
      intro hnil
      rw [hnil, ht.span] at hspan
      rw [← hspan] at hs
      exact absurd hs (by decide)
    obtain ⟨b, bs, rfl⟩ := List.exists_cons_of_ne_nil hne
    have hspan' := hspan.trans ht.span
    obtain ⟨h', hjoin, hlaid'', hsame'⟩ := l_c_lp_spec hlaid' hok
      (congrArg (a.toNat + ·) hspan'.symm) hroom (Nat.lt_succ_self bs.length)
    obtain ⟨hspanJoin, hokJoin, hownedJoin, hpairJoin⟩ := coalesce_spec hok a.toNat
    have hmem : (p.toNat, n) ∈ live := by
      rw [ht.mem_iff hroom, hold]
      exact List.mem_append_right _ List.mem_cons_self
    have hplace : (p - GL_HEAP_HDR).toNat + 2 = p.toNat := by
      have hlow := (ht.range hmem).1
      have hback : (p - GL_HEAP_HDR).toNat = (65536 - 2 + p.toNat) % 65536 := BitVec.toNat_sub _ _
      have := p.isLt
      dsimp only at hlow
      omega
    refine ⟨p, h', ⟨max (blocks.length + 1) (bs.length + 1), fun fuel hfuel => ?_⟩,
      iff_of_true hp ⟨n, hmem⟩, fun _ => ⟨rfl, coalesce (b :: bs), ?_, hpairJoin⟩,
      fun hzero => absurd hzero hp⟩
    · dsimp only
      rw [g_free_, if_neg hp, if_neg hsize]
      dsimp only
      rw [hstop ht.adr ht.size, hbase, l_f_lp_mono (le_trans (le_max_left _ _) hfuel) hfind]
      dsimp only [Option.bind_eq_bind, Option.bind_some]
      rw [word_succ, if_neg (not_not_intro hused), hstop (hsame.adr.trans ht.adr)
        (hsame.size.trans ht.size), hsame.adr, hbase,
        l_c_lp_mono (le_trans (le_max_right _ _) hfuel) hjoin]
      rfl
    · refine ⟨hsame'.adr.trans (hsame.adr.trans ht.adr),
        hsame'.size.trans (hsame.size.trans ht.size), hlaid'', hspanJoin.trans hspan', hokJoin,
        fun e => ?_⟩
      have hpair := owned_pairwise ht.ok a.toNat
      rw [hold, List.pairwise_append, List.pairwise_cons] at hpair
      rw [hownedJoin, hnew, List.mem_filter, decide_eq_true_iff, ht.live, hold, List.mem_append,
        List.mem_append, List.mem_cons, hplace]
      constructor
      · rintro ⟨hin | heq | hin, hother⟩
        · exact .inl hin
        · exact absurd (congrArg Prod.fst heq) hother
        · exact .inr hin
      · rintro (hin | hin)
        · have hapart := hpair.2.2 e hin _ List.mem_cons_self
          dsimp only at hapart
          exact ⟨.inl hin, by omega⟩
        · have hapart := hpair.2.1.1 e hin
          dsimp only at hapart
          exact ⟨.inr (.inr hin), by omega⟩

/-- A user's word is no part of a header. -/
theorem laid_write {base x : Nat} {v : Word} {e : Nat × Nat} (hlaid : Laid h.mem base blocks)
    (hok : ∀ b ∈ blocks, b.Ok 2) (hlt : base + FirstFit.span blocks < 65536)
    (he : e ∈ owned 2 base blocks) (hlow : e.1 ≤ x) (hhigh : x < e.1 + e.2) :
    Laid (h.store (word x) v).mem base blocks := by
  induction blocks generalizing base with
  | nil => trivial
  | cons b bs ih =>
      have hok' : ∀ c ∈ bs, c.Ok 2 := fun c hc => hok c (List.mem_cons_of_mem _ hc)
      have hrange := owned_range hok he
      have hroom := (hok b List.mem_cons_self).room
      rw [FirstFit.span] at hlt hrange
      have hkept {y : Nat} (hy : y < 65536) (hne : y ≠ x) :
          (h.store (word x) v).mem (word y) = h.mem (word y) := by
        rw [store_mem (by omega) hy, if_neg hne]
      refine ⟨?_, ?_, ?_⟩
      · rw [hkept (by omega) (by omega)]
        exact hlaid.1
      · rw [hkept (by omega) (by omega)]
        exact hlaid.2.1
      · rw [owned] at he
        rcases List.mem_append.mp he with he | he
        · obtain ⟨n, hn, rfl⟩ := Option.map_eq_some_iff.mp (Option.mem_toList.mp he)
          have hpart := (hok b List.mem_cons_self).part n hn
          dsimp only at hlow hhigh
          exact hlaid.2.2.congr hok' fun y hy hy' => hkept (by omega) (by omega)
        · exact ih hlaid.2.2 hok' (by omega) he

theorem Tiled.write (ht : Tiled a s h live blocks) (hroom : a.toNat + s.toNat < 65536)
    {e : Nat × Nat} (he : e ∈ live) {address : Word} (value : Word) (hlow : e.1 ≤ address.toNat)
    (hhigh : address.toNat < e.1 + e.2) : Tiled a s (h.store address value) live blocks := by
  refine ⟨ht.adr, ht.size, ?_, ht.span, ht.ok, ht.live⟩
  rw [← word_toNat address]
  refine laid_write ht.laid ht.ok ?_ ((ht.live e).mp he) hlow hhigh
  rw [ht.span]
  exact hroom

/-- Every heap that calls lead to is tiled. -/
theorem Reachable.tiled (hs : 2 ≤ s.toNat) (hroom : a.toNat + s.toNat < 65536)
    (hreach : Reachable a s h live) : ∃ blocks, Tiled a s h live blocks := by
  induction hreach with
  | init h => exact ⟨_, tiled_init hs hroom h⟩
  | malloc n _ hcall ih =>
      obtain ⟨blocks, ht⟩ := ih
      obtain ⟨r, h', hcall', hspec⟩ := ht.malloc hs hroom n
      obtain ⟨rfl, rfl⟩ := Prod.mk.inj (hcall'.unique hcall)
      by_cases hr : r = 0
      · rw [if_pos hr, (hspec.none hr).1]
        exact ⟨blocks, ht⟩
      · rw [if_neg hr]
        exact hspec.tiled hr
  | free p _ hcall ih =>
      obtain ⟨blocks, ht⟩ := ih
      obtain ⟨r, h', hcall', hspec⟩ := ht.free hs hroom p
      obtain ⟨rfl, rfl⟩ := Prod.mk.inj (hcall'.unique hcall)
      by_cases hr : r = 0
      · rw [if_pos hr, hspec.none hr]
        exact ⟨blocks, ht⟩
      · rw [if_neg hr]
        obtain ⟨_, blocks', ht', _⟩ := hspec.tiled hr
        exact ⟨blocks', ht'⟩
  | write address value _ he hlow hhigh ih =>
      obtain ⟨blocks, ht⟩ := ih
      exact ⟨blocks, ht.write hroom he value hlow hhigh⟩

end Runs

end Mn1613Heap
end BootMonitor
end RetroCpu
