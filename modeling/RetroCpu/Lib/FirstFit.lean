import Mathlib.Data.List.Basic
import Mathlib.Data.List.Chain

/-!
# First fit in a region of blocks

A region is a row of blocks, each with a header in front of the part of its owner.  `allocate`
takes the first free block with enough room and splits off what is left over, `deallocate`
gives a block back, and `coalesce` joins free neighbours.  The operations keep the size of the
region, and the parts of the owners stay apart.
-/

namespace RetroCpu
namespace FirstFit

structure Block where
  size : Nat
  /-- What the owner has asked for; a free block has no owner. -/
  user : Option Nat
deriving DecidableEq, Repr

/-- The size of a row of blocks. -/
def span : List Block → Nat
  | [] => 0
  | b :: bs => b.size + span bs

variable (header : Nat)

/-- A block with room for its header and for what its owner has asked for. -/
structure Block.Ok (b : Block) : Prop where
  room : header ≤ b.size
  part : ∀ n ∈ b.user, n + header ≤ b.size

/-- The parts of the owners: their places and sizes. -/
def owned : Nat → List Block → List (Nat × Nat)
  | _, [] => []
  | base, b :: bs => (b.user.map fun n => (base + header, n)).toList ++ owned (base + b.size) bs

/-- A block for `n` words: what remains of it is a block, where there is room for a header. -/
def Block.cut (n : Nat) (b : Block) : List Block :=
  if header ≤ b.size - (n + header) then [⟨n + header, some n⟩, ⟨b.size - (n + header), none⟩]
  else [⟨b.size, some n⟩]

/-- The first free block with room for `n` words, and the blocks after that. -/
def allocate (n : Nat) : Nat → List Block → Option (Nat × List Block)
  | _, [] => none
  | base, b :: bs =>
      if b.user = none ∧ n + header ≤ b.size then some (base, b.cut header n ++ bs)
      else (allocate n (base + b.size) bs).map fun r => (r.1, b :: r.2)

/-- The block at a place, given back by its owner. -/
def deallocate (start : Nat) : Nat → List Block → Option (List Block)
  | _, [] => none
  | base, b :: bs =>
      if start = base then if b.user = none then none else some ({ b with user := none } :: bs)
      else (deallocate start (base + b.size) bs).map (b :: ·)

/-- A block joined with the free blocks behind it, and so on. -/
def join : Block → List Block → List Block
  | b, [] => [b]
  | b, c :: cs =>
      if b.user = none ∧ c.user = none then join ⟨b.size + c.size, none⟩ cs else b :: join c cs

def coalesce : List Block → List Block
  | [] => []
  | b :: bs => join b bs

/-- No two free blocks are neighbours. -/
def NoFreePair (bs : List Block) : Prop :=
  bs.IsChain fun b c => ¬ (b.user = none ∧ c.user = none)

section Lemmas

variable {header} {n base start : Nat} {b : Block} {bs bs' : List Block}

theorem span_append (bs bs' : List Block) : span (bs ++ bs') = span bs + span bs' := by
  induction bs with
  | nil => exact (Nat.zero_add _).symm
  | cons b bs ih => rw [List.cons_append, span, span, ih, Nat.add_assoc]

theorem size_le_span (hb : b ∈ bs) : b.size ≤ span bs := by
  induction bs with
  | nil => cases hb
  | cons c bs ih =>
      rw [span]
      rcases List.mem_cons.mp hb with rfl | hb
      · exact Nat.le_add_right _ _
      · exact (ih hb).trans (Nat.le_add_left _ _)

theorem owned_append (base : Nat) (bs bs' : List Block) :
    owned header base (bs ++ bs') = owned header base bs ++ owned header (base + span bs) bs' := by
  induction bs generalizing base with
  | nil => rfl
  | cons b bs ih =>
      rw [List.cons_append, owned, owned, ih, span, List.append_assoc, Nat.add_assoc]

/-- A part lies in the region, behind a header. -/
theorem owned_range (hok : ∀ b ∈ bs, b.Ok header) {e : Nat × Nat}
    (he : e ∈ owned header base bs) : base + header ≤ e.1 ∧ e.1 + e.2 ≤ base + span bs := by
  induction bs generalizing base with
  | nil => cases he
  | cons b bs ih =>
      have hb := hok b List.mem_cons_self
      rw [owned] at he
      rw [span]
      rcases List.mem_append.mp he with he | he
      · obtain ⟨n, hn, rfl⟩ := Option.map_eq_some_iff.mp (Option.mem_toList.mp he)
        have hpart := hb.part n hn
        dsimp only
        omega
      · have hrest := ih (fun b hb => hok b (List.mem_cons_of_mem _ hb)) he
        have hroom := hb.room
        omega

/-- The parts stand in order, each behind the header of its block. -/
theorem owned_pairwise (hok : ∀ b ∈ bs, b.Ok header) (base : Nat) :
    (owned header base bs).Pairwise fun e f => e.1 + e.2 + header ≤ f.1 := by
  induction bs generalizing base with
  | nil => exact List.Pairwise.nil
  | cons b bs ih =>
      have hok' : ∀ b ∈ bs, b.Ok header := fun b hb => hok b (List.mem_cons_of_mem _ hb)
      rw [owned, List.pairwise_append]
      refine ⟨?_, ih hok' _, ?_⟩
      · cases b.user with
        | none => exact List.Pairwise.nil
        | some n => exact List.pairwise_singleton _ _
      · intro e he f hf
        obtain ⟨n, hn, rfl⟩ := Option.map_eq_some_iff.mp (Option.mem_toList.mp he)
        have hpart := (hok b List.mem_cons_self).part n hn
        have hbehind := (owned_range hok' hf).1
        dsimp only
        omega

theorem Block.Ok.cut (hb : b.Ok header) (hroom : n + header ≤ b.size) (base : Nat) :
    span (b.cut header n) = b.size ∧ (∀ c ∈ b.cut header n, c.Ok header) ∧
      owned header base (b.cut header n) = [(base + header, n)] := by
  have hone {m size : Nat} (hm : m ∈ some n) (hsize : n + header ≤ size) : m + header ≤ size := by
    rw [← Option.some.inj hm]
    exact hsize
  rw [Block.cut]
  split
  · rename_i hleft
    refine ⟨?_, ?_, rfl⟩
    · rw [span, span, span]
      dsimp only
      omega
    · intro c hc
      rcases List.mem_cons.mp hc with rfl | hc
      · exact ⟨Nat.le_add_left _ _, fun m hm => hone hm (le_refl _)⟩
      · rw [List.mem_singleton.mp hc]
        exact ⟨hleft, nofun⟩
  · refine ⟨rfl, ?_, rfl⟩
    intro c hc
    rw [List.mem_singleton.mp hc]
    exact ⟨hb.room, fun m hm => hone hm hroom⟩

/-- What an allocation does: it adds a part, and keeps the others. -/
theorem allocate_spec (hok : ∀ b ∈ bs, b.Ok header)
    (h : allocate header n base bs = some (start, bs')) :
    span bs' = span bs ∧ (∀ b ∈ bs', b.Ok header) ∧ ∃ before behind,
      owned header base bs = before ++ behind ∧
      owned header base bs' = before ++ (start + header, n) :: behind := by
  induction bs generalizing base bs' with
  | nil => cases h
  | cons b bs ih =>
      have hok' : ∀ b ∈ bs, b.Ok header := fun b hb => hok b (List.mem_cons_of_mem _ hb)
      rw [allocate] at h
      split at h
      · rename_i hfits
        cases h
        obtain ⟨hspan, hcut, howned⟩ := (hok b List.mem_cons_self).cut hfits.2 start
        refine ⟨?_, ?_, [], owned header (start + b.size) bs, ?_, ?_⟩
        · rw [span_append, hspan, span]
        · intro c hc
          rcases List.mem_append.mp hc with hc | hc
          · exact hcut c hc
          · exact hok' c hc
        · rw [owned, hfits.1]
          rfl
        · rw [owned_append, howned, hspan]
          rfl
      · obtain ⟨⟨start', rest⟩, hrest, heq⟩ := Option.map_eq_some_iff.mp h
        cases heq
        obtain ⟨hspan, hrestOk, before, behind, hold, hnew⟩ := ih hok' hrest
        refine ⟨?_, ?_, (b.user.map fun n => (base + header, n)).toList ++ before, behind, ?_, ?_⟩
        · rw [span, span, hspan]
        · intro c hc
          rcases List.mem_cons.mp hc with rfl | hc
          · exact hok c List.mem_cons_self
          · exact hrestOk c hc
        · rw [owned, hold, List.append_assoc]
        · rw [owned, hnew, List.append_assoc]

theorem allocate_eq_none : allocate header n base bs = none ↔
    ∀ b ∈ bs, b.user = none → b.size < n + header := by
  induction bs generalizing base with
  | nil => exact iff_of_true rfl nofun
  | cons b bs ih =>
      rw [allocate, List.forall_mem_cons]
      split
      · rename_i hfits
        exact iff_of_false nofun fun h => absurd (h.1 hfits.1) (Nat.not_lt.mpr hfits.2)
      · rename_i hfits
        rw [Option.map_eq_none_iff, ih]
        exact ⟨fun h => ⟨fun hfree => Nat.lt_of_not_le fun hroom => hfits ⟨hfree, hroom⟩, h⟩,
          fun h => h.2⟩

/-- What giving back does: it takes a part away, and keeps the others. -/
theorem deallocate_spec (hok : ∀ b ∈ bs, b.Ok header)
    (h : deallocate start base bs = some bs') :
    span bs' = span bs ∧ (∀ b ∈ bs', b.Ok header) ∧ ∃ before n behind,
      owned header base bs = before ++ (start + header, n) :: behind ∧
      owned header base bs' = before ++ behind := by
  induction bs generalizing base bs' with
  | nil => cases h
  | cons b bs ih =>
      have hok' : ∀ b ∈ bs, b.Ok header := fun b hb => hok b (List.mem_cons_of_mem _ hb)
      rw [deallocate] at h
      split at h
      · rename_i hhere
        cases huser : b.user with
        | none =>
            rw [huser] at h
            cases h
        | some n =>
            rw [huser] at h
            cases h
            subst hhere
            refine ⟨rfl, ?_, [], n, owned header (start + b.size) bs, ?_, rfl⟩
            · intro c hc
              rcases List.mem_cons.mp hc with rfl | hc
              · exact ⟨(hok b List.mem_cons_self).room, nofun⟩
              · exact hok' c hc
            · rw [owned, huser]
              rfl
      · obtain ⟨rest, hrest, heq⟩ := Option.map_eq_some_iff.mp h
        cases heq
        obtain ⟨hspan, hrestOk, before, n, behind, hold, hnew⟩ := ih hok' hrest
        refine ⟨?_, ?_, (b.user.map fun n => (base + header, n)).toList ++ before, n, behind,
          ?_, ?_⟩
        · rw [span, span, hspan]
        · intro c hc
          rcases List.mem_cons.mp hc with rfl | hc
          · exact hok c List.mem_cons_self
          · exact hrestOk c hc
        · rw [owned, hold, List.append_assoc]
        · rw [owned, hnew, List.append_assoc]

/-- Every part can be given back. -/
theorem deallocate_of_owned (hpos : 0 < header) (hok : ∀ b ∈ bs, b.Ok header)
    (h : (start + header, n) ∈ owned header base bs) : ∃ bs', deallocate start base bs = some bs' := by
  induction bs generalizing base with
  | nil => cases h
  | cons b bs ih =>
      have hok' : ∀ b ∈ bs, b.Ok header := fun b hb => hok b (List.mem_cons_of_mem _ hb)
      have hroom := (hok b List.mem_cons_self).room
      rw [owned] at h
      rw [deallocate]
      rcases List.mem_append.mp h with h | h
      · obtain ⟨m, hm, heq⟩ := Option.map_eq_some_iff.mp (Option.mem_toList.mp h)
        have hhere : base + header = start + header := congrArg Prod.fst heq
        have huser : b.user = some m := hm
        rw [if_pos (Nat.add_right_cancel hhere).symm, huser]
        exact ⟨_, rfl⟩
      · have hbehind := (owned_range hok' h).1
        dsimp only at hbehind
        rw [if_neg (by omega)]
        obtain ⟨bs', hbs'⟩ := ih hok' h
        rw [hbs']
        exact ⟨_, rfl⟩

theorem join_spec (hb : b.Ok header) (hok : ∀ c ∈ bs, c.Ok header) (base : Nat) :
    span (join b bs) = b.size + span bs ∧ (∀ c ∈ join b bs, c.Ok header) ∧
      owned header base (join b bs) = owned header base (b :: bs) := by
  induction bs generalizing b base with
  | nil =>
      refine ⟨rfl, fun c hc => ?_, rfl⟩
      rw [List.mem_singleton.mp hc]
      exact hb
  | cons c bs ih =>
      have hc := hok c List.mem_cons_self
      have hok' : ∀ c ∈ bs, c.Ok header := fun c hc => hok c (List.mem_cons_of_mem _ hc)
      rw [join]
      split
      · rename_i hfree
        have hjoined : Block.Ok header ⟨b.size + c.size, none⟩ :=
          ⟨hb.room.trans (Nat.le_add_right _ _), nofun⟩
        obtain ⟨hspan, hjoinOk, howned⟩ := ih hjoined hok' base
        refine ⟨?_, hjoinOk, ?_⟩
        · rw [hspan, span, Nat.add_assoc]
        · rw [howned, owned, owned, owned, hfree.1, hfree.2, Nat.add_assoc base b.size c.size]
          rfl
      · obtain ⟨hspan, hjoinOk, howned⟩ := ih hc hok' (base + b.size)
        refine ⟨?_, ?_, ?_⟩
        · rw [span, hspan, span]
        · intro d hd
          rcases List.mem_cons.mp hd with rfl | hd
          · exact hb
          · exact hjoinOk d hd
        · rw [owned, howned]
          rfl

/-- The first block of a row keeps its owner. -/
theorem join_head (b : Block) (bs : List Block) :
    ∃ size rest, join b bs = ⟨size, b.user⟩ :: rest := by
  induction bs generalizing b with
  | nil => exact ⟨b.size, [], rfl⟩
  | cons c bs ih =>
      rw [join]
      split
      · rename_i hfree
        rw [hfree.1]
        exact ih _
      · exact ⟨b.size, _, rfl⟩

theorem noFreePair_join (b : Block) (bs : List Block) : NoFreePair (join b bs) := by
  induction bs generalizing b with
  | nil => exact List.isChain_singleton _
  | cons c bs ih =>
      rw [join]
      split
      · exact ih _
      · rename_i hnot
        obtain ⟨size, rest, hrest⟩ := join_head c bs
        have hchain := ih c
        rw [hrest] at hchain ⊢
        exact List.isChain_cons_cons.mpr ⟨hnot, hchain⟩

theorem coalesce_spec (hok : ∀ b ∈ bs, b.Ok header) (base : Nat) :
    span (coalesce bs) = span bs ∧ (∀ b ∈ coalesce bs, b.Ok header) ∧
      owned header base (coalesce bs) = owned header base bs ∧ NoFreePair (coalesce bs) := by
  cases bs with
  | nil => exact ⟨rfl, hok, rfl, List.isChain_nil⟩
  | cons b bs =>
      obtain ⟨hspan, hjoinOk, howned⟩ := join_spec (hok b List.mem_cons_self)
        (fun c hc => hok c (List.mem_cons_of_mem _ hc)) base
      exact ⟨hspan, hjoinOk, howned, noFreePair_join b bs⟩

end Lemmas

end FirstFit
end RetroCpu
