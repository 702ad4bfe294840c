import Mathlib.Data.List.GetD
import Mathlib.Tactic.IntervalCases
import RetroCpu.EmuTs.DebugHost

/-!
# The debug stream stays in frame

The frames that a connection dispatches are cut off the front of the bytes received, each
where `debugPcNeededBytes` says; they do not depend on the chunks.  A frame is the one that
was encoded unless it is a write of more bytes than the host takes.
-/

namespace RetroCpu
namespace DebugHost

open Handshake

section Lengths

theorem at_append {buf t : List Byte} {i : Nat} (h : i < buf.length) :
    at_ (buf ++ t) i = at_ buf i := by
  rw [at_, at_, List.getD_append _ _ _ _ h]

theorem u32At_append {buf t : List Byte} {i : Nat} (h : i + 3 < buf.length) :
    u32At (buf ++ t) i = u32At buf i := by
  rw [u32At, u32At, at_append (by omega), at_append (by omega), at_append (by omega),
    at_append (by omega)]

/-- The length of a frame does not change with the bytes behind it. -/
theorem needed_append {buf t : List Byte} {n : Nat} (h : debugPcNeededBytes buf = some n) :
    debugPcNeededBytes (buf ++ t) = some n := by
  unfold debugPcNeededBytes at h ⊢
  rcases Nat.lt_or_ge buf.length 1 with hlen | hlen
  · rw [if_pos hlen] at h
    cases h
  · rw [if_neg (by omega)] at h
    rw [if_neg (by rw [List.length_append]; omega), at_append (by omega)]
    by_cases hcmd : at_ buf 0 = MEM_WRITE
    · rw [if_pos hcmd] at h ⊢
      rcases Nat.lt_or_ge buf.length MEM_WRITE_REQ_HEADER_LEN with hhead | hhead
      · rw [if_pos hhead] at h
        cases h
      · rw [if_neg (by omega)] at h
        rw [if_neg (by rw [List.length_append]; omega), u32At_append]
        · exact h
        · unfold MEM_WRITE_REQ_HEADER_LEN at hhead
          omega
    · rw [if_neg hcmd] at h ⊢
      exact h

theorem debugPcFrameLength_pos (cmd : Byte) : 0 < debugPcFrameLength cmd := by
  unfold debugPcFrameLength
  repeat' split
  all_goals decide

theorem needed_pos {buf : List Byte} {n : Nat} (h : debugPcNeededBytes buf = some n) : 0 < n := by
  unfold debugPcNeededBytes MEM_WRITE_REQ_HEADER_LEN at h
  rcases Nat.lt_or_ge buf.length 1 with hlen | hlen
  · rw [if_pos hlen] at h
    cases h
  · rw [if_neg (by omega)] at h
    by_cases hcmd : at_ buf 0 = MEM_WRITE
    · rw [if_pos hcmd] at h
      split at h
      · cases h
      · dsimp only at h
        split at h
        · cases h
          decide
        · cases h
          omega
    · rw [if_neg hcmd] at h
      cases h
      exact debugPcFrameLength_pos _

theorem bytes_of_u32 (n : BitVec 32) :
    ((n >>> 24).setWidth 8).setWidth 32 <<< 24 ||| ((n >>> 16).setWidth 8).setWidth 32 <<< 16 |||
      ((n >>> 8).setWidth 8).setWidth 32 <<< 8 ||| (n.setWidth 8).setWidth 32 = n := by
  apply BitVec.eq_of_getLsbD_eq
  intro i hi
  simp only [BitVec.getLsbD_or, BitVec.getLsbD_shiftLeft, BitVec.getLsbD_setWidth,
    BitVec.getLsbD_ushiftRight]
  interval_cases i <;> simp

/-- Four bytes are read back. -/
theorem u32At_be (n : BitVec 32) (l t : List Byte) : u32At (l ++ u32be n ++ t) l.length = n := by
  have hat : ∀ i, i < 4 → at_ (l ++ u32be n ++ t) (l.length + i) = at_ (u32be n) i := by
    intro i hi
    rw [at_, List.append_assoc, List.getD_append_right _ _ _ _ (by omega), Nat.add_sub_cancel_left]
    exact at_append hi
  rw [u32At, show l.length = l.length + 0 from rfl, hat 0 (by decide)]
  rw [Nat.add_zero, hat 1 (by decide), hat 2 (by decide), hat 3 (by decide)]
  exact bytes_of_u32 n

end Lengths

section Encoders

/-- A frame is cut off at its own length unless it is a write over the limit. -/
theorem needed_encode (request : Request) (t : List Byte) :
    debugPcNeededBytes (request.encode ++ t) = some request.encode.length ↔
      ¬ request.OverLimit := by
  cases request with
  | addrBreakSet fields =>
      refine ⟨fun _ h => h, fun _ => ?_⟩
      rfl
  | addrBreakClr slot =>
      refine ⟨fun _ h => h, fun _ => ?_⟩
      rfl
  | memRead byteAddr byteCount =>
      refine ⟨fun _ h => h, fun _ => ?_⟩
      rfl
  | memWrite byteAddr data =>
      have hcount : u32At (encodeMemWriteFrame byteAddr data ++ t) 5 =
          BitVec.ofNat 32 data.length := by
        have hread := u32At_be (BitVec.ofNat 32 data.length) (MEM_WRITE :: u32be byteAddr)
          (data ++ t)
        rw [← List.append_assoc] at hread
        exact hread
      have hlen : (encodeMemWriteFrame byteAddr data).length =
          MEM_WRITE_REQ_HEADER_LEN + data.length := by
        simp only [encodeMemWriteFrame, u32be, List.length_append, List.length_cons,
          List.length_nil, MEM_WRITE_REQ_HEADER_LEN]
      have hmod : (BitVec.ofNat 32 data.length).toNat = data.length % 2 ^ 32 := BitVec.toNat_ofNat _ _
      have hcmd : at_ (encodeMemWriteFrame byteAddr data ++ t) 0 = MEM_WRITE := rfl
      unfold debugPcNeededBytes Request.encode Request.OverLimit
      dsimp only
      rw [if_neg (by rw [List.length_append, hlen, MEM_WRITE_REQ_HEADER_LEN]; omega), if_pos hcmd,
        if_neg (by rw [List.length_append, hlen]; omega), hcount, hmod, hlen]
      unfold MEM_WRITE_REQ_HEADER_LEN DEBUG_MEM_MAX_BYTES
      split
      · constructor
        · intro h
          rw [Option.some.injEq] at h
          omega
        · intro h
          omega
      · rw [Option.some.injEq]
        omega

end Encoders

section Cuts

/-- Bytes that are cut into frames, each as long as the bytes from its start on say. -/
inductive Cut : List (List Byte) → List Byte → Prop
  | nil (rest : List Byte) : Cut [] rest
  | cons {frame : List Byte} {frames : List (List Byte)} {rest : List Byte} :
      debugPcNeededBytes (frame ++ (frames.flatten ++ rest)) = some frame.length →
      Cut frames rest → Cut (frame :: frames) rest

/-- There is no whole frame at the front of the bytes. -/
def Short (buf : List Byte) : Prop := ∀ n, debugPcNeededBytes buf = some n → buf.length < n

theorem short_nil : Short [] := by
  intro n hn
  cases hn

/-- More bytes behind the last one leave the frames as they are. -/
theorem Cut.append {frames : List (List Byte)} {rest : List Byte} (t : List Byte)
    (h : Cut frames rest) : Cut frames (rest ++ t) := by
  induction h with
  | nil rest => exact .nil _
  | cons hneed _ ih =>
      refine .cons ?_ ih
      have hmore := needed_append (t := t) hneed
      rw [List.append_assoc, List.append_assoc] at hmore
      exact hmore

/-- A frame at the front of the rest is one more frame. -/
theorem Cut.snoc {frames : List (List Byte)} {frame rest : List Byte}
    (h : Cut frames (frame ++ rest)) (hneed : debugPcNeededBytes (frame ++ rest) = some frame.length) :
    Cut (frames ++ [frame]) rest := by
  generalize hbytes : frame ++ rest = bytes at h
  induction h with
  | nil =>
      subst hbytes
      exact .cons hneed (.nil _)
  | @cons frame' frames' bytes hfirst _ ih =>
      subst hbytes
      refine .cons ?_ (ih rfl)
      have hflat : (frames' ++ [frame]).flatten ++ rest = frames'.flatten ++ (frame ++ rest) := by
        rw [List.flatten_append, List.flatten_singleton, List.append_assoc]
      rw [← hflat] at hfirst
      exact hfirst

/-- The bytes decide where the frames end. -/
theorem Cut.prefix_of_short {frames frames' : List (List Byte)} {rest rest' : List Byte}
    (h : Cut frames rest) (h' : Cut frames' rest')
    (hbytes : frames.flatten ++ rest = frames'.flatten ++ rest') (hshort : Short rest') :
    frames <+: frames' := by
  induction h generalizing frames' with
  | nil => exact List.nil_prefix
  | @cons frame frames rest hneed _ ih =>
      rw [List.flatten_cons, List.append_assoc] at hbytes
      rw [hbytes] at hneed
      cases h' with
      | nil =>
          have hlen := congrArg List.length hbytes
          have hlt := hshort _ hneed
          simp only [List.length_append, List.flatten_nil, List.length_nil] at hlen
          omega
      | @cons frame' frames' _ hneed' hcut' =>
          rw [List.flatten_cons, List.append_assoc] at hbytes hneed
          rw [hneed', Option.some.injEq] at hneed
          obtain ⟨rfl, hrest⟩ := List.append_inj hbytes hneed.symm
          obtain ⟨more, rfl⟩ := ih hcut' hrest
          exact ⟨more, rfl⟩

theorem Cut.eq_of_short {frames frames' : List (List Byte)} {rest rest' : List Byte}
    (h : Cut frames rest) (h' : Cut frames' rest')
    (hbytes : frames.flatten ++ rest = frames'.flatten ++ rest') (hs : Short rest)
    (hs' : Short rest') : frames = frames' :=
  (h.prefix_of_short h' hbytes hs').eq_of_length_le (h'.prefix_of_short h hbytes.symm hs).length_le

/-- The frames of the encoders are cut as they were encoded unless one is over the limit. -/
theorem cut_encode (requests : List Request) :
    Cut (requests.map Request.encode) [] ↔ ∀ request ∈ requests, ¬ request.OverLimit := by
  induction requests with
  | nil => exact ⟨fun _ _ h => absurd h List.not_mem_nil, fun _ => .nil _⟩
  | cons request requests ih =>
      rw [List.map_cons, List.forall_mem_cons, ← ih, ← needed_encode request _]
      constructor
      · rintro (_ | ⟨hneed, hcut⟩)
        exact ⟨hneed, hcut⟩
      · rintro ⟨hneed, hcut⟩
        exact .cons hneed hcut

end Cuts

section Runs

variable {handlers : Handlers} {c c' : Connection} {bytes : List Byte} {given : List Answer}

/-- What holds of a connection that has received `bytes` and whose handlers have `given` answers:
the frames are cut off the front, and all but the one in work are answered. -/
structure Inv (handlers : Handlers) (bytes : List Byte) (given : List Answer) (c : Connection) :
    Prop where
  cut : Cut c.frames c.buf
  bytes_eq : c.frames.flatten ++ c.buf = bytes
  rest : c.busy = none → Short c.buf
  answered : ∃ done, c.frames = done ++ c.busy.toList ∧ done.length = given.length ∧
    c.replies = List.zipWith (reply handlers) done given

/-- `pump` keeps all of it, and no whole frame waits in the buffer after it. -/
theorem inv_pump (hcut : Cut c.frames c.buf) (hbytes : c.frames.flatten ++ c.buf = bytes)
    (hdone : ∃ done, c.frames = done ++ c.busy.toList ∧ done.length = given.length ∧
      c.replies = List.zipWith (reply handlers) done given) :
    Inv handlers bytes given (pump c) := by
  rw [pump]
  by_cases hbusy : c.busy.isSome = true
  · rw [if_pos hbusy]
    refine ⟨hcut, hbytes, fun hnone => ?_, hdone⟩
    rw [hnone] at hbusy
    cases hbusy
  · rw [if_neg hbusy]
    cases hneed : debugPcNeededBytes c.buf with
    | none =>
        refine ⟨hcut, hbytes, fun _ n hn => ?_, hdone⟩
        rw [hneed] at hn
        cases hn
    | some need =>
        rcases Nat.lt_or_ge c.buf.length need with hlt | hle
        · dsimp only
          rw [if_pos hlt]
          refine ⟨hcut, hbytes, fun _ n hn => ?_, hdone⟩
          rw [hneed, Option.some.injEq] at hn
          exact hn ▸ hlt
        · dsimp only
          rw [if_neg (by omega)]
          have hlen : (c.buf.take need).length = need := List.length_take_of_le hle
          have hsplit : c.buf.take need ++ c.buf.drop need = c.buf := List.take_append_drop _ _
          obtain ⟨done, hframes, hgiven, hreplies⟩ := hdone
          have hnone : c.busy = none := Option.not_isSome_iff_eq_none.mp hbusy
          rw [hnone, Option.toList_none, List.append_nil] at hframes
          refine ⟨?_, ?_, ?_, done, ?_, hgiven, hreplies⟩
          · rw [← hsplit] at hcut hneed
            exact hcut.snoc (hneed.trans (congrArg some hlen.symm))
          · change (c.frames ++ [c.buf.take need]).flatten ++ c.buf.drop need = bytes
            rw [List.flatten_append, List.flatten_singleton, List.append_assoc, hsplit]
            exact hbytes
          · intro h
            cases h
          · change c.frames ++ [c.buf.take need] = done ++ [c.buf.take need]
            rw [hframes]

theorem Inv.init : Inv handlers [] [] {} :=
  ⟨.nil _, rfl, fun _ => short_nil, [], rfl, rfl, rfl⟩

/-- One event: a chunk that arrives, or an answer. -/
theorem Inv.step {event : Event} (h : Inv handlers bytes given c)
    (hstep : step handlers c event = some c') :
    Inv handlers (bytes ++ received [event]) (given ++ answers [event]) c' := by
  obtain ⟨done, hframes, hgiven, hreplies⟩ := h.answered
  cases event with
  | data chunk =>
      cases hstep
      refine inv_pump (h.cut.append _) ?_ ⟨done, hframes, ?_, ?_⟩
      · change c.frames.flatten ++ (c.buf ++ chunk) = bytes ++ (chunk ++ [])
        rw [← List.append_assoc, h.bytes_eq, List.append_nil]
      · rw [answers, answers, List.append_nil]
        exact hgiven
      · rw [answers, answers, List.append_nil]
        exact hreplies
  | settled answer =>
      unfold DebugHost.step at hstep
      cases hbusy : c.busy with
      | none =>
          rw [hbusy] at hstep
          cases hstep
      | some frame =>
          rw [hbusy] at hstep hframes
          cases hstep
          refine inv_pump h.cut ?_ ⟨done ++ [frame], ?_, ?_, ?_⟩
          · rw [received, received, List.append_nil]
            exact h.bytes_eq
          · exact hframes.trans (List.append_nil _).symm
          · rw [List.length_append, List.length_append, hgiven]
            rfl
          · change c.replies ++ [reply handlers frame answer] = _
            rw [answers, answers, List.zipWith_append hgiven, hreplies]
            rfl

theorem received_cons (event : Event) (events : List Event) :
    received (event :: events) = received [event] ++ received events := by
  cases event with
  | data chunk => rw [received, received, received, List.append_nil]
  | settled answer => rw [received, received, received, List.nil_append]

theorem answers_cons (event : Event) (events : List Event) :
    answers (event :: events) = answers [event] ++ answers events := by
  cases event with
  | data chunk => rfl
  | settled answer => rfl

/-- Every run of a connection. -/
theorem Inv.run {events : List Event} (h : Inv handlers bytes given c)
    (hrun : run handlers c events = some c') :
    Inv handlers (bytes ++ received events) (given ++ answers events) c' := by
  induction events generalizing c bytes given with
  | nil =>
      cases hrun
      rw [received, answers, List.append_nil, List.append_nil]
      exact h
  | cons event events ih =>
      rw [DebugHost.run] at hrun
      cases hstep : DebugHost.step handlers c event with
      | none =>
          rw [hstep] at hrun
          cases hrun
      | some c₁ =>
          rw [hstep] at hrun
          have htail := ih (h.step hstep) hrun
          rw [received_cons, answers_cons, ← List.append_assoc, ← List.append_assoc]
          exact htail

/-- `pump` leaves a connection at rest, or it takes a frame out of the buffer. -/
theorem pump_rest (h : c.busy = none) :
    (pump c).busy = none ∨ (pump c).buf.length < c.buf.length := by
  have hidle : ¬ c.busy.isSome = true := by
    rw [h]
    exact Bool.false_ne_true
  rw [pump, if_neg hidle]
  cases hneed : debugPcNeededBytes c.buf with
  | none => exact .inl h
  | some need =>
      dsimp only
      split
      · exact .inl h
      · have hpos := needed_pos hneed
        refine .inr ?_
        change (c.buf.drop need).length < c.buf.length
        rw [List.length_drop]
        omega

/-- A connection comes to rest by answers alone: every frame in work has left the buffer. -/
theorem exists_rest (handlers : Handlers) (c : Connection) :
    ∃ events c', run handlers c events = some c' ∧ c'.busy = none ∧ received events = [] := by
  induction hn : c.buf.length using Nat.strongRecOn generalizing c with
  | ind n ih =>
      subst hn
      cases hbusy : c.busy with
      | none => exact ⟨[], c, rfl, hbusy, rfl⟩
      | some frame =>
          have hstep : step handlers c (.settled .rejected) = some (pump { c with
              busy := none
              replies := c.replies ++ [reply handlers frame .rejected] }) := by
            rw [DebugHost.step, hbusy]
          rcases pump_rest (c := { c with
              busy := none
              replies := c.replies ++ [reply handlers frame .rejected] }) rfl with hrest | hless
          · refine ⟨[.settled .rejected], _, ?_, hrest, rfl⟩
            rw [DebugHost.run, hstep]
            rfl
          · obtain ⟨events, c', hrun, hnone, hreceived⟩ := ih _ hless _ rfl
            refine ⟨.settled .rejected :: events, c', ?_, hnone, hreceived⟩
            rw [DebugHost.run, hstep]
            exact hrun

end Runs

section Streams

/-- A run keeps to the requests of its stream: the frames so far are theirs, the replies answer
them in order, and when the whole stream is there and no frame is in work all are answered. -/
def KeepsFrame (handlers : Handlers) (requests : List Request) : Prop :=
  ∀ events later c, run handlers {} events = some c →
    received events ++ later = (requests.map Request.encode).flatten →
    c.frames <+: requests.map Request.encode ∧
      c.replies = List.zipWith (reply handlers) (requests.map Request.encode) (answers events) ∧
      (later = [] → c.busy = none →
        c.frames = requests.map Request.encode ∧ c.replies.length = requests.length)

/-- The debug stream stays in frame exactly when no write is over the limit of the host: the
header of such a write is a frame of its own, and its data is read as the next ones. -/
theorem keepsFrame_iff (handlers : Handlers) (requests : List Request) :
    KeepsFrame handlers requests ↔ ∀ request ∈ requests, ¬ request.OverLimit := by
  rw [← cut_encode]
  constructor
  · intro hkeeps
    obtain ⟨events, c, hrun, hrest, hreceived⟩ := exists_rest handlers
      (pump { buf := (requests.map Request.encode).flatten })
    have hall : received (.data (requests.map Request.encode).flatten :: events) ++ [] =
        (requests.map Request.encode).flatten := by
      rw [received, hreceived, List.append_nil, List.append_nil]
    have hrun' : run handlers {} (.data (requests.map Request.encode).flatten :: events) =
        some c := hrun
    obtain ⟨hframes, -⟩ := (hkeeps _ [] c hrun' hall).2.2 rfl hrest
    have hinv := Inv.init.run hrun'
    have hcut := hinv.cut
    have hbytes := hinv.bytes_eq
    rw [List.append_nil] at hall
    rw [List.nil_append, hall, hframes] at hbytes
    rw [hframes, List.self_eq_append_right.mp hbytes.symm] at hcut
    exact hcut
  · intro hcut events later c hrun hstream
    have hinv := Inv.init.run hrun
    obtain ⟨done, hdone, hgiven, hreplies⟩ := hinv.answered
    have hbytes : c.frames.flatten ++ (c.buf ++ later) =
        (requests.map Request.encode).flatten ++ [] := by
      rw [← List.append_assoc, hinv.bytes_eq, List.nil_append, hstream, List.append_nil]
    have hfront := (hinv.cut.append later).prefix_of_short hcut hbytes short_nil
    refine ⟨hfront, ?_, fun hlater hidle => ?_⟩
    · obtain ⟨more, hmore⟩ := hfront
      rw [List.nil_append] at hgiven
      have hzip : List.zipWith (reply handlers) (done ++ (c.busy.toList ++ more)) (answers events) =
          List.zipWith (reply handlers) done (answers events) := by
        conv => lhs; rw [← List.append_nil (answers events)]
        rw [List.zipWith_append hgiven, List.zipWith_nil_right, List.append_nil]
      rw [hreplies, ← hmore, hdone, List.append_assoc, List.nil_append, hzip]
    · subst hlater
      rw [List.append_nil] at hbytes
      have hframes := hinv.cut.eq_of_short hcut hbytes (hinv.rest hidle) short_nil
      refine ⟨hframes, ?_⟩
      rw [hidle, Option.toList_none, List.append_nil, hframes] at hdone
      rw [hreplies, List.length_zipWith, ← hgiven, Nat.min_self, ← hdone, List.length_map]

/-- A write of 65537 bytes: the 9 bytes of its header are refused as a frame, and the next frame
is cut from the data, here one that clears the break of slot 0. -/
theorem keepsFrame_not_over_limit :
    ¬ ∀ (handlers : Handlers) (requests : List Request), KeepsFrame handlers requests := by
  intro hall
  have hlimit := (keepsFrame_iff {} _).mp
    (hall {} [.memWrite 0 (BREAK_MEM_IO_CLR :: List.replicate DEBUG_MEM_MAX_BYTES 0)]) _
    List.mem_cons_self
  refine hlimit ?_
  rw [Request.OverLimit, List.length_cons, List.length_replicate]
  exact Nat.lt_succ_self _

end Streams

end DebugHost
end RetroCpu
