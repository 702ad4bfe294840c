import Mathlib.Tactic.IntervalCases
import RetroCpu.Handshake.Commands

/-!
# The commands of the processor at the I/O board

Every frame is taken as a whole.  A BEEP is decoded one byte early, and so are the address and the
entries of a break notification; an address with its top bit set becomes negative.  All other
fields reach their handler as they were sent.
-/

namespace RetroCpu
namespace Handshake

open Interleave CpuToIo
open BoardLink (CpuType)

section Frames

variable {cpuType : CpuType}

/-- How much of its frame the I/O board asks for -/
def Command.asked : Command cpuType → Nat
  | .modeSet _ => 2
  | .timeGet => 1
  | .timerSet _ _ _ => 6
  | .undefNotify _ | .stepNotify _ =>
      match cpuType with
      | .tms9995 => CPU_STATE_NOTIFY_FRAME_SIZE_TMS9995
      | .mn1613 => CPU_STATE_NOTIFY_FRAME_SIZE_MN1613
  | .hexKeyGet => 1
  | .pcKeyGet => 2
  | .ledDisplay _ _ _ => 16
  | .lcdCtrl _ _ _ _ => 6
  | .lcdText _ _ _ _ => 20
  | .beep _ _ => 6
  | .breakNotify fields =>
      BREAK_NOTIFY_HEADER_SIZE + fields.entries.length * breakHistoryEntrySizeForCpu cpuType
  | .rtcGetRaw | .tempGetRaw | .lightGetRaw | .distanceGetRaw => 1

theorem length_stateBytes (state : CpuState cpuType) :
    2 + state.bytes.length =
      match cpuType with
      | .tms9995 => CPU_STATE_NOTIFY_FRAME_SIZE_TMS9995
      | .mn1613 => CPU_STATE_NOTIFY_FRAME_SIZE_MN1613 := by
  cases cpuType with
  | mn1613 =>
      simp only [CpuState.bytes, List.length_append, length_wordsBytes, List.length_ofFn,
        Mn1613State.words, u32be, List.length_cons, List.length_nil]
      rfl
  | tms9995 =>
      simp only [CpuState.bytes, List.length_append, length_wordsBytes, List.length_ofFn, u32be,
        List.length_cons, List.length_nil]
      rfl

theorem length_entryBytes (fields : BreakFields cpuType) :
    fields.entryBytes.length = fields.entries.length * breakHistoryEntrySizeForCpu cpuType := by
  rw [BreakFields.entryBytes]
  induction fields.entries with
  | nil => exact (Nat.zero_mul _).symm
  | cons entry entries ih =>
      rw [List.flatMap_cons, List.length_append, List.length_ofFn, ih, List.length_cons,
        Nat.succ_mul, Nat.add_comm]

theorem entrySize_even (cpuType : CpuType) : breakHistoryEntrySizeForCpu cpuType % 2 = 0 := by
  cases cpuType <;> rfl

theorem length_frame_break (fields : BreakFields cpuType) :
    (Command.breakNotify fields).frame.length =
      12 + fields.entries.length * breakHistoryEntrySizeForCpu cpuType := by
  rw [← length_entryBytes]
  simp only [Command.frame, u32be, List.length_append, List.length_cons, List.length_nil]

/-- The I/O board asks for the frame, or leaves out a pad at its end. -/
theorem Command.asked_padded (c : Command cpuType) :
    c.frame.length = c.asked ∨ c.frame.length = c.asked + 1 ∧ c.asked % 2 = 1 := by
  cases c with
  | modeSet mode => exact .inl rfl
  | timeGet => exact .inr ⟨rfl, rfl⟩
  | timerSet timerNo period count => exact .inl rfl
  | undefNotify state =>
      refine .inl ?_
      rw [Command.frame, List.length_append]
      exact length_stateBytes state
  | hexKeyGet => exact .inl rfl
  | pcKeyGet => exact .inl rfl
  | ledDisplay sevenSeg a b =>
      refine .inl ?_
      rw [Command.frame, List.length_append, List.length_append, List.length_ofFn]
      rfl
  | lcdCtrl kind a b c => exact .inl rfl
  | lcdText row col length text =>
      refine .inl ?_
      rw [Command.frame, List.length_append, List.length_ofFn]
      rfl
  | beep frequency duration => exact .inl rfl
  | breakNotify fields =>
      refine .inr ?_
      have heven := entrySize_even cpuType
      rw [length_frame_break, Command.asked, BREAK_NOTIFY_HEADER_SIZE]
      refine ⟨by omega, ?_⟩
      rw [Nat.add_mod, Nat.mul_mod, heven, Nat.mul_zero]
  | stepNotify state =>
      refine .inl ?_
      rw [Command.frame, List.length_append]
      exact length_stateBytes state
  | rtcGetRaw => exact .inr ⟨rfl, rfl⟩
  | tempGetRaw => exact .inr ⟨rfl, rfl⟩
  | lightGetRaw => exact .inr ⟨rfl, rfl⟩
  | distanceGetRaw => exact .inr ⟨rfl, rfl⟩

/-- The first byte of a frame -/
def Command.cmd : Command cpuType → Cmd
  | .modeSet _ => .MODE_SET
  | .timeGet => .TIME_GET
  | .timerSet _ _ _ => .TIMER_SET
  | .undefNotify _ => .UNDEF_NOTIFY
  | .hexKeyGet => .HEX_KEY_GET
  | .pcKeyGet => .PC_KEY_GET
  | .ledDisplay _ _ _ => .LED_DISPLAY
  | .lcdCtrl _ _ _ _ => .LCD_CTRL
  | .lcdText _ _ _ _ => .LCD_TEXT
  | .beep _ _ => .BEEP
  | .breakNotify _ => .BREAK_NOTIFY
  | .stepNotify _ => .STEP_NOTIFY
  | .rtcGetRaw => .RTC_GET_RAW
  | .tempGetRaw => .TEMP_GET_RAW
  | .lightGetRaw => .LIGHT_GET_RAW
  | .distanceGetRaw => .DISTANCE_GET_RAW

theorem Command.frame_head (c : Command cpuType) : ∃ rest, c.frame = c.cmd.code :: rest := by
  cases c <;> exact ⟨_, rfl⟩

theorem ofCode_code (cmd : Cmd) : Cmd.ofCode cmd.code = some cmd := by
  cases cmd <;> rfl

theorem code_inj {cmd cmd' : Cmd} : cmd.code = cmd'.code ↔ cmd = cmd' := by
  constructor
  · intro h
    have hof := congrArg Cmd.ofCode h
    rw [ofCode_code, ofCode_code] at hof
    exact Option.some.inj hof
  · exact congrArg Cmd.code

theorem cpuFrameSizeForCpu_cmd (c : Command cpuType) (h : c.cmd ≠ .BREAK_NOTIFY) :
    cpuFrameSizeForCpu c.cmd.code cpuType = c.asked := by
  cases c with
  | breakNotify fields => exact absurd rfl h
  | undefNotify state => cases cpuType <;> rfl
  | stepNotify state => cases cpuType <;> rfl
  | _ => rfl

theorem count_toNat (fields : BreakFields cpuType) :
    fields.count.toNat = fields.entries.length := by
  have hle := fields.le
  rw [BreakFields.count, BitVec.toNat_ofNat]
  omega

theorem remainingFor_eq {frameSoFar : List Byte} (h : frameSoFar ≠ []) :
    remainingFor cpuType frameSoFar =
      max 0 ((frameTotal frameSoFar (breakHistoryEntrySizeForCpu cpuType) cpuType : Int) -
        frameSoFar.length) :=
  if_neg fun hlen => h (List.length_eq_zero_iff.mp hlen)

theorem Command.asked_pos (c : Command cpuType) : 0 < c.asked := by
  cases c with
  | undefNotify state => cases cpuType <;> exact Nat.succ_pos _
  | stepNotify state => cases cpuType <;> exact Nat.succ_pos _
  | breakNotify fields => exact Nat.add_pos_left (Nat.succ_pos 10) _
  | _ => exact Nat.succ_pos _

theorem Command.asked_le (c : Command cpuType) : c.asked ≤ c.frame.length := by
  rcases c.asked_padded with h | h <;> omega

/-- The total that the I/O board expects, once it has read some of a frame. -/
theorem frameTotal_take (c : Command cpuType) {i : Nat} (hi : 0 < i) :
    frameTotal (c.frame.take i) (breakHistoryEntrySizeForCpu cpuType) cpuType = c.asked ∨
      i < 3 ∧ 11 ≤ c.asked ∧
        frameTotal (c.frame.take i) (breakHistoryEntrySizeForCpu cpuType) cpuType = 11 := by
  obtain ⟨k, rfl⟩ : ∃ k, i = k + 1 := ⟨i - 1, by omega⟩
  by_cases hbreak : c.cmd = .BREAK_NOTIFY
  · cases c with
    | breakNotify fields =>
        have hcode : ¬ Cmd.BREAK_NOTIFY.code ≠ Cmd.BREAK_NOTIFY.code := not_not_intro rfl
        rw [frameTotal]
        change (if Cmd.BREAK_NOTIFY.code ≠ Cmd.BREAK_NOTIFY.code then _ else _) = _ ∨
          _ ∧ _ ∧ (if Cmd.BREAK_NOTIFY.code ≠ Cmd.BREAK_NOTIFY.code then _ else _) = _
        rw [if_neg hcode]
        rcases k with _ | _ | k
        · exact .inr ⟨by omega, Nat.le_add_right _ _, rfl⟩
        · exact .inr ⟨by omega, Nat.le_add_right _ _, rfl⟩
        · refine .inl ?_
          have hlong : ¬ ((Command.breakNotify fields).frame.take (k + 2 + 1)).length < 3 := by
            rw [List.length_take, length_frame_break]
            omega
          have hcount : ((Command.breakNotify fields).frame.take (k + 2 + 1)).getD 2 0 =
              fields.count := rfl
          have hmax : ¬ fields.count.toNat > BREAK_HISTORY_MAX_COUNT := by
            have hle := fields.le
            rw [count_toNat, BREAK_HISTORY_MAX_COUNT]
            omega
          rw [if_neg hlong, hcount, if_neg hmax, count_toNat, Command.asked]
    | _ => cases hbreak
  · obtain ⟨rest, hrest⟩ := c.frame_head
    refine .inl ?_
    rw [frameTotal, hrest, List.take_succ_cons]
    change (if c.cmd.code ≠ Cmd.BREAK_NOTIFY.code then cpuFrameSizeForCpu c.cmd.code cpuType
      else _) = _
    rw [if_pos fun h => hbreak (code_inj.mp h), cpuFrameSizeForCpu_cmd c hbreak]

theorem Command.asked_remaining (c : Command cpuType) :
    Asked (remainingFor cpuType) [] c.frame c.asked where
  more i hi hlt := by
    have hle := c.asked_le
    have hlen : (c.frame.take i).length = i := by
      rw [List.length_take]
      omega
    have hne : c.frame.take i ≠ [] := by
      intro hnil
      rw [hnil] at hlen
      change 0 = i at hlen
      omega
    rw [List.nil_append, remainingFor_eq hne, hlen]
    rcases frameTotal_take c hi with h | ⟨hlow, -, h⟩
    · rw [h]
      omega
    · rw [h]
      omega
  enough := by
    have hle := c.asked_le
    have hpos := c.asked_pos
    have hlen : (c.frame.take c.asked).length = c.asked := by
      rw [List.length_take]
      omega
    have hne : c.frame.take c.asked ≠ [] := by
      intro hnil
      rw [hnil] at hlen
      change 0 = c.asked at hlen
      omega
    rw [List.nil_append, remainingFor_eq hne, hlen]
    rcases frameTotal_take c hpos with h | ⟨hlow, hhigh, -⟩
    · rw [h]
      omega
    · omega
  le := c.asked_le
  padded := c.asked_padded

end Frames

section Reads

variable {buf : List Byte} {ofs : Nat}

theorem read16_of {w : BitVec 16} (hhi : buf.getD ofs 0 = (w >>> 8).setWidth 8)
    (hlo : buf.getD (ofs + 1) 0 = w.setWidth 8) : read16 buf ofs = Js.num w := by
  rw [read16, hhi, hlo, shl8_lor, num_u16]

/-- Four bytes as one word -/
def word32 (b3 b2 b1 b0 : Byte) : BitVec 32 :=
  b3.setWidth 32 <<< 24 ||| b2.setWidth 32 <<< 16 ||| b1.setWidth 32 <<< 8 ||| b0.setWidth 32

theorem read32_eq (buf : List Byte) (ofs : Nat) :
    read32 buf ofs =
      (word32 (buf.getD ofs 0) (buf.getD (ofs + 1) 0) (buf.getD (ofs + 2) 0)
        (buf.getD (ofs + 3) 0)).toInt := by
  rw [read32]
  simp only [Js.lor, Js.shl, Js.toBits_toInt, Js.toBits_num]
  rfl

theorem word32_u32be (n : BitVec 32) :
    word32 ((n >>> 24).setWidth 8) ((n >>> 16).setWidth 8) ((n >>> 8).setWidth 8) (n.setWidth 8) =
      n := by
  apply BitVec.eq_of_getLsbD_eq
  intro i hi
  simp only [word32, BitVec.getLsbD_or, BitVec.getLsbD_shiftLeft, BitVec.getLsbD_setWidth,
    BitVec.getLsbD_ushiftRight]
  interval_cases i <;> simp

theorem word32_shifted (n : BitVec 32) :
    word32 0 ((n >>> 24).setWidth 8) ((n >>> 16).setWidth 8) ((n >>> 8).setWidth 8) = n >>> 8 := by
  apply BitVec.eq_of_getLsbD_eq
  intro i hi
  simp only [word32, BitVec.getLsbD_or, BitVec.getLsbD_shiftLeft, BitVec.getLsbD_setWidth,
    BitVec.getLsbD_ushiftRight]
  interval_cases i <;> simp

/-- An address with its top bit set becomes negative. -/
theorem toInt_eq_num_iff (n : BitVec 32) : n.toInt = Js.num n ↔ n.toNat < 2 ^ 31 := by
  have hlt := n.isLt
  rw [BitVec.toInt_eq_toNat_cond, Js.num]
  split <;> omega

theorem shifted_eq_num_iff (n : BitVec 32) : (n >>> 8).toInt = Js.num n ↔ n = 0 := by
  have hlt := n.isLt
  rw [BitVec.toInt_eq_toNat_cond, Js.num, BitVec.toNat_ushiftRight, Nat.shiftRight_eq_div_pow,
    ← BitVec.toNat_inj]
  change _ ↔ n.toNat = 0
  split <;> omega

theorem slice_append (front middle back : List Byte) :
    slice (front ++ (middle ++ back)) front.length (front.length + middle.length) = middle := by
  rw [slice, ← List.append_assoc, List.take_append_of_le_length (by simp), ← List.length_append,
    List.take_length, List.drop_left]

end Reads

section Decoding

variable {cpuType : CpuType} {handlers : CpuToIoHandlers}

theorem call_eq_answer {c c' : Call} :
    (dispatcher cpuType handlers).call c = answer handlers (some c') ↔ c = c' := by
  constructor
  · intro h
    exact Option.some.inj (congrArg Prod.fst h)
  · rintro rfl
    rfl

theorem call_ne_none {c : Call} : (dispatcher cpuType handlers).call c ≠ answer handlers none := by
  intro h
  cases congrArg Prod.fst h

theorem ng_eq_answer {c : Call} : ng ≠ answer handlers (some c) := by
  intro h
  cases congrArg Prod.fst h

theorem decode_state (cmd : Byte) (state : CpuState cpuType) :
    (dispatcher cpuType handlers).decodeCpuStateNotifyInfo ([cmd, 0] ++ state.bytes) =
      state.info ↔ state.addr.toNat < 2 ^ 31 := by
  rw [← toInt_eq_num_iff]
  cases cpuType with
  | mn1613 =>
      have haddr : read32 ([cmd, 0] ++ CpuState.bytes state) 2 = (CpuState.addr state).toInt := by
        rw [read32_eq]
        exact congrArg BitVec.toInt (word32_u32be _)
      have hstack : readWords ([cmd, 0] ++ CpuState.bytes state) 0x1c 16 =
          (List.ofFn (Mn1613State.stack state)).map Js.num := by
        have hwords := readWords_append
          ([cmd, 0] ++ u32be (Mn1613State.addr state) ++ wordsBytes (Mn1613State.words state) ++
            [Mn1613State.npp state, 0]) (List.ofFn (Mn1613State.stack state)) []
        rw [List.length_ofFn, List.append_nil] at hwords
        exact hwords
      change decodeMn1613CpuStateNotifyInfo ([cmd, 0] ++ CpuState.bytes state) = _ ↔ _
      rw [decodeMn1613CpuStateNotifyInfo, haddr, hstack]
      have hword : ∀ (ofs : Nat) (w : BitVec 16),
          ([cmd, 0] ++ CpuState.bytes state).getD ofs 0 = (w >>> 8).setWidth 8 →
          ([cmd, 0] ++ CpuState.bytes state).getD (ofs + 1) 0 = w.setWidth 8 →
          read16 ([cmd, 0] ++ CpuState.bytes state) ofs = Js.num w := fun ofs w => read16_of
      rw [hword 0x06 (Mn1613State.r0 state) rfl rfl, hword 0x08 (Mn1613State.r1 state) rfl rfl,
        hword 0x0a (Mn1613State.r2 state) rfl rfl, hword 0x0c (Mn1613State.r3 state) rfl rfl,
        hword 0x0e (Mn1613State.r4 state) rfl rfl, hword 0x10 (Mn1613State.sp state) rfl rfl,
        hword 0x12 (Mn1613State.str state) rfl rfl, hword 0x14 (Mn1613State.ic state) rfl rfl,
        hword 0x16 (Mn1613State.csbr state ++ Mn1613State.ssbr state) rfl rfl,
        hword 0x18 (Mn1613State.tsr0 state ++ Mn1613State.tsr1 state) rfl rfl]
      constructor
      · exact fun h => congrArg CpuStateNotifyInfo.addr h
      · intro h
        rw [h]
        rfl
  | tms9995 =>
      have haddr : read32 ([cmd, 0] ++ CpuState.bytes state) 2 = (CpuState.addr state).toInt := by
        rw [read32_eq]
        exact congrArg BitVec.toInt (word32_u32be _)
      have hregs : readWords ([cmd, 0] ++ CpuState.bytes state) 0x06 16 =
          (List.ofFn (Tms9995State.regs state)).map Js.num := by
        have hwords := readWords_append ([cmd, 0] ++ u32be (Tms9995State.addr state))
          (List.ofFn (Tms9995State.regs state)) (wordsBytes (List.ofFn (Tms9995State.stack state)))
        rw [List.length_ofFn] at hwords
        exact hwords
      have hstack : readWords ([cmd, 0] ++ CpuState.bytes state) 0x26 16 =
          (List.ofFn (Tms9995State.stack state)).map Js.num := by
        have hwords := readWords_append ([cmd, 0] ++ u32be (Tms9995State.addr state) ++
          wordsBytes (List.ofFn (Tms9995State.regs state)))
          (List.ofFn (Tms9995State.stack state)) []
        rw [List.length_ofFn, List.append_nil, List.length_append, length_wordsBytes,
          List.length_ofFn, List.append_assoc] at hwords
        exact hwords
      change decodeTmsCpuStateNotifyInfo ([cmd, 0] ++ CpuState.bytes state) = _ ↔ _
      rw [decodeTmsCpuStateNotifyInfo, haddr, hregs, hstack]
      constructor
      · exact fun h => congrArg CpuStateNotifyInfo.addr h
      · intro h
        rw [h]
        rfl

end Decoding

section Entries

variable {cpuType : CpuType}

/-- Entries of one size behind some bytes are cut out again. -/
theorem slices_append {size : Nat} (front : List Byte) {entries : List (List Byte)}
    (h : ∀ entry ∈ entries, entry.length = size) :
    ((List.range entries.length).map fun i =>
      slice (front ++ entries.flatten) (front.length + i * size)
        (front.length + i * size + size)) = entries := by
  induction entries generalizing front with
  | nil => rfl
  | cons entry entries ih =>
      have hentry : entry.length = size := h entry List.mem_cons_self
      have hnext := ih (front ++ entry) fun e he => h e (List.mem_cons_of_mem _ he)
      rw [List.length_append, hentry, List.append_assoc] at hnext
      rw [List.length_cons, List.range_succ_eq_map, List.map_cons, List.map_map, List.flatten_cons]
      congr 1
      · rw [Nat.zero_mul, Nat.add_zero, ← hentry]
        exact slice_append front entry entries.flatten
      · refine Eq.trans (List.map_congr_left fun i _ => ?_) hnext
        rw [Function.comp_apply, Nat.succ_mul, Nat.add_comm (i * size), ← Nat.add_assoc]

/-- Some bytes, as entries of one size. -/
theorem exists_flatten {size n : Nat} {bytes : List Byte} (h : bytes.length = n * size) :
    ∃ entries : List (List Byte), entries.length = n ∧ (∀ entry ∈ entries, entry.length = size) ∧
      entries.flatten = bytes := by
  induction n generalizing bytes with
  | zero =>
      rw [Nat.zero_mul] at h
      have hnil := List.length_eq_zero_iff.mp h
      subst hnil
      exact ⟨[], rfl, fun entry hentry => absurd hentry List.not_mem_nil, rfl⟩
  | succ n ih =>
      rw [Nat.succ_mul] at h
      have hdrop : (bytes.drop size).length = n * size := by
        rw [List.length_drop, h, Nat.add_sub_cancel]
      obtain ⟨entries, hlen, hsize, hflat⟩ := ih hdrop
      refine ⟨bytes.take size :: entries, by rw [List.length_cons, hlen], ?_, ?_⟩
      · intro entry hentry
        rcases List.mem_cons.mp hentry with rfl | hentry
        · rw [List.length_take]
          omega
        · exact hsize entry hentry
      · rw [List.flatten_cons, hflat, List.take_append_drop]

/-- The slices of some bytes are the entries only when the bytes are those of the entries. -/
theorem slices_eq_iff {size : Nat} (front : List Byte) {bytes : List Byte}
    {entries : List (List Byte)} (h : ∀ entry ∈ entries, entry.length = size)
    (hlen : bytes.length = entries.length * size) :
    ((List.range entries.length).map fun i =>
      slice (front ++ bytes) (front.length + i * size) (front.length + i * size + size)) = entries ↔
      bytes = entries.flatten := by
  constructor
  · intro heq
    obtain ⟨cut, hcut, hsize, rfl⟩ := exists_flatten hlen
    rw [← hcut, slices_append front hsize] at heq
    rw [heq]
  · rintro rfl
    exact slices_append front h

/-- Bytes moved on by one place are the same bytes only when they are all the first one. -/
theorem moved_eq_iff {first : Byte} {bytes : List Byte} :
    (first :: bytes).take bytes.length = bytes ↔ ∀ b ∈ bytes, b = first := by
  induction bytes generalizing first with
  | nil => exact ⟨fun _ b hb => absurd hb List.not_mem_nil, fun _ => rfl⟩
  | cons b bytes ih =>
      rw [List.length_cons, List.take_succ_cons, List.cons.injEq, List.forall_mem_cons, ih]
      constructor
      · rintro ⟨rfl, hall⟩
        exact ⟨rfl, hall⟩
      · rintro ⟨rfl, hall⟩
        exact ⟨rfl, hall⟩

end Entries

section Commands

variable {cpuType : CpuType} {handlers : CpuToIoHandlers}

/-- The bytes of its frame that the I/O board takes -/
def Command.taken (c : Command cpuType) : List Byte := c.frame.take c.asked

/-- The field values for which a command is decoded as it was sent -/
def Command.Undamaged : Command cpuType → Prop
  | .beep frequency duration => frequency = 0 ∧ duration = 0
  | .breakNotify fields =>
      ADDR_BREAK_SLOT_COUNT ≤ fields.slot.toNat ∨ fields.addr = 0 ∧ ∀ b ∈ fields.entryBytes, b = 0
  | .undefNotify state | .stepNotify state => state.addr.toNat < 2 ^ 31
  | _ => True

theorem Command.taken_of_even {c : Command cpuType} {n : Nat} (hn : c.asked = n) (h : n % 2 = 0) :
    c.taken = c.frame := by
  subst hn
  rcases c.asked_padded with hlen | ⟨-, hodd⟩
  · rw [Command.taken, ← hlen, List.take_length]
  · omega

theorem taken_state {c : Command cpuType} {state : CpuState cpuType}
    (h : c = .undefNotify state ∨ c = .stepNotify state) : c.taken = c.frame := by
  cases cpuType with
  | mn1613 => rcases h with rfl | rfl <;> exact Command.taken_of_even (n := 60) rfl rfl
  | tms9995 => rcases h with rfl | rfl <;> exact Command.taken_of_even (n := 70) rfl rfl

theorem taken_break (fields : BreakFields cpuType) :
    (Command.breakNotify fields).taken =
      [0x1a, fields.slot, fields.count, fields.flags, fields.breakCount, 0] ++ u32be fields.addr ++
        [fields.recorded] ++ (0 :: fields.entryBytes).take fields.entryBytes.length := by
  have hframe : (Command.breakNotify fields).frame =
      [0x1a, fields.slot, fields.count, fields.flags, fields.breakCount, 0] ++ u32be fields.addr ++
        [fields.recorded] ++ (0 :: fields.entryBytes) := by
    rw [Command.frame, List.append_assoc _ [fields.recorded, 0],
      List.append_assoc _ [fields.recorded]]
    rfl
  have hasked : (Command.breakNotify fields).asked =
      ([0x1a, fields.slot, fields.count, fields.flags, fields.breakCount, 0] ++ u32be fields.addr ++
        [fields.recorded]).length + fields.entryBytes.length := by
    rw [length_entryBytes]
    rfl
  rw [Command.taken, hframe, hasked, List.take_length_add_append]

theorem dispatch_taken (c : Command cpuType) :
    (dispatcher cpuType handlers).dispatch c.taken =
      (dispatcher cpuType handlers).handle c.taken c.cmd := by
  have hle := c.asked_le
  have hlen : c.taken.length = c.asked := by
    rw [Command.taken, List.length_take]
    omega
  obtain ⟨rest, hrest⟩ : ∃ rest, c.taken = c.cmd.code :: rest := by
    obtain ⟨rest, hrest⟩ := c.frame_head
    obtain ⟨k, hk⟩ : ∃ k, c.asked = k + 1 := ⟨c.asked - 1, by
      have hpos := c.asked_pos
      omega⟩
    exact ⟨rest.take k, by rw [Command.taken, hrest, hk, List.take_succ_cons]⟩
  have hlong : ¬ c.taken.length < cpuFrameSizeForCpu c.cmd.code cpuType := by
    rw [hlen]
    by_cases hbreak : c.cmd = .BREAK_NOTIFY
    · cases c with
      | breakNotify fields => exact Nat.not_lt.mpr (Nat.le_add_right _ _)
      | _ => cases hbreak
    · rw [cpuFrameSizeForCpu_cmd c hbreak]
      exact Nat.lt_irrefl _
  rw [hrest] at hlong ⊢
  refine (if_neg hlong).trans ?_
  rw [ofCode_code]

theorem handle_modeSet (mode : Byte) :
    (dispatcher cpuType handlers).handleModeSet [0x10, mode] =
      answer handlers (Command.modeSet mode : Command cpuType).expected := by
  rw [Dispatcher.handleModeSet, Command.expected]
  change (if mode ≠ 0 ∧ mode ≠ 1 then ng else _) = _
  by_cases h : mode = 0 ∨ mode = 1
  · rw [if_neg fun hne => h.elim hne.1 hne.2, if_pos h]
    rfl
  · rw [if_pos (not_or.mp h), if_neg h]
    rfl

theorem handle_timerSet (timerNo : Byte) (period count : BitVec 16) :
    (dispatcher cpuType handlers).handleTimerSet ([0x12, timerNo] ++ u16be period ++ u16be count) =
      answer handlers (Command.timerSet timerNo period count : Command cpuType).expected := by
  have hperiod : read16 ([0x12, timerNo] ++ u16be period ++ u16be count) 2 = Js.num period :=
    read16_of rfl rfl
  have hcount : read16 ([0x12, timerNo] ++ u16be period ++ u16be count) 4 = Js.num count :=
    read16_of rfl rfl
  rw [Dispatcher.handleTimerSet, Command.expected, hperiod, hcount]
  change (if timerNo ≠ 0 then ng else _) = _
  by_cases h : timerNo = 0
  · subst h
    rfl
  · rw [if_pos h, if_neg h]
    rfl

theorem handle_ledDisplay (sevenSeg : Fin 12 → Byte) (a b : Byte) :
    (dispatcher cpuType handlers).handleLedDisplay ([0x16, 0] ++ List.ofFn sevenSeg ++ [a, b]) =
      answer handlers (Command.ledDisplay sevenSeg a b : Command cpuType).expected := by
  have hslice := slice_append [0x16, 0] (List.ofFn sevenSeg) [a, b]
  rw [List.length_ofFn, ← List.append_assoc] at hslice
  rw [Dispatcher.handleLedDisplay, Command.expected, call_eq_answer]
  exact congrArg (fun segs => Call.onLedDisplay ⟨segs, a, b⟩) hslice

/-- The frequency and the duration of a BEEP are read one byte early. -/
theorem handle_beep (frequency duration : BitVec 16) :
    (dispatcher cpuType handlers).handleBeep ([0x19, 0] ++ u16be frequency ++ u16be duration) =
      answer handlers (Command.beep frequency duration : Command cpuType).expected ↔
        frequency = 0 ∧ duration = 0 := by
  have hf : read16 ([0x19, 0] ++ u16be frequency ++ u16be duration) 1 =
      Js.num ((frequency >>> 8).setWidth 8) := by
    rw [read16, shl8_lor]
    change Js.num (0 : Byte) * 256 + Js.num ((frequency >>> 8).setWidth 8) = _
    rw [show Js.num (0 : Byte) = 0 from rfl, Int.zero_mul, Int.zero_add]
  have hd : read16 ([0x19, 0] ++ u16be frequency ++ u16be duration) 3 =
      Js.num (frequency.setWidth 8) * 256 + Js.num ((duration >>> 8).setWidth 8) := by
    rw [read16, shl8_lor]
    rfl
  rw [Dispatcher.handleBeep, Command.expected, call_eq_answer, hf, hd, Call.onBeep.injEq,
    BeepParams.mk.injEq]
  have hfrequency := num_u16 frequency
  have hduration := num_u16 duration
  have hlow := Js.num_nonneg (frequency.setWidth 8 : Byte)
  have hlow' := Js.num_nonneg (duration.setWidth 8 : Byte)
  have hhigh := Js.num_nonneg ((frequency >>> 8).setWidth 8 : Byte)
  have hhigh' := Js.num_nonneg ((duration >>> 8).setWidth 8 : Byte)
  have hzero : ∀ w : BitVec 16, Js.num w = 0 ↔ w = 0 := fun w => by
    rw [Js.num, ← BitVec.toNat_inj]
    exact Int.natCast_eq_zero
  rw [← hzero frequency, ← hzero duration]
  constructor
  · rintro ⟨h, h'⟩
    omega
  · rintro ⟨h, h'⟩
    omega

/-- The address of a break notification is read one byte early, and so are its entries. -/
theorem handle_breakNotify (fields : BreakFields cpuType) :
    (dispatcher cpuType handlers).handleBreakNotify (Command.breakNotify fields).taken =
      answer handlers (Command.breakNotify fields).expected ↔
        (Command.breakNotify fields).Undamaged := by
  have hsize : 0 < breakHistoryEntrySizeForCpu cpuType := by
    cases cpuType <;> exact Nat.succ_pos _
  have hentries : ∀ entry ∈ fields.entries.map List.ofFn,
      entry.length = breakHistoryEntrySizeForCpu cpuType := by
    intro entry hentry
    obtain ⟨e, -, rfl⟩ := List.mem_map.mp hentry
    exact List.length_ofFn
  have hmoved : ((0 :: fields.entryBytes).take fields.entryBytes.length).length =
      (fields.entries.map List.ofFn).length * breakHistoryEntrySizeForCpu cpuType := by
    rw [List.length_take, List.length_cons, Nat.min_eq_left (Nat.le_succ _), length_entryBytes,
      List.length_map]
  have hcut := slices_eq_iff ([0x1a, fields.slot, fields.count, fields.flags, fields.breakCount, 0] ++
    u32be fields.addr ++ [fields.recorded]) hentries hmoved
  have hflat : (fields.entries.map List.ofFn).flatten = fields.entryBytes := by
    rw [BreakFields.entryBytes, List.flatMap]
  rw [hflat, moved_eq_iff, ← taken_break, List.length_map] at hcut
  have hcount : (Command.breakNotify fields).taken.getD 2 0 = fields.count := by
    rw [taken_break]
    rfl
  have haddr : read32 (Command.breakNotify fields).taken 5 = (fields.addr >>> 8).toInt := by
    rw [taken_break, read32_eq]
    exact congrArg BitVec.toInt (word32_shifted _)
  have havailable : ((Command.breakNotify fields).taken.length - BREAK_NOTIFY_HEADER_SIZE) /
      (dispatcher cpuType handlers).historyEntrySize = fields.entries.length := by
    rw [taken_break, List.length_append, hmoved, List.length_map]
    change (11 + fields.entries.length * breakHistoryEntrySizeForCpu cpuType - 11) /
      breakHistoryEntrySizeForCpu cpuType = _
    rw [Nat.add_sub_cancel_left, Nat.mul_div_cancel _ hsize]
  have hmax : ¬ fields.count.toNat > BREAK_HISTORY_MAX_COUNT := by
    have hle := fields.le
    rw [count_toNat, BREAK_HISTORY_MAX_COUNT]
    omega
  rw [Dispatcher.handleBreakNotify, Command.expected, havailable, haddr, hcount, count_toNat,
    Nat.min_self]
  have hread1 : (Command.breakNotify fields).taken.getD 1 0 = fields.slot := by
    rw [taken_break]
    rfl
  have hread3 : (Command.breakNotify fields).taken.getD 3 0 = fields.flags := by
    rw [taken_break]
    rfl
  have hread4 : (Command.breakNotify fields).taken.getD 4 0 = fields.breakCount := by
    rw [taken_break]
    rfl
  rw [hread1, hread3, hread4]
  by_cases hslot : ADDR_BREAK_SLOT_COUNT ≤ fields.slot.toNat
  · refine iff_of_true ?_ (.inl hslot)
    rw [if_neg (Nat.not_lt.mpr hslot)]
    exact if_pos hslot
  · rw [count_toNat] at hmax
    rw [if_neg hslot, if_neg hmax, if_pos (Nat.lt_of_not_le hslot), call_eq_answer,
      Call.onBreakNotify.injEq, BreakNotifyInfo.mk.injEq, shifted_eq_num_iff]
    constructor
    · rintro ⟨-, -, -, -, -, hcuts, hzero⟩
      exact .inr ⟨hzero, hcut.mp hcuts⟩
    · rintro (hout | ⟨hzero, hall⟩)
      · exact absurd hout hslot
      · exact ⟨rfl, rfl, rfl, rfl, rfl, hcut.mpr hall, hzero⟩

/-- A frame reaches its handler as it was sent when its fields are undamaged. -/
theorem dispatch_iff (c : Command cpuType) :
    (dispatcher cpuType handlers).dispatch c.taken = answer handlers c.expected ↔
      c.Undamaged := by
  rw [dispatch_taken]
  cases c with
  | breakNotify fields => exact handle_breakNotify fields
  | modeSet mode => exact iff_of_true (handle_modeSet mode) trivial
  | timerSet timerNo period count =>
      rw [Command.taken_of_even (n := 6) rfl rfl]
      exact iff_of_true (handle_timerSet timerNo period count) trivial
  | ledDisplay sevenSeg a b =>
      rw [Command.taken_of_even (n := 16) rfl rfl]
      exact iff_of_true (handle_ledDisplay sevenSeg a b) trivial
  | lcdText row col length text =>
      rw [Command.taken_of_even (n := 20) rfl rfl]
      exact iff_of_true rfl trivial
  | beep frequency duration => exact handle_beep frequency duration
  | undefNotify state =>
      rw [taken_state (.inl rfl)]
      change (dispatcher cpuType handlers).call _ = answer handlers (some _) ↔ _
      rw [call_eq_answer, Call.onUndefNotify.injEq]
      exact decode_state _ state
  | stepNotify state =>
      rw [taken_state (.inr rfl)]
      change (dispatcher cpuType handlers).call _ = answer handlers (some _) ↔ _
      rw [call_eq_answer, Call.onStepNotify.injEq]
      exact decode_state _ state
  | _ => exact iff_of_true rfl trivial

end Commands

end Handshake
end RetroCpu
