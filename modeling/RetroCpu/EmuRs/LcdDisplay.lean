import Mathlib.Data.List.GetD
import RetroCpu.EmuTs.LcdConsole
import RetroCpu.Lib.StepRuns

/-!
# The LCD of the Rust I/O board (`lcd_display/panel.rs`, `handshake/lcd.rs`, `dispatcher.rs`)

The display does what the TypeScript one does with every frame that holds the characters it
announces.  The Rust board writes only the characters it was sent, where the TypeScript board
writes blanks for the others.  A frame 18h without its four header bytes is answered NG, but the
logger slices it behind its end and panics.
-/

namespace RetroCpu
namespace EmuRs
namespace Lcd

open EmuTs.LcdConsole (LCD_COLS SPACE OK NG Ddram LcdConsoleEmulator)
open StepRuns

abbrev U8 := BitVec 8

/-- `LcdDisplay` -/
structure LcdDisplay where
  ddram : Ddram
  cursorRow : U8
  cursorCol : U8
  displayOn : Bool
  cursorOn : Bool
  blinkOn : Bool

section Panel

variable (lcd : LcdDisplay)

/-- `LcdDisplay::new` -/
def new : LcdDisplay where
  ddram := fun _ => SPACE
  cursorRow := 0
  cursorCol := 0
  displayOn := true
  cursorOn := false
  blinkOn := false

/-- `normalize_ascii` -/
def normalizeAscii (code : U8) : U8 := if 0x20 ≤ code ∧ code ≤ 0x7e then code else SPACE

/-- `home` -/
def home : LcdDisplay := { lcd with cursorRow := 0, cursorCol := 0 }

/-- `clear` -/
def clear : LcdDisplay := home { lcd with ddram := fun _ => SPACE }

/-- `set_display_control` -/
def setDisplayControl (bits : U8) : LcdDisplay :=
  { lcd with
    displayOn := bits &&& 0x01 ≠ 0
    cursorOn := bits &&& 0x02 ≠ 0
    blinkOn := bits &&& 0x04 ≠ 0 }

/-- `valid_row` -/
def validRow (row : U8) : Bool := row < 2

/-- `valid_col` -/
def validCol (col : U8) : Bool := col.toNat < LCD_COLS

/-- `set_cursor` -/
def setCursor (row col : U8) : Bool × LcdDisplay :=
  if !validRow row || !validCol col then (false, lcd)
  else (true, { lcd with cursorRow := row, cursorCol := col })

/-- The loop of `write_text_ascii`; `none` is a panic of `self.ddram[idx]`. -/
def writeLoop (row : Nat) : List U8 → Nat → Ddram → Option (Nat × Ddram)
  | [], c, ddram => some (c, ddram)
  | ch :: text, c, ddram =>
      if c ≥ LCD_COLS then some (c, ddram)
      else if h : row * LCD_COLS + c < 32 then
        writeLoop row text (c + 1)
          (Function.update ddram ⟨row * LCD_COLS + c, h⟩ (normalizeAscii ch))
      else none

/-- `write_text_ascii` -/
def writeTextAscii (row col : U8) (text : List U8) : Option (Bool × LcdDisplay) :=
  if !validRow row || !validCol col then some (false, lcd)
  else do
    let (c, ddram) ← writeLoop row.toNat text col.toNat lcd.ddram
    return (true, { lcd with
      ddram := ddram
      cursorRow := row
      cursorCol := BitVec.ofNat 8 (min c (LCD_COLS - 1)) })

end Panel

section Frames

def CMD_LCD_CTRL : U8 := 0x17
def CMD_LCD_TEXT : U8 := 0x18

/-- `handle_lcd_control_frame` -/
def handleLcdControlFrame (frame : List U8) (lcd : LcdDisplay) : U8 × LcdDisplay :=
  match frame with
  | _ :: _ :: kind :: argA :: argB :: argC :: _ =>
      if kind = 0 then (OK, clear lcd)
      else if kind = 1 then (OK, home lcd)
      else if kind = 2 then (OK, setDisplayControl lcd argA)
      else if kind = 3 then
        let (placed, lcd) := setCursor lcd argB argC
        (if placed then OK else NG, lcd)
      else (NG, lcd)
  | _ => (NG, lcd)

/-- `handle_lcd_text_frame`; `chars` is the frame from byte 4 on. -/
def handleLcdTextFrame (frame : List U8) (lcd : LcdDisplay) : Option (U8 × LcdDisplay) :=
  match frame with
  | _ :: row :: col :: len :: chars =>
      if len > 16 then some (NG, lcd)
      else do
        let (written, lcd) ← writeTextAscii lcd row col (chars.take len.toNat)
        return (if written then OK else NG, lcd)
  | _ => some (NG, lcd)

/-- `dispatch_lcd_frame` -/
def dispatchLcdFrame (frame : List U8) (lcd : LcdDisplay) : Option (Option U8 × LcdDisplay) :=
  match frame with
  | [] => some (some NG, lcd)
  | cmd :: _ =>
      if cmd = CMD_LCD_CTRL then
        let (status, lcd) := handleLcdControlFrame frame lcd
        some (some status, lcd)
      else if cmd = CMD_LCD_TEXT then do
        let (status, lcd) ← handleLcdTextFrame frame lcd
        return (some status, lcd)
      else some (none, lcd)

/-- `LcdLogEvent` -/
structure LcdLogEvent where
  cmd : U8
  status : U8
  kind : Option U8
  argA : Option U8
  argB : Option U8
  argC : Option U8
  row : Option U8
  col : Option U8
  len : Option U8
  text : Option (List Char)

/-- `&frame[start..start + len]` -/
def slice (frame : List U8) (start len : Nat) : Option (List U8) :=
  if start + len ≤ frame.length then some ((frame.drop start).take len) else none

/-- `build_lcd_log_event`; the outer `none` is a panic. -/
def buildLcdLogEvent (frame : List U8) (status : U8) : Option (Option LcdLogEvent) :=
  match frame with
  | [] => some none
  | cmd :: _ =>
      if cmd = CMD_LCD_CTRL then
        some (some
          { cmd := CMD_LCD_CTRL
            status := status
            kind := some (frame.getD 2 0)
            argA := some (frame.getD 3 0)
            argB := some (frame.getD 4 0)
            argC := some (frame.getD 5 0)
            row := none
            col := none
            len := none
            text := none })
      else if cmd = CMD_LCD_TEXT then do
        let len := frame.getD 3 0
        let text ← slice frame 4 (min (min len.toNat 16) (frame.length - 4))
        return some
          { cmd := CMD_LCD_TEXT
            status := status
            kind := none
            argA := none
            argB := none
            argC := none
            row := some (frame.getD 1 0)
            col := some (frame.getD 2 0)
            len := some len
            text := some (text.map fun ch => Char.ofNat (normalizeAscii ch).toNat) }
      else some none

/-- `handle_cpu_to_io_with_logger`: the answer, the display and what was logged -/
def handleCpuToIoWithLogger (frame : List U8) (lcd : LcdDisplay) :
    Option (List U8 × LcdDisplay × Option LcdLogEvent) := do
  let (status, lcd) ← dispatchLcdFrame frame lcd
  match status with
  | some status => do
      let event ← buildLcdLogEvent frame status
      return ([status], lcd, event)
  | none => return ([OK], lcd, none)

end Frames

section Comparison

/-- The display as the TypeScript board has it -/
def toTs (lcd : LcdDisplay) : LcdConsoleEmulator where
  ddram := lcd.ddram
  cursorRow := lcd.cursorRow.toNat
  cursorCol := lcd.cursorCol.toNat
  displayOn := lcd.displayOn
  cursorOn := lcd.cursorOn
  blinkOn := lcd.blinkOn

/-- The TypeScript board on a frame: its answer, if it is one for the LCD, and the display -/
def tsHandle (frame : List U8) (lcd : LcdConsoleEmulator) : Option U8 × LcdConsoleEmulator :=
  match frame with
  | [] => (none, lcd)
  | cmd :: _ =>
      if cmd = CMD_LCD_CTRL then
        let (status, lcd) := EmuTs.LcdConsole.handleControlFrame lcd frame
        (some status, lcd)
      else if cmd = CMD_LCD_TEXT then
        let (status, lcd) := EmuTs.LcdConsole.handleTextFrame lcd frame
        (some status, lcd)
      else (none, lcd)

/-- Both displays -/
abbrev Pair := LcdDisplay × LcdConsoleEmulator

/-- Both boards take a frame.  A board that panics takes no further one. -/
def step (s : Pair) (frame : List U8) : Pair :=
  match handleCpuToIoWithLogger frame s.1 with
  | some (_, lcd, _) => (lcd, (tsHandle frame s.2).2)
  | none => s

/-- The Rust board answers a frame, with the answer and the display of the TypeScript board, and
changes nothing when it answers NG. -/
def Alike (s : Pair) (frame : List U8) : Prop :=
  ∃ answer lcd event, handleCpuToIoWithLogger frame s.1 = some (answer, lcd, event) ∧
    (∀ status, (tsHandle frame s.2).1 = some status → answer = [status]) ∧
    (tsHandle frame s.2).2 = toTs lcd ∧ (answer = [NG] → lcd = s.1)

/-- The frame holds the characters that are shown.  The one in the last column may be missing
where that cell is blank. -/
def Complete (s : Pair) : List U8 → Prop
  | cmd :: row :: col :: len :: chars =>
      cmd = CMD_LCD_TEXT → validRow row → validCol col → len ≤ 16 →
        min len.toNat (16 - col.toNat) ≤ chars.length ∨
          col.toNat + chars.length = 15 ∧ s.1.ddram (Fin.ofNat 32 (row.toNat * 16 + 15)) = SPACE
  | cmd :: _ => cmd ≠ CMD_LCD_TEXT
  | [] => True

end Comparison

section Control

theorem normalizeAscii_eq (code : U8) :
    EmuTs.LcdConsole.normalizeAscii code = normalizeAscii code := by
  unfold EmuTs.LcdConsole.normalizeAscii normalizeAscii
  by_cases h : (0x20 : U8) ≤ code ∧ code ≤ 0x7e
  · rw [if_pos h, if_neg (by bv_omega)]
  · rw [if_neg h, if_pos (by bv_omega)]

theorem isValidRow_eq (row : U8) : EmuTs.LcdConsole.isValidRow row.toNat = validRow row := by
  unfold EmuTs.LcdConsole.isValidRow validRow
  rw [← Bool.decide_or]
  exact decide_eq_decide.mpr (by bv_omega)

theorem isValidCol_eq (col : U8) : EmuTs.LcdConsole.isValidCol col.toNat = validCol col := rfl

theorem toNat_row {row : U8} (h : validRow row = true) : row.toNat < 2 := by
  have hlt : row < 2 := of_decide_eq_true h
  bv_omega

theorem toNat_col {col : U8} (h : validCol col = true) : col.toNat < 16 := of_decide_eq_true h

variable {lcd : LcdDisplay}

theorem setCursor_toTs (row col : U8) :
    EmuTs.LcdConsole.setCursor (toTs lcd) row.toNat col.toNat =
      ((setCursor lcd row col).1, toTs (setCursor lcd row col).2) := by
  unfold EmuTs.LcdConsole.setCursor setCursor
  rw [isValidRow_eq, isValidCol_eq]
  cases validRow row <;> cases validCol col <;> rfl

theorem control_toTs (frame : List U8) :
    EmuTs.LcdConsole.handleControlFrame (toTs lcd) frame =
      ((handleLcdControlFrame frame lcd).1, toTs (handleLcdControlFrame frame lcd).2) := by
  rcases frame with _ | ⟨_, _ | ⟨_, _ | ⟨kind, _ | ⟨argA, _ | ⟨argB, _ | ⟨argC, _⟩⟩⟩⟩⟩⟩
  · rfl
  · rfl
  · rfl
  · rfl
  · rfl
  · rfl
  · rw [EmuTs.LcdConsole.handleControlFrame, handleLcdControlFrame, setCursor_toTs]
    by_cases h0 : kind = 0
    · rw [if_pos h0, if_pos h0]
      rfl
    · rw [if_neg h0, if_neg h0]
      by_cases h1 : kind = 1
      · rw [if_pos h1, if_pos h1]
        rfl
      · rw [if_neg h1, if_neg h1]
        by_cases h2 : kind = 2
        · rw [if_pos h2, if_pos h2]
          rfl
        · rw [if_neg h2, if_neg h2]
          by_cases h3 : kind = 3
          · rw [if_pos h3, if_pos h3]
          · rw [if_neg h3, if_neg h3]

/-- A refused control frame changes nothing. -/
theorem control_ng {frame : List U8} (h : (handleLcdControlFrame frame lcd).1 = NG) :
    (handleLcdControlFrame frame lcd).2 = lcd := by
  unfold handleLcdControlFrame at h ⊢
  split at h
  · next kind _ argB argC _ =>
      dsimp only at h ⊢
      by_cases h0 : kind = 0
      · rw [if_pos h0] at h
        cases h
      · by_cases h1 : kind = 1
        · rw [if_neg h0, if_pos h1] at h
          cases h
        · by_cases h2 : kind = 2
          · rw [if_neg h0, if_neg h1, if_pos h2] at h
            cases h
          · rw [if_neg h0, if_neg h1, if_neg h2] at h ⊢
            by_cases h3 : kind = 3
            · rw [if_pos h3] at h ⊢
              unfold setCursor at h ⊢
              cases hv : !validRow argB || !validCol argC with
              | true => rfl
              | false =>
                  rw [hv] at h
                  cases h
            · rw [if_neg h3]
  · rfl

end Control

section Text

variable {row c : Nat}

/-- The cells that the loop of `write_text_ascii` writes; it does not panic. -/
theorem writeLoop_spec (hrow : row < 2) (hc : c ≤ 16) (text : List U8) (ddram : Ddram) :
    ∃ d, writeLoop row text c ddram = some (c + min text.length (16 - c), d) ∧
      ∀ j : Fin 32, d j =
        if row * 16 + c ≤ j.val ∧ j.val < row * 16 + c + min text.length (16 - c) then
          normalizeAscii (text.getD (j.val - (row * 16 + c)) SPACE)
        else ddram j := by
  induction text generalizing c ddram with
  | nil =>
      refine ⟨ddram, by rw [writeLoop, List.length_nil, Nat.zero_min, Nat.add_zero], fun j => ?_⟩
      rw [List.length_nil, if_neg (by omega)]
  | cons ch text ih =>
      rw [writeLoop, LCD_COLS, List.length_cons]
      by_cases hfull : c ≥ 16
      · have hzero : 16 - c = 0 := by omega
        refine ⟨ddram, by rw [if_pos hfull, hzero, Nat.min_zero, Nat.add_zero], fun j => ?_⟩
        rw [hzero, if_neg (by omega)]
      · have hidx : row * 16 + c < 32 := by omega
        obtain ⟨d, hd, hcells⟩ := ih (c := c + 1) (by omega)
          (Function.update ddram ⟨row * 16 + c, hidx⟩ (normalizeAscii ch))
        have hcount : c + 1 + min text.length (16 - (c + 1)) = c + min (text.length + 1) (16 - c) := by
          omega
        refine ⟨d, by rw [if_neg hfull, dif_pos hidx, hd, hcount], fun j => ?_⟩
        rw [hcells j, Function.update_apply]
        by_cases hj : j.val = row * 16 + c
        · have hsub : j.val - (row * 16 + c) = 0 := by omega
          rw [if_neg (by omega), if_pos (Fin.ext hj), if_pos (by omega), hsub]
          rfl
        · rw [if_neg (fun heq => hj (congrArg Fin.val heq))]
          by_cases hin : row * 16 + (c + 1) ≤ j.val ∧
              j.val < row * 16 + (c + 1) + min text.length (16 - (c + 1))
          · have hsub : j.val - (row * 16 + c) = j.val - (row * 16 + (c + 1)) + 1 := by omega
            rw [if_pos hin, if_pos (by omega), hsub, List.getD_cons_succ]
          · rw [if_neg hin, if_neg (by omega)]

variable {rowB colB len : U8}

/-- A frame with a row, a column and a length in range -/
def InRange (rowB colB len : U8) : Prop := validRow rowB = true ∧ validCol colB = true ∧ len ≤ 16

theorem text_run (h : InRange rowB colB len) (cmd : U8) (chars : List U8) (lcd : LcdDisplay) :
    ∃ d, handleLcdTextFrame (cmd :: rowB :: colB :: len :: chars) lcd =
        some (OK, { lcd with
          ddram := d
          cursorRow := rowB
          cursorCol := BitVec.ofNat 8
            (min (colB.toNat + min (min len.toNat chars.length) (16 - colB.toNat)) 15) }) ∧
      ∀ j : Fin 32, d j =
        if rowB.toNat * 16 + colB.toNat ≤ j.val ∧ j.val < rowB.toNat * 16 + colB.toNat +
            min (min len.toNat chars.length) (16 - colB.toNat) then
          normalizeAscii (chars.getD (j.val - (rowB.toNat * 16 + colB.toNat)) SPACE)
        else lcd.ddram j := by
  obtain ⟨hrow, hcol, hlen⟩ := h
  have hlength : (chars.take len.toNat).length = min len.toNat chars.length := List.length_take
  obtain ⟨d, hd, hcells⟩ := writeLoop_spec (toNat_row hrow) (Nat.le_of_lt (toNat_col hcol))
    (chars.take len.toNat) lcd.ddram
  rw [hlength] at hd hcells
  refine ⟨d, ?_, fun j => ?_⟩
  · have hlong : ¬ len > 16 := by bv_omega
    rw [handleLcdTextFrame, if_neg hlong, writeTextAscii, hrow, hcol, hd]
    rfl
  · rw [hcells j]
    by_cases hin : rowB.toNat * 16 + colB.toNat ≤ j.val ∧ j.val < rowB.toNat * 16 + colB.toNat +
        min (min len.toNat chars.length) (16 - colB.toNat)
    · have hbefore : j.val - (rowB.toNat * 16 + colB.toNat) < len.toNat := by omega
      rw [if_pos hin, if_pos hin, List.getD_eq_getElem?_getD, List.getD_eq_getElem?_getD,
        List.getElem?_take_of_lt hbefore]
    · rw [if_neg hin, if_neg hin]

theorem ts_text_run (h : InRange rowB colB len) (cmd : U8) (chars : List U8) (lcd : LcdDisplay) :
    EmuTs.LcdConsole.handleTextFrame (toTs lcd) (cmd :: rowB :: colB :: len :: chars) =
      (OK, { toTs lcd with
        ddram := EmuTs.LcdConsole.writeChars rowB.toNat colB.toNat chars
          (min len.toNat (16 - colB.toNat)) lcd.ddram
        cursorRow := rowB.toNat
        cursorCol := min (colB.toNat + min len.toNat (16 - colB.toNat)) 15 }) := by
  obtain ⟨hrow, hcol, hlen⟩ := h
  have hlong : ¬ len > 16 := by bv_omega
  rw [EmuTs.LcdConsole.handleTextFrame, isValidRow_eq, isValidCol_eq, hrow, hcol,
    if_neg (by decide), if_neg hlong]
  rfl

/-- A frame that is out of range is refused by both boards. -/
theorem text_refused (h : ¬ InRange rowB colB len) (cmd : U8) (chars : List U8)
    (lcd : LcdDisplay) :
    handleLcdTextFrame (cmd :: rowB :: colB :: len :: chars) lcd = some (NG, lcd) ∧
      EmuTs.LcdConsole.handleTextFrame (toTs lcd) (cmd :: rowB :: colB :: len :: chars) =
        (NG, toTs lcd) := by
  rw [handleLcdTextFrame, EmuTs.LcdConsole.handleTextFrame, isValidRow_eq, isValidCol_eq,
    writeTextAscii]
  by_cases hlong : len > 16
  · rw [if_pos hlong, if_pos hlong]
    refine ⟨rfl, ?_⟩
    cases validRow rowB <;> cases validCol colB <;> rfl
  · rw [if_neg hlong, if_neg hlong]
    cases hrow : validRow rowB with
    | false => exact ⟨rfl, rfl⟩
    | true =>
        cases hcol : validCol colB with
        | false => exact ⟨rfl, rfl⟩
        | true => exact absurd ⟨hrow, hcol, by bv_omega⟩ h

/-- The displays agree after a frame in range exactly when it holds the characters shown. -/
theorem text_agrees {lcd after : LcdDisplay} {chars : List U8} {d : Ddram}
    (h : InRange rowB colB len)
    (hafter : after = { lcd with
      ddram := d
      cursorRow := rowB
      cursorCol := BitVec.ofNat 8
        (min (colB.toNat + min (min len.toNat chars.length) (16 - colB.toNat)) 15) })
    (hcells : ∀ j : Fin 32, d j =
      if rowB.toNat * 16 + colB.toNat ≤ j.val ∧ j.val < rowB.toNat * 16 + colB.toNat +
          min (min len.toNat chars.length) (16 - colB.toNat) then
        normalizeAscii (chars.getD (j.val - (rowB.toNat * 16 + colB.toNat)) SPACE)
      else lcd.ddram j) :
    { toTs lcd with
      ddram := EmuTs.LcdConsole.writeChars rowB.toNat colB.toNat chars
        (min len.toNat (16 - colB.toNat)) lcd.ddram
      cursorRow := rowB.toNat
      cursorCol := min (colB.toNat + min len.toNat (16 - colB.toNat)) 15 } = toTs after ↔
    (min len.toNat (16 - colB.toNat) ≤ chars.length ∨
      colB.toNat + chars.length = 15 ∧
        lcd.ddram (Fin.ofNat 32 (rowB.toNat * 16 + 15)) = SPACE) := by
  have hrow := toNat_row h.1
  have hcol := toNat_col h.2.1
  have hcursor : ∀ n, (BitVec.ofNat 8 (min n 15)).toNat = min n 15 := fun n =>
    (BitVec.toNat_ofNat _ _).trans (Nat.mod_eq_of_lt (by omega))
  subst hafter
  constructor
  · intro heq
    have hcol' := congrArg LcdConsoleEmulator.cursorCol heq
    have hddram := congrFun (congrArg LcdConsoleEmulator.ddram heq)
      (Fin.ofNat 32 (rowB.toNat * 16 + 15))
    dsimp only [toTs] at hcol' hddram
    rw [hcursor] at hcol'
    by_cases henough : min len.toNat (16 - colB.toNat) ≤ chars.length
    · exact .inl henough
    · refine .inr ⟨by omega, ?_⟩
      have hval : (Fin.ofNat 32 (rowB.toNat * 16 + 15)).val = rowB.toNat * 16 + 15 :=
        Nat.mod_eq_of_lt (by omega)
      have hmissing : chars.getD (rowB.toNat * 16 + 15 - (rowB.toNat * 16 + colB.toNat)) SPACE =
          SPACE := List.getD_eq_default _ _ (by omega)
      rw [EmuTs.LcdConsole.writeChars_apply, hcells, hval, if_pos (by omega), if_neg (by omega),
        hmissing] at hddram
      exact hddram.symm
  · intro hfits
    have hend : min (colB.toNat + min len.toNat (16 - colB.toNat)) 15 =
        min (colB.toNat + min (min len.toNat chars.length) (16 - colB.toNat)) 15 := by
      rcases hfits with henough | ⟨hlast, -⟩ <;> omega
    refine LcdConsoleEmulator.ext (funext fun j => ?_) rfl (hend.trans (hcursor _).symm) rfl rfl rfl
    dsimp only [toTs]
    rw [EmuTs.LcdConsole.writeChars_apply, hcells, normalizeAscii_eq]
    by_cases hin : rowB.toNat * 16 + colB.toNat ≤ j.val ∧ j.val < rowB.toNat * 16 + colB.toNat +
        min (min len.toNat chars.length) (16 - colB.toNat)
    · rw [if_pos hin, if_pos (by omega)]
    · rw [if_neg hin]
      by_cases hshown : rowB.toNat * 16 + colB.toNat ≤ j.val ∧
          j.val < rowB.toNat * 16 + colB.toNat + min len.toNat (16 - colB.toNat)
      · -- the last column, whose character is missing
        rcases hfits with henough | ⟨hlast, hblank⟩
        · omega
        · have hj : j = Fin.ofNat 32 (rowB.toNat * 16 + 15) := by
            refine Fin.ext ?_
            have hval : (Fin.ofNat 32 (rowB.toNat * 16 + 15)).val = rowB.toNat * 16 + 15 :=
              Nat.mod_eq_of_lt (by omega)
            omega
          have hmissing : chars.getD (j.val - (rowB.toNat * 16 + colB.toNat)) SPACE = SPACE :=
            List.getD_eq_default _ _ (by omega)
          rw [if_pos hshown, hmissing, hj, hblank]
          rfl
      · rw [if_neg hshown]

end Text

section Runs

variable {s : Pair} {lcd : LcdDisplay} {cmd : U8} {rest : List U8}

theorem complete_of_ne (h : cmd ≠ CMD_LCD_TEXT) (s : Pair) (rest : List U8) :
    Complete s (cmd :: rest) := by
  rcases rest with _ | ⟨row, _ | ⟨col, _ | ⟨len, chars⟩⟩⟩
  · exact h
  · exact h
  · exact h
  · exact fun htext => absurd htext h

theorem slice_eq (frame : List U8) (start len : Nat) (h : start + len ≤ frame.length) :
    slice frame start len = some ((frame.drop start).take len) := if_pos h

/-- The logger accepts every text frame that has its header. -/
theorem buildLcdLogEvent_text (row col len : U8) (chars : List U8) (status : U8) :
    ∃ event, buildLcdLogEvent (CMD_LCD_TEXT :: row :: col :: len :: chars) status = some event := by
  have hslice := slice_eq (CMD_LCD_TEXT :: row :: col :: len :: chars) 4
    (min (min len.toNat 16) ((CMD_LCD_TEXT :: row :: col :: len :: chars).length - 4))
    (by simp only [List.length_cons]; omega)
  have hlen : (CMD_LCD_TEXT :: row :: col :: len :: chars).getD 3 0 = len := rfl
  rw [buildLcdLogEvent, if_neg (by decide), if_pos rfl]
  dsimp only
  rw [hlen, hslice]
  exact ⟨_, rfl⟩

/-- A text frame without its header stops the Rust board. -/
theorem text_short (h : rest.length < 3) (lcd : LcdDisplay) :
    handleCpuToIoWithLogger (CMD_LCD_TEXT :: rest) lcd = none := by
  rcases rest with _ | ⟨row, _ | ⟨col, _ | ⟨len, chars⟩⟩⟩
  · rfl
  · rfl
  · rfl
  · rw [List.length_cons, List.length_cons, List.length_cons] at h
    omega

/-- A text frame with its header is answered. -/
theorem text_answered {row col len : U8} {chars : List U8} {status : U8} {after : LcdDisplay}
    (h : handleLcdTextFrame (CMD_LCD_TEXT :: row :: col :: len :: chars) lcd =
      some (status, after)) :
    ∃ event, handleCpuToIoWithLogger (CMD_LCD_TEXT :: row :: col :: len :: chars) lcd =
      some ([status], after, event) := by
  obtain ⟨event, hevent⟩ := buildLcdLogEvent_text row col len chars status
  refine ⟨event, ?_⟩
  rw [handleCpuToIoWithLogger, dispatchLcdFrame, if_neg (by decide), if_pos rfl, h]
  dsimp only [Option.bind_eq_bind, Option.bind_some, Option.pure_def]
  rw [hevent]
  rfl

theorem alike_text (row col len : U8) (chars : List U8) :
    Alike (lcd, toTs lcd) (CMD_LCD_TEXT :: row :: col :: len :: chars) ↔
      Complete (lcd, toTs lcd) (CMD_LCD_TEXT :: row :: col :: len :: chars) := by
  by_cases h : InRange row col len
  · obtain ⟨d, hrun, hcells⟩ := text_run h CMD_LCD_TEXT chars lcd
    have hts := ts_text_run h CMD_LCD_TEXT chars lcd
    obtain ⟨event, hanswer⟩ := text_answered hrun
    have hagree := text_agrees h rfl hcells
    constructor
    · rintro ⟨answer, after, event', heq, -, hsame, -⟩ - - - -
      rw [hanswer] at heq
      cases heq
      refine hagree.mp ?_
      rw [tsHandle, if_neg (by decide), if_pos rfl, hts] at hsame
      exact hsame
    · intro hcomplete
      refine ⟨[OK], _, event, hanswer, fun status hstatus => ?_, ?_, fun hng => absurd hng (by decide)⟩
      · rw [tsHandle, if_neg (by decide), if_pos rfl, hts] at hstatus
        cases hstatus
        rfl
      · rw [tsHandle, if_neg (by decide), if_pos rfl, hts]
        exact hagree.mpr (hcomplete rfl h.1 h.2.1 h.2.2)
  · obtain ⟨hrs, hts⟩ := text_refused h CMD_LCD_TEXT chars lcd
    obtain ⟨event, hanswer⟩ := text_answered hrs
    constructor
    · intro _ _ hrow hcol hlen
      exact absurd ⟨hrow, hcol, hlen⟩ h
    · intro _
      refine ⟨[NG], lcd, event, hanswer, fun status hstatus => ?_, ?_, fun _ => rfl⟩
      · rw [tsHandle, if_neg (by decide), if_pos rfl, hts] at hstatus
        cases hstatus
        rfl
      · rw [tsHandle, if_neg (by decide), if_pos rfl, hts]

/-- One frame is treated alike exactly when it is complete. -/
theorem alike_iff_complete (h : s.2 = toTs s.1) (frame : List U8) :
    Alike s frame ↔ Complete s frame := by
  obtain ⟨lcd, ts⟩ := s
  change ts = toTs lcd at h
  subst h
  cases frame with
  | nil =>
      refine iff_of_true ⟨[NG], lcd, none, rfl, ?_, rfl, fun _ => rfl⟩ trivial
      intro status hstatus
      cases hstatus
  | cons cmd rest =>
      by_cases hctrl : cmd = CMD_LCD_CTRL
      · subst hctrl
        refine iff_of_true ?_ (complete_of_ne (by decide) _ rest)
        refine ⟨[(handleLcdControlFrame (CMD_LCD_CTRL :: rest) lcd).1], _, _, rfl, ?_, ?_, ?_⟩
        · intro status hstatus
          rw [tsHandle, if_pos rfl, control_toTs] at hstatus
          cases hstatus
          rfl
        · rw [tsHandle, if_pos rfl, control_toTs]
          rfl
        · intro hng
          exact control_ng (List.cons.inj hng).1
      · by_cases htext : cmd = CMD_LCD_TEXT
        · subst htext
          rcases rest with _ | ⟨row, _ | ⟨col, _ | ⟨len, chars⟩⟩⟩
          · exact iff_of_false (fun ⟨_, _, _, h, _⟩ => by cases h) (fun h => h rfl)
          · exact iff_of_false (fun ⟨_, _, _, h, _⟩ => by cases h) (fun h => h rfl)
          · exact iff_of_false (fun ⟨_, _, _, h, _⟩ => by cases h) (fun h => h rfl)
          · exact alike_text row col len chars
        · refine iff_of_true ?_ (complete_of_ne htext _ rest)
          refine ⟨[OK], lcd, none, ?_, ?_, ?_, fun _ => rfl⟩
          · rw [handleCpuToIoWithLogger, dispatchLcdFrame, if_neg hctrl, if_neg htext]
            rfl
          · intro status hstatus
            rw [tsHandle, if_neg hctrl, if_neg htext] at hstatus
            cases hstatus
          · rw [tsHandle, if_neg hctrl, if_neg htext]

/-- The displays are the same. -/
def Same (s : Pair) : Prop := s.2 = toTs s.1

theorem step_alike {frame : List U8} (h : Alike s frame) : Same (step s frame) := by
  obtain ⟨answer, lcd, event, hanswer, -, hsame, -⟩ := h
  rw [Same, step, hanswer]
  exact hsame

/-- A session treats every frame alike exactly when every frame is complete in the state it
meets. -/
theorem session_alike_iff (frames : List (List U8)) :
    Always step Alike (new, EmuTs.LcdConsole.reset) frames ↔
      Always step Complete (new, EmuTs.LcdConsole.reset) frames := by
  have hstart : Same (new, EmuTs.LcdConsole.reset) := rfl
  exact always_iff hstart (fun _ frame h => alike_iff_complete h frame)
    fun _ _ _ h => step_alike h

/-- The single byte 18h stops the Rust board. -/
theorem short_text_panics :
    ¬ ∀ frames, Always step Alike (new, EmuTs.LcdConsole.reset) frames := by
  intro h
  obtain ⟨⟨answer, lcd, event, hanswer, -⟩, -⟩ := h [[CMD_LCD_TEXT]]
  cases hanswer

end Runs

end Lcd
end EmuRs
end RetroCpu
