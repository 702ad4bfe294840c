import Mathlib.Logic.Function.Basic

/-!
# The LCD of the TypeScript I/O board (`lcd_console.ts`)

A display of two lines with 16 columns, written by the frames 17h and 18h.  A character that a
frame announces and does not hold is written as a blank.
-/

namespace RetroCpu
namespace EmuTs
namespace LcdConsole

abbrev U8 := BitVec 8

def LCD_COLS : Nat := 16

def SPACE : U8 := 0x20

def OK : U8 := 0x00
def NG : U8 := 0x01

/-- `ddram`, the rows one after the other -/
abbrev Ddram := Fin 32 → U8

/-- `LcdConsoleEmulator` -/
@[ext]
structure LcdConsoleEmulator where
  ddram : Ddram
  cursorRow : Nat
  cursorCol : Nat
  displayOn : Bool
  cursorOn : Bool
  blinkOn : Bool

section Source

variable (lcd : LcdConsoleEmulator)

/-- `normalizeAscii`, on a byte -/
def normalizeAscii (code : U8) : U8 := if code < 0x20 ∨ code > 0x7e then SPACE else code

/-- `this.ddram[idx] = code`; outside the array nothing is stored -/
def store (ddram : Ddram) (idx : Nat) (code : U8) : Ddram :=
  if h : idx < 32 then Function.update ddram ⟨idx, h⟩ code else ddram

/-- The state after `reset` -/
def reset : LcdConsoleEmulator where
  ddram := fun _ => SPACE
  cursorRow := 0
  cursorCol := 0
  displayOn := true
  cursorOn := false
  blinkOn := false

/-- `home` -/
def home : LcdConsoleEmulator := { lcd with cursorRow := 0, cursorCol := 0 }

/-- `clear` -/
def clear : LcdConsoleEmulator := home { lcd with ddram := fun _ => SPACE }

/-- `setDisplayControl` -/
def setDisplayControl (bits : U8) : LcdConsoleEmulator :=
  { lcd with
    displayOn := bits &&& 0x01 ≠ 0
    cursorOn := bits &&& 0x02 ≠ 0
    blinkOn := bits &&& 0x04 ≠ 0 }

/-- `isValidRow` -/
def isValidRow (row : Nat) : Bool := row = 0 || row = 1

/-- `isValidCol` -/
def isValidCol (col : Nat) : Bool := col < LCD_COLS

/-- `setCursor` -/
def setCursor (row col : Nat) : Bool × LcdConsoleEmulator :=
  if isValidRow row && isValidCol col then (true, { lcd with cursorRow := row, cursorCol := col })
  else (false, lcd)

/-- `handleControlFrame` -/
def handleControlFrame (frame : List U8) : U8 × LcdConsoleEmulator :=
  match frame with
  | _ :: _ :: kind :: argA :: argB :: argC :: _ =>
      if kind = 0 then (OK, clear lcd)
      else if kind = 1 then (OK, home lcd)
      else if kind = 2 then (OK, setDisplayControl lcd argA)
      else if kind = 3 then
        let (placed, lcd) := setCursor lcd argB.toNat argC.toNat
        (if placed then OK else NG, lcd)
      else (NG, lcd)
  | _ => (NG, lcd)

/-- The loop over `i` of `handleTextFrame`; `chars` is the frame from byte 4 on. -/
def writeChars (row col : Nat) (chars : List U8) (maxWritable : Nat) (ddram : Ddram) : Ddram :=
  (List.range maxWritable).foldl (fun ddram i =>
    store ddram (row * LCD_COLS + (col + i)) (normalizeAscii (chars.getD i SPACE))) ddram

/-- `handleTextFrame` -/
def handleTextFrame (frame : List U8) : U8 × LcdConsoleEmulator :=
  match frame with
  | _ :: row :: col :: len :: chars =>
      if !isValidRow row.toNat || !isValidCol col.toNat then (NG, lcd)
      else if len > 16 then (NG, lcd)
      else
        let maxWritable := min len.toNat (LCD_COLS - col.toNat)
        (OK, { lcd with
          ddram := writeChars row.toNat col.toNat chars maxWritable lcd.ddram
          cursorRow := row.toNat
          cursorCol := min (col.toNat + maxWritable) (LCD_COLS - 1) })
  | _ => (NG, lcd)

end Source

section Cells

variable {row col n : Nat} {chars : List U8} {ddram : Ddram} {j : Fin 32}

theorem store_apply (idx : Nat) (code : U8) :
    store ddram idx code j = if j.val = idx then code else ddram j := by
  unfold store
  by_cases h : idx < 32
  · rw [dif_pos h, Function.update_apply]
    by_cases hj : j.val = idx
    · rw [if_pos hj, if_pos (Fin.ext hj)]
    · rw [if_neg hj, if_neg (fun heq => hj (congrArg Fin.val heq))]
  · have hj : j.val ≠ idx := fun heq => h (heq ▸ j.isLt)
    rw [dif_neg h, if_neg hj]

/-- The cells that the loop writes -/
theorem writeChars_apply :
    writeChars row col chars n ddram j =
      if row * 16 + col ≤ j.val ∧ j.val < row * 16 + col + n then
        normalizeAscii (chars.getD (j.val - (row * 16 + col)) SPACE)
      else ddram j := by
  induction n with
  | zero => rw [if_neg (by omega)]; rfl
  | succ n ih =>
      have hstep : writeChars row col chars (n + 1) ddram =
          store (writeChars row col chars n ddram) (row * 16 + (col + n))
            (normalizeAscii (chars.getD n SPACE)) := by
        rw [writeChars, List.range_succ, List.foldl_append]
        rfl
      rw [hstep, store_apply, ih]
      by_cases hj : j.val = row * 16 + (col + n)
      · have hsub : j.val - (row * 16 + col) = n := by omega
        rw [if_pos hj, if_pos (by omega), hsub]
      · rw [if_neg hj]
        by_cases hin : row * 16 + col ≤ j.val ∧ j.val < row * 16 + col + n
        · rw [if_pos hin, if_pos (by omega)]
        · rw [if_neg hin, if_neg (by omega)]

end Cells

end LcdConsole
end EmuTs
end RetroCpu
