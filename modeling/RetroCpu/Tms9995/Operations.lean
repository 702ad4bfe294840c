/-!
# The operations of the TMS9995

The tables of opcodes by format, which the TypeScript and the Rust encoder have alike
(`tms9995_encode.ts`, `tms9995_encoder.rs`).
-/

namespace RetroCpu
namespace Tms9995

/-- The formats that the encoders tell apart. -/
inductive OpFormat
  /-- Format 7: no operand. -/
  | fixed
  /-- Format 8: `#imm`. -/
  | immediate
  /-- Format 8: `Rn`. -/
  | register
  /-- Format 8: `Rn, #imm`. -/
  | registerImmediate
  /-- Format 2: `#disp`. -/
  | cru
  /-- Format 2: a label. -/
  | jump
  /-- Format 5: `Rn, #count`. -/
  | shift
  /-- Format 3: `src, Rn`. -/
  | logical
  /-- Format 4: `addr, #bits`. -/
  | transfer
  /-- Format 9: `src, #n` or `src, Rn`. -/
  | extended
  /-- Format 6: one general operand. -/
  | single
  /-- Format 1: two general operands. -/
  | dual
deriving DecidableEq, Repr

def FMT1 : List (String × Nat) :=
  [("SZC", 0x4000), ("SZCB", 0x5000), ("S", 0x6000), ("SB", 0x7000), ("C", 0x8000),
    ("CB", 0x9000), ("A", 0xa000), ("AB", 0xb000), ("MOV", 0xc000), ("MOVB", 0xd000),
    ("SOC", 0xe000), ("SOCB", 0xf000)]

def FMT2_JUMP : List (String × Nat) :=
  [("JMP", 0x1000), ("JLT", 0x1100), ("JLE", 0x1200), ("JEQ", 0x1300), ("JHE", 0x1400),
    ("JGT", 0x1500), ("JNE", 0x1600), ("JNC", 0x1700), ("JOC", 0x1800), ("JNO", 0x1900),
    ("JL", 0x1a00), ("JH", 0x1b00), ("JOP", 0x1c00)]

def FMT6 : List (String × Nat) :=
  [("BLWP", 0x0400), ("B", 0x0440), ("X", 0x0480), ("CLR", 0x04c0), ("NEG", 0x0500),
    ("INV", 0x0540), ("INC", 0x0580), ("INCT", 0x05c0), ("DEC", 0x0600), ("DECT", 0x0640),
    ("BL", 0x0680), ("SWPB", 0x06c0), ("SETO", 0x0700), ("ABS", 0x0740), ("DIVS", 0x0180),
    ("MPYS", 0x01c0)]

def FMT2_CRU : List (String × Nat) := [("SBO", 0x1d00), ("SBZ", 0x1e00), ("TB", 0x1f00)]

def FMT3 : List (String × Nat) := [("COC", 0x2000), ("CZC", 0x2400), ("XOR", 0x2800)]

def FMT4 : List (String × Nat) := [("LDCR", 0x3000), ("STCR", 0x3400)]

def FMT5 : List (String × Nat) :=
  [("SRA", 0x0800), ("SRL", 0x0900), ("SLA", 0x0a00), ("SRC", 0x0b00)]

def FMT7_FIXED : List (String × Nat) :=
  [("IDLE", 0x0340), ("RSET", 0x0360), ("RTWP", 0x0380), ("CKON", 0x03a0), ("CKOF", 0x03c0),
    ("LREX", 0x03e0)]

def FMT8_IMM : List (String × Nat) := [("LWPI", 0x02e0), ("LIMI", 0x0300)]

def FMT8_REG : List (String × Nat) :=
  [("STWP", 0x02a0), ("STST", 0x02c0), ("LST", 0x0080), ("LWP", 0x0090)]

def FMT8_REG_IMM : List (String × Nat) :=
  [("LI", 0x0200), ("AI", 0x0220), ("ANDI", 0x0240), ("ORI", 0x0260), ("CI", 0x0280)]

def FMT9 : List (String × Nat) := [("XOP", 0x2c00), ("MPY", 0x3800), ("DIV", 0x3c00)]

/-- The tables, in the order of the tests. -/
def formats : List (OpFormat × List (String × Nat)) :=
  [(.fixed, FMT7_FIXED), (.immediate, FMT8_IMM), (.register, FMT8_REG),
    (.registerImmediate, FMT8_REG_IMM), (.cru, FMT2_CRU), (.jump, FMT2_JUMP), (.shift, FMT5),
    (.logical, FMT3), (.transfer, FMT4), (.extended, FMT9), (.single, FMT6), (.dual, FMT1)]

/-- The format and the opcode of a name in upper case. -/
def opFormat (op : String) : Option (OpFormat × Nat) :=
  formats.findSome? fun entry => (entry.2.lookup op).map fun base => (entry.1, base)

/-- The numbers of the workspace registers, shortest first. -/
def registerNumbers : List String :=
  ["0", "1", "2", "3", "4", "5", "6", "7", "8", "9", "10", "11", "12", "13", "14", "15"]

/-- A range of signed numbers, as the messages print it. -/
def rangeText (lo hi : Int) : String := "(" ++ Int.repr lo ++ ".." ++ Int.repr hi ++ ")"

/-- What a format requires, in its message. -/
def OpFormat.requirement (op : String) : OpFormat → String
  | .fixed => op ++ " takes no operands"
  | .immediate => op ++ " requires one immediate"
  | .register => op ++ " requires one register"
  | .registerImmediate => op ++ " requires Rn, imm"
  | .cru => op ++ " requires #disp"
  | .jump => op ++ " requires a label"
  | .shift => op ++ " requires Rn, #count"
  | .logical => op ++ " requires src, Rn"
  | .transfer => op ++ " requires addr, #bits"
  | .extended => op ++ " requires two operands"
  | .single => op ++ " requires one operand"
  | .dual => op ++ " requires src, dst"

/-- The number of operands of a format. -/
def OpFormat.operands : OpFormat → Nat
  | .fixed => 0
  | .immediate | .register | .cru | .jump | .single => 1
  | .registerImmediate | .shift | .logical | .transfer | .extended | .dual => 2

end Tms9995
end RetroCpu
