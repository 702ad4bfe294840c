/-!
# Mnemonics of the MN1613

The operations that the assembler accepts and the disassembler prints; `dotWord` is the
disassembler's `.word`.
-/

namespace RetroCpu
namespace Mn1613

inductive Mnemonic
  | dotWord
  -- memory reference
  | L | ST | B | BAL | IMS | DMS
  -- register to register
  | A | S | C | CB | MV | MVB | BSWP | DSWP | LAD | AND | OR | EOR
  -- shifts, bits, 4-bit and 8-bit immediates
  | SR | SL | SBIT | RBIT | TBIT | AI | SI | MVI
  -- control, stack and I/O
  | LPSW | H | PUSH | POP | RET | RD | WT | PSHM | POPM | RDR | WTR | BLK
  -- transfers
  | LD | STD | LR | STR | MVWR | MVWI | MVBR | BSWR | DSWR
  -- integer and decimal arithmetic
  | AWR | AWI | SWR | SWI | CWR | CWI | CBR | CBI | NEG | AD | SD | M | D | DAA | DAS
  -- logic
  | LADR | LADI | ANDR | ANDI | ORR | ORI | EORR | EORI
  -- floating point
  | FA | FS | FM | FD | FIX | FLT
  -- branches
  | BD | BL | BR | BALD | BALL | BALR | RETL
  -- bit operations
  | TSET | TRST | SRBT | DEBP
  -- segment, special and hardware registers
  | LB | LS | STB | STS | CPYB | CPYS | CPYH | SETB | SETS | SETH
deriving DecidableEq, Repr

/-- The names that the assembler knows. -/
def mnemonics : List (String × Mnemonic) :=
  [("L", .L), ("ST", .ST), ("B", .B), ("BAL", .BAL), ("IMS", .IMS), ("DMS", .DMS), ("A", .A),
    ("S", .S), ("C", .C), ("CB", .CB), ("MV", .MV), ("MVB", .MVB), ("BSWP", .BSWP),
    ("DSWP", .DSWP), ("LAD", .LAD), ("AND", .AND), ("OR", .OR), ("EOR", .EOR), ("SR", .SR),
    ("SL", .SL), ("SBIT", .SBIT), ("RBIT", .RBIT), ("TBIT", .TBIT), ("AI", .AI), ("SI", .SI),
    ("MVI", .MVI), ("LPSW", .LPSW), ("H", .H), ("PUSH", .PUSH), ("POP", .POP), ("RET", .RET),
    ("RD", .RD), ("WT", .WT), ("PSHM", .PSHM), ("POPM", .POPM), ("RDR", .RDR), ("WTR", .WTR),
    ("BLK", .BLK), ("LD", .LD), ("STD", .STD), ("LR", .LR), ("STR", .STR), ("MVWR", .MVWR),
    ("MVWI", .MVWI), ("MVBR", .MVBR), ("BSWR", .BSWR), ("DSWR", .DSWR), ("AWR", .AWR),
    ("AWI", .AWI), ("SWR", .SWR), ("SWI", .SWI), ("CWR", .CWR), ("CWI", .CWI), ("CBR", .CBR),
    ("CBI", .CBI), ("NEG", .NEG), ("AD", .AD), ("SD", .SD), ("M", .M), ("D", .D), ("DAA", .DAA),
    ("DAS", .DAS), ("LADR", .LADR), ("LADI", .LADI), ("ANDR", .ANDR), ("ANDI", .ANDI),
    ("ORR", .ORR), ("ORI", .ORI), ("EORR", .EORR), ("EORI", .EORI), ("FA", .FA), ("FS", .FS),
    ("FM", .FM), ("FD", .FD), ("FIX", .FIX), ("FLT", .FLT), ("BD", .BD), ("BL", .BL),
    ("BR", .BR), ("BALD", .BALD), ("BALL", .BALL), ("BALR", .BALR), ("RETL", .RETL),
    ("TSET", .TSET), ("TRST", .TRST), ("SRBT", .SRBT), ("DEBP", .DEBP), ("LB", .LB),
    ("LS", .LS), ("STB", .STB), ("STS", .STS), ("CPYB", .CPYB), ("CPYS", .CPYS),
    ("CPYH", .CPYH), ("SETB", .SETB), ("SETS", .SETS), ("SETH", .SETH)]

/-- The operation of an upper-case name. -/
def Mnemonic.ofName (name : String) : Option Mnemonic := mnemonics.lookup name

end Mn1613
end RetroCpu
