import RetroCpu.Lib.JsArith
import RetroCpu.Lib.JsMap

/-!
# Data of the assembler (`types.ts`)
-/

namespace RetroCpu
namespace AsmTs

open Js

/-- A parsed source line. -/
structure ParsedLine where
  lineNo : Nat
  text : String
  label : Option String
  op : Option String
  args : List String
deriving DecidableEq, Repr

/-- Values of the defined symbols, by upper-case name. -/
abbrev SymbolTable := JsMap Number

inductive SymbolKind
  | local
  | global
  | external
deriving DecidableEq, Repr

structure SymbolInfo where
  value : Number
  kind : SymbolKind
  /-- The area of a label; a `.equ` symbol has none. -/
  area : Option String
deriving DecidableEq, Repr

abbrev SymbolInfoTable := JsMap SymbolInfo

inductive RelocOperand
  /-- The value of a symbol. -/
  | symbol (name : String)
  /-- An offset within an area of the module. -/
  | word (value : Int) (area : Option String)
  | const (value : Int)
deriving DecidableEq, Repr

inductive RelocWidth
  | word16
  | low8
deriving DecidableEq, Repr

/-- A field that the linker completes, at a byte address of its area. -/
structure WordDiffReloc where
  byteAddr : Int
  left : RelocOperand
  right : RelocOperand
  area : Option String
  width : Option RelocWidth
deriving DecidableEq, Repr

/-- An output word; the address counts words (MN1613) or bytes (TMS9995). -/
structure EmittedWord where
  address : Int
  value : Int
  lineNo : Nat
  source : String
  area : String
deriving DecidableEq, Repr

/-- An area and its size in address units. -/
structure AreaInfo where
  name : String
  size : Int
  noload : Bool
deriving DecidableEq, Repr

/-- A checkpoint of a comment, at an address of its area. -/
structure AsmCheckpoint where
  name : String
  serial : String
  area : String
  address : Int
deriving DecidableEq, Repr

/-- What the assembler yields; the source lines, which only listings use, are left out. -/
structure AssemblyResult where
  words : List EmittedWord
  symbols : SymbolTable
  symbolInfos : SymbolInfoTable
  relocs : List WordDiffReloc
  areas : List AreaInfo
  /-- Addresses of the reservations, by line number. -/
  storageAddrs : List (Nat × Int)
  byteMode : Bool
  checkpoints : List AsmCheckpoint
deriving DecidableEq

/-- `args[i]` where the count has been checked -/
def ParsedLine.arg (line : ParsedLine) (i : Nat) : String := line.args.getD i ""

end AsmTs
end RetroCpu
