import RetroCpu.AsmTs.Expression

/-!
# Operands that the linker completes (`expression.ts`, first part)

Whether an operand needs a relocation is decided on its text: it must be one symbol, with
the decorations that its position allows.
-/

namespace RetroCpu
namespace AsmTs

open Js

section Operands

variable (symbolInfos : SymbolInfoTable)

/-- `toRelocOperand` -/
def toRelocOperand (name : String) : Option RelocOperand :=
  match symbolInfos.get name with
  | none => none
  | some info =>
      if info.kind = .external then some (.symbol name)
      else some (.word (land info.value.bits 0xffff) (info.area.map fun a => toUpperCase (trim a)))

/-- The symbol of `FOO`, `#FOO`, `@FOO`, `(FOO)` or `[FOO]`, in upper case. -/
def parseSimpleSymbolOperand (expr : String) : Option String :=
  let t := trim expr
  let t := if startsWith t '#' then trim (tail t) else t
  let t := if startsWith t '@' then trim (tail t) else t
  let t :=
    if (startsWith t '(' && endsWith t ')') || (startsWith t '[' && endsWith t ']') then
      trim (inner t)
    else t
  if test symbolPattern t then some (toUpperCase t) else none

/-- A difference `A - B` with a symbol of another module. -/
def matchWordDiffReloc (expr : String) : Option (RelocOperand × RelocOperand) :=
  match exec ([.spaces] ++ symbolPattern ++ [.spaces, .char '-', .spaces] ++ symbolPattern ++
      [.spaces]) [[1, 2], [6, 7]] (trim expr) with
  | some [l, r] =>
      match toRelocOperand symbolInfos (toUpperCase l),
        toRelocOperand symbolInfos (toUpperCase r) with
      | some (.word _ _), some (.word _ _) => none
      | some left, some right => some (left, right)
      | _, _ => none
  | _ => none

/-- The areas whose local labels move with the area. -/
def relocAreas : List String := ["_CODE", "_DATA", "_WORK", "_SYS_PAGE0", "_USR_PAGE0"]

/-- The operand of a symbol, where the areas `areas` move. -/
def matchSymbol (areas : List String) (name : String) : Option (RelocOperand × RelocOperand) :=
  match symbolInfos.get name with
  | none => none
  | some info =>
      if info.kind = .external ∨ info.kind = .global then some (.symbol name, .const 0)
      else
        let area := (info.area.map fun a => toUpperCase (trim a)).getD ""
        if area ∈ areas then
          some (.word (land info.value.bits 0xffff) (some area), .const 0)
        else none

/-- A 16-bit operand that needs an address of the linked program. -/
def matchAbsAddrReloc (expr : String) : Option (RelocOperand × RelocOperand) :=
  match parseSimpleSymbolOperand expr with
  | none => none
  | some name => matchSymbol symbolInfos relocAreas name

/-- The name of `*SYM`, `(*SYM)` or `[*SYM]`. -/
def page0StarName (expr : String) : Option String :=
  let t := trim expr
  if startsWith t '*' then some (trim (tail t))
  else
    let opening := Item.one fun c => c == '[' || c == '('
    let closing := Item.one fun c => c == ']' || c == ')'
    match exec ([opening, .spaces, .char '*', .spaces] ++ symbolPattern ++
        [.spaces, closing, .spaces]) [[4, 5]] t with
    | some [name] => some name
    | _ => none

/-- A zero-page operand that needs an address of the linked program. -/
def matchPage0StarReloc (expr : String) : Option (RelocOperand × RelocOperand) :=
  match page0StarName expr with
  | none => none
  | some nameRaw =>
      if nameRaw = "" then none
      else
        match parseSimpleSymbolOperand nameRaw with
        | none => none
        | some name => matchSymbol symbolInfos ["_SYS_PAGE0", "_USR_PAGE0"] name

end Operands

section StringData

/-- The codes of a double-quoted operand of `.dw`; `none` for other operands. -/
def asciiCodesFromStringArg (arg : String) : Except String (Option (List Nat)) :=
  let t := trim arg
  if t.toList.length < 2 ∨ !startsWith t '"' ∨ !endsWith t '"' then .ok none
  else
    let body := (inner t).toList
    if body.contains '"' then .error ("Invalid string literal: " ++ arg)
    else if body.any fun c => c.toNat > 255 then
      .error ("String character out of range: " ++ arg)
    else .ok (some (body.map Char.toNat))

end StringData

end AsmTs
end RetroCpu
