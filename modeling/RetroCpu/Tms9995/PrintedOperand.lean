import RetroCpu.AsmRs.NumberText
import RetroCpu.AsmRs.Tms9995Encoder
import RetroCpu.DisAssembler.Tms9995

/-!
# Printed operands of the TMS9995

What the disassembler prints for an operand is read by the assembler as that operand.
-/

namespace RetroCpu
namespace Tms9995

open AsmRs (SymbolTable Plain NumberToken evalExpr trim isWhitespace)
open AsmRs.Tms9995
open DisAssembler.Tms9995
open Checked

section Characters

/-- A character of a printed operand. -/
structure Printed (c : Char) : Prop where
  blank : isWhitespace c = false
  comma : c ≠ ','

theorem trim_printed {cs : List Char} (h : ∀ c ∈ cs, Printed c) :
    trim (String.ofList cs) = String.ofList cs := AsmRs.trim_ofList fun c hc => (h c hc).blank

/-- What the reader asks of a hexadecimal digit. -/
structure DigitSpec (n : Nat) (c : Char) : Prop where
  plain : Plain c
  printed : Printed c
  value : AsmRs.toDigit 16 c = some n
  other : c ≠ '(' ∧ c ≠ '[' ∧ c ≠ ')' ∧ c ≠ ']' ∧ c ≠ '+' ∧ c ≠ '-'

theorem hexDigit_spec (n : Nat) (hn : n < 16) : DigitSpec n (hexDigit n) := by
  have h : ∀ n : Fin 16, AsmRs.isAsciiWhitespace (hexDigit n) = false ∧
      AsmRs.isOperatorChar (hexDigit n) = false ∧ (hexDigit n).utf8Size = 1 ∧
      hexDigit n ≠ '\'' ∧ hexDigit n ≠ '<' ∧ hexDigit n ≠ '>' ∧
      isWhitespace (hexDigit n) = false ∧ hexDigit n ≠ ',' ∧
      AsmRs.toDigit 16 (hexDigit n) = some n.val ∧ hexDigit n ≠ '(' ∧ hexDigit n ≠ '[' ∧
      hexDigit n ≠ ')' ∧ hexDigit n ≠ ']' ∧ hexDigit n ≠ '+' ∧ hexDigit n ≠ '-' := by
    decide
  obtain ⟨h1, h2, h3, h4, h5, h6, h7, h8, h9, h10⟩ := h ⟨n, hn⟩
  exact ⟨⟨h1, h2, h3, h4, h5, h6⟩, ⟨h7, h8⟩, h9, h10⟩

/-- The digits of a word. -/
def hexDigits (v : Word) : List Char :=
  [hexDigit (v.toNat / 4096 % 16), hexDigit (v.toNat / 256 % 16), hexDigit (v.toNat / 16 % 16),
    hexDigit (v.toNat % 16)]

theorem hex16_eq (v : Word) : hex16 v = String.ofList ('0' :: 'x' :: hexDigits v) := rfl

theorem hexDigits_spec (v : Word) : ∀ c ∈ hexDigits v, ∃ n, DigitSpec n c := by
  intro c hc
  have hmod (n : Nat) : n % 16 < 16 := Nat.mod_lt _ (by decide)
  rcases List.mem_cons.mp hc with rfl | hc
  · exact ⟨_, hexDigit_spec _ (hmod _)⟩
  rcases List.mem_cons.mp hc with rfl | hc
  · exact ⟨_, hexDigit_spec _ (hmod _)⟩
  rcases List.mem_cons.mp hc with rfl | hc
  · exact ⟨_, hexDigit_spec _ (hmod _)⟩
  obtain rfl := List.mem_singleton.mp hc
  exact ⟨_, hexDigit_spec _ (hmod _)⟩

/-- The digits `0` and `x` in front. -/
theorem hexMark_plain : Plain '0' ∧ Plain 'x' :=
  ⟨⟨by decide, by decide, by decide, by decide, by decide⟩,
    ⟨by decide, by decide, by decide, by decide, by decide⟩⟩

theorem hex16_plain (v : Word) : ∀ c ∈ '0' :: 'x' :: hexDigits v, Plain c := by
  intro c hc
  rcases List.mem_cons.mp hc with rfl | hc
  · exact hexMark_plain.1
  rcases List.mem_cons.mp hc with rfl | hc
  · exact hexMark_plain.2
  obtain ⟨n, h⟩ := hexDigits_spec v c hc
  exact h.plain

theorem hex16_printed (v : Word) : ∀ c ∈ '0' :: 'x' :: hexDigits v, Printed c := by
  intro c hc
  rcases List.mem_cons.mp hc with rfl | hc
  · exact ⟨by decide, by decide⟩
  rcases List.mem_cons.mp hc with rfl | hc
  · exact ⟨by decide, by decide⟩
  obtain ⟨n, h⟩ := hexDigits_spec v c hc
  exact h.printed

theorem trim_hex16 (v : Word) : trim (hex16 v) = hex16 v := trim_printed (hex16_printed v)

end Characters

section Values

variable {symbols : SymbolTable} {allowUndefined : Bool}

theorem digitsValue_hexDigits (v : Word) : AsmRs.digitsValue 16 (hexDigits v) = some v.toNat := by
  have hmod (n : Nat) : n % 16 < 16 := Nat.mod_lt _ (by decide)
  have hvalue (n : Nat) : AsmRs.toDigit 16 (hexDigit (n % 16)) = some (n % 16) :=
    (hexDigit_spec _ (hmod n)).value
  have hlt := v.isLt
  simp only [AsmRs.digitsValue, hexDigits, List.foldlM_cons, List.foldlM_nil, hvalue,
    Option.map_some, Option.bind_eq_bind, Option.bind_some, Option.pure_def, Option.some.injEq]
  omega

/-- A printed word is a number. -/
theorem hex16_number (v : Word) : NumberToken (hex16 v) v.toNat := by
  have hhead := (hexDigit_spec (v.toNat / 4096 % 16) (Nat.mod_lt _ (by decide))).other
  have hfits : AsmRs.InI32 v.toNat := by
    have := v.isLt
    constructor
    · omega
    · omega
  have hvalue : AsmRs.fromStrRadix (hexDigits v) 16 = some (v.toNat : Int) := by
    refine AsmRs.fromStrRadix_digits ?_ (by simp [hexDigits]) (digitsValue_hexDigits v) hfits
    intro c hc
    obtain rfl := Option.some.inj hc
    exact ⟨hhead.2.2.2.2.2, hhead.2.2.2.2.1⟩
  have hlength : ¬ AsmRs.byteLength ('0' :: 'x' :: hexDigits v) ≤ 2 := by
    have hzero : ('0' : Char).utf8Size = 1 := rfl
    have hx : ('x' : Char).utf8Size = 1 := rfl
    have hpos := Char.utf8Size_pos (hexDigit (v.toNat / 4096 % 16))
    simp only [AsmRs.byteLength, hexDigits, List.map_cons, List.sum_cons, hzero, hx]
    omega
  have hsplit : AsmRs.split2 ('0' :: 'x' :: hexDigits v) = some (['0', 'x'], hexDigits v) := rfl
  refine ⟨?_, ?_, ?_⟩
  · intro h
    have := congrArg String.toList h
    rw [hex16_eq, String.toList_ofList] at this
    cases this
  · have hne (s : String) (c : Char) (hs : s.toList.head? = some c) (hc : c ≠ '0') : hex16 v ≠ s := by
      rintro rfl
      rw [hex16_eq, String.toList_ofList] at hs
      exact hc (Option.some.inj hs).symm
    rw [AsmRs.parseSign, if_neg (hne "+" '+' rfl (by decide)), if_neg (hne "-" '-' rfl (by decide)),
      if_neg (hne "~" '~' rfl (by decide))]
  · rw [AsmRs.parseNumber, trim_hex16, hex16_eq, String.toList_ofList]
    simp only [hlength, if_false, hsplit, true_or, if_true, hvalue]
    rfl

/-- The value of a printed word. -/
theorem evalExpr_hex16 (v : Word) : evalExpr symbols allowUndefined (hex16 v) = .ok v.toNat := by
  refine AsmRs.evalExpr_number ?_ ?_ (hex16_number v)
  · rw [hex16_eq, AsmRs.substCharLiterals, String.toList_ofList,
      AsmRs.substCharLoop_plain _ fun c hc => (hex16_plain v c hc).quote]
    rfl
  · exact AsmRs.tokenize_plain (by simp) (hex16_plain v)

/-- The text of a negative displacement. -/
theorem repr_negative {d : BitVec 8} (h : ¬ d.toNat < 128) :
    Int.repr d.toInt = "-" ++ Nat.repr (256 - d.toNat) ∧
      d.toInt = -((256 - d.toNat : Nat) : Int) := by
  have hlt := d.isLt
  have hvalue : d.toInt = Int.negSucc (255 - d.toNat) := by
    rw [BitVec.toInt_eq_toNat_cond, if_neg (by omega)]
    omega
  have hsucc : 255 - d.toNat + 1 = 256 - d.toNat := by omega
  rw [hvalue]
  constructor
  · rw [← hsucc]
    rfl
  · omega

/-- The text of a displacement that is not negative. -/
theorem repr_nonnegative {d : BitVec 8} (h : d.toNat < 128) :
    Int.repr d.toInt = Nat.repr d.toNat ∧ d.toInt = d.toNat := by
  have hvalue : d.toInt = d.toNat := by
    rw [BitVec.toInt_eq_toNat_cond, if_pos (by omega)]
  rw [hvalue]
  exact ⟨rfl, rfl⟩

/-- A signed displacement. -/
theorem evalExpr_displacement (d : BitVec 8) :
    evalExpr symbols allowUndefined (Int.repr d.toInt) = .ok d.toInt := by
  have hlt := d.isLt
  by_cases hsign : d.toNat < 128
  · obtain ⟨htext, hvalue⟩ := repr_nonnegative hsign
    rw [htext, hvalue]
    exact AsmRs.evalExpr_repr (by constructor <;> omega)
  · obtain ⟨htext, hvalue⟩ := repr_negative hsign
    rw [htext, hvalue]
    exact AsmRs.evalExpr_neg_repr (by constructor <;> omega) (by constructor <;> omega)

end Values

section Registers

variable (symbols : SymbolTable) (allowUndefined : Bool) (lineNo : Nat)

theorem reg_lt (r : Word) : (r &&& 0xf).toNat < 16 := by
  rw [BitVec.toNat_and]
  exact Nat.lt_of_le_of_lt Nat.and_le_right (by decide)

/-- The text may be a general address. -/
structure Addressing (s : String) : Prop where
  trimmed : trim s = s
  nonempty : s.toList ≠ []
  immediate : s.toList.head? ≠ some '#'
  foreign : ¬ (s.toList.head? = some '@' ∨ isTiStarReg s = true)

theorem parseGeneralAddr_eq {s : String} (h : Addressing s) :
    parseGeneralAddr symbols allowUndefined lineNo s =
      match autoIncrement s.toList with
      | some r => .ok ⟨3, r, none⟩
      | none =>
      match indirect s.toList with
      | some r => .ok ⟨1, r, none⟩
      | none =>
      match parseReg s with
      | some r => .ok ⟨0, r, none⟩
      | none => parseMemoryAddr symbols allowUndefined lineNo s := by
  rw [parseGeneralAddr]
  simp only [h.trimmed]
  rw [if_neg h.nonempty, if_neg h.immediate]
  refine (if_neg h.foreign).trans ?_
  cases autoIncrement s.toList with
  | some r => rfl
  | none =>
      cases indirect s.toList with
      | some r => rfl
      | none =>
          cases parseReg s with
          | some r => rfl
          | none => rfl

/-- What the reader sees in the name of a register, and in the indirect forms. -/
theorem register_text : ∀ n ∈ List.range 16,
    parseReg ("R" ++ Nat.repr n) = some (BitVec.ofNat 16 n) ∧
    (trim ("R" ++ Nat.repr n) = "R" ++ Nat.repr n ∧
      ("R" ++ Nat.repr n).toList.head? = some 'R' ∧ isTiStarReg ("R" ++ Nat.repr n) = false ∧
      autoIncrement ("R" ++ Nat.repr n).toList = none ∧
      indirect ("R" ++ Nat.repr n).toList = none) := by
  decide

theorem indirect_text : ∀ n ∈ List.range 16,
    trim ("(" ++ ("R" ++ Nat.repr n) ++ ")") = "(" ++ ("R" ++ Nat.repr n) ++ ")" ∧
      ("(" ++ ("R" ++ Nat.repr n) ++ ")").toList.head? = some '(' ∧
      isTiStarReg ("(" ++ ("R" ++ Nat.repr n) ++ ")") = false ∧
      autoIncrement ("(" ++ ("R" ++ Nat.repr n) ++ ")").toList = none ∧
      indirect ("(" ++ ("R" ++ Nat.repr n) ++ ")").toList = some (BitVec.ofNat 16 n) := by
  decide

theorem autoInc_text : ∀ n ∈ List.range 16,
    trim ("(" ++ ("R" ++ Nat.repr n) ++ ")+") = "(" ++ ("R" ++ Nat.repr n) ++ ")+" ∧
      ("(" ++ ("R" ++ Nat.repr n) ++ ")+").toList.head? = some '(' ∧
      isTiStarReg ("(" ++ ("R" ++ Nat.repr n) ++ ")+") = false ∧
      autoIncrement ("(" ++ ("R" ++ Nat.repr n) ++ ")+").toList = some (BitVec.ofNat 16 n) := by
  decide

theorem addressing_of_head {s : String} {c : Char} (htrim : trim s = s)
    (hhead : s.toList.head? = some c) (hc : c ≠ '#' ∧ c ≠ '@') (hti : isTiStarReg s = false) :
    Addressing s := by
  refine ⟨htrim, ?_, ?_, ?_⟩
  · intro h
    rw [h] at hhead
    cases hhead
  · intro h
    exact hc.1 (Option.some.inj (hhead.symm.trans h))
  · rintro (h | h)
    · exact hc.2 (Option.some.inj (hhead.symm.trans h))
    · rw [hti] at h
      cases h

variable {symbols allowUndefined lineNo}

theorem regName_eq (r : Word) : ∃ n < 16, regName r = "R" ++ Nat.repr n ∧
    BitVec.ofNat 16 n = r &&& 0xf :=
  ⟨(r &&& 0xf).toNat, reg_lt r, rfl, by simp⟩

theorem parseReg_regName (r : Word) : parseReg (regName r) = some (r &&& 0xf) := by
  obtain ⟨n, hn, hname, hr⟩ := regName_eq r
  rw [hname, (register_text n (List.mem_range.mpr hn)).1, hr]

theorem read_reg (r : Word) : parseGeneralAddr symbols allowUndefined lineNo
    (formatOp (.reg r)) = .ok ⟨0, r &&& 0xf, none⟩ := by
  obtain ⟨n, hn, hname, hr⟩ := regName_eq r
  obtain ⟨hreg, htrim, hhead, hti, hauto, hindirect⟩ := register_text n (List.mem_range.mpr hn)
  have haddr := addressing_of_head htrim hhead (by decide) hti
  rw [formatOp, hname, parseGeneralAddr_eq _ _ _ haddr, hauto, hindirect, hreg, hr]

theorem read_indirect (r : Word) : parseGeneralAddr symbols allowUndefined lineNo
    (formatOp (.indirect r)) = .ok ⟨1, r &&& 0xf, none⟩ := by
  obtain ⟨n, hn, hname, hr⟩ := regName_eq r
  obtain ⟨htrim, hhead, hti, hauto, hindirect⟩ := indirect_text n (List.mem_range.mpr hn)
  have haddr := addressing_of_head htrim hhead (by decide) hti
  rw [formatOp, hname, parseGeneralAddr_eq _ _ _ haddr, hauto, hindirect, hr]

theorem read_autoInc (r : Word) : parseGeneralAddr symbols allowUndefined lineNo
    (formatOp (.autoInc r)) = .ok ⟨3, r &&& 0xf, none⟩ := by
  obtain ⟨n, hn, hname, hr⟩ := regName_eq r
  obtain ⟨htrim, hhead, hti, hauto⟩ := autoInc_text n (List.mem_range.mpr hn)
  have haddr := addressing_of_head htrim hhead (by decide) hti
  rw [formatOp, hname, parseGeneralAddr_eq _ _ _ haddr, hauto, hr]

end Registers

section Addresses

variable {symbols : SymbolTable} {allowUndefined : Bool} {lineNo : Nat}

theorem splitLast_append {c : Char} {front back : List Char} (hback : c ∉ back) :
    splitLast c (front ++ c :: back) = some (front, back) := by
  have hdrop : (front ++ c :: back).reverse.dropWhile (· ≠ c) = c :: front.reverse := by
    rw [List.reverse_append, List.reverse_cons, List.append_assoc, List.dropWhile_append_of_pos]
    · simp
    · intro d hd
      have : d ≠ c := by
        rintro rfl
        exact hback (by simpa using hd)
      simpa using this
  have htake : (front ++ c :: back).reverse.takeWhile (· ≠ c) = back.reverse := by
    rw [List.reverse_append, List.reverse_cons, List.append_assoc, List.takeWhile_append_of_pos]
    · simp
    · intro d hd
      have : d ≠ c := by
        rintro rfl
        exact hback (by simpa using hd)
      simpa using this
  rw [splitLast, if_pos (by simp), hdrop, htake]
  simp

theorem splitLast_none {c : Char} {cs : List Char} (h : c ∉ cs) : splitLast c cs = none := by
  rw [splitLast, if_neg h]

/-- A text that begins with the digit `0` is no register. -/
theorem digit_text {cs : List Char} (hhead : cs.head? = some '0') (h : ∀ c ∈ cs, Printed c) :
    Addressing (String.ofList cs) ∧ autoIncrement cs = none ∧ indirect cs = none ∧
      parseReg (String.ofList cs) = none := by
  obtain ⟨rest, rfl⟩ : ∃ rest, cs = '0' :: rest := by
    cases cs with
    | nil => cases hhead
    | cons c rest =>
        obtain rfl := Option.some.inj hhead
        exact ⟨rest, rfl⟩
  have htrim := trim_printed h
  have hti : isTiStarReg (String.ofList ('0' :: rest)) = false := by
    rw [isTiStarReg, htrim, String.toList_ofList]
    rfl
  refine ⟨addressing_of_head htrim (by rw [String.toList_ofList]; rfl) (by decide) hti,
    ?_, ?_, ?_⟩
  · rw [autoIncrement, if_neg (by simp [opened])]
  · rw [indirect, if_neg (by simp)]
  · rw [parseReg, htrim, AsmRs.toAsciiUppercase, String.toList_ofList, String.toList_ofList]
    rfl

theorem evalTms_hex16 (v : Word) : evalTms symbols allowUndefined (hex16 v) = .ok v := by
  rw [evalTms, AsmRs.evalWord, evalExpr_hex16]
  change Except.ok (BitVec.ofInt 16 (v.toNat : Int)) = _
  rw [BitVec.ofInt_natCast, BitVec.ofNat_toNat, BitVec.setWidth_eq]

theorem hexDigits_other (v : Word) : ∀ c ∈ '0' :: 'x' :: hexDigits v, c ≠ '(' ∧ c ≠ '[' := by
  intro c hc
  rcases List.mem_cons.mp hc with rfl | hc
  · exact ⟨by decide, by decide⟩
  rcases List.mem_cons.mp hc with rfl | hc
  · exact ⟨by decide, by decide⟩
  obtain ⟨n, h⟩ := hexDigits_spec v c hc
  exact ⟨h.other.1, h.other.2.1⟩

theorem read_sym (a : Word) : parseGeneralAddr symbols allowUndefined lineNo
    (formatOp (.sym a)) = .ok ⟨2, 0, some a⟩ := by
  obtain ⟨haddr, hauto, hindirect, hreg⟩ := digit_text rfl (hex16_printed a)
  have hindexed : indexed ('0' :: 'x' :: hexDigits a) = none := by
    rw [indexed, splitLast_none fun h => (hexDigits_other a _ h).1 rfl,
      splitLast_none fun h => (hexDigits_other a _ h).2 rfl]
    rfl
  rw [formatOp, hex16_eq, parseGeneralAddr_eq _ _ _ haddr, String.toList_ofList, hauto, hindirect,
    hreg]
  change parseMemoryAddr symbols allowUndefined lineNo _ = _
  rw [parseMemoryAddr, String.toList_ofList, hindexed, ← hex16_eq]
  change (evalTms symbols allowUndefined (hex16 a) >>= fun v => pure (GeneralAddr.mk 2 0 (some v))) = _
  rw [evalTms_hex16]
  rfl

theorem register_printed : ∀ n ∈ List.range 16, ∀ c ∈ ("R" ++ Nat.repr n).toList,
    isWhitespace c = false ∧ c ≠ ',' ∧ c ≠ '(' := by
  have h : ∀ n ∈ List.range 16, ("R" ++ Nat.repr n).toList.all (fun c =>
      decide (isWhitespace c = false ∧ c ≠ ',' ∧ c ≠ '(')) = true := by
    decide
  exact fun n hn => Js.forall_mem_of_all (h n hn)

theorem read_indexed (a : Word) {r : Word} (hr : r &&& 0xf ≠ 0) :
    parseGeneralAddr symbols allowUndefined lineNo (formatOp (.indexed a r)) =
      .ok ⟨2, r &&& 0xf, some a⟩ := by
  obtain ⟨n, hn, hname, hrn⟩ := regName_eq r
  have hchars := register_printed n (List.mem_range.mpr hn)
  rw [← hname] at hchars
  have htext : formatOp (.indexed a r) =
      String.ofList ('0' :: 'x' :: hexDigits a ++ '(' :: ((regName r).toList ++ [')'])) := by
    rw [formatOp, hex16_eq]
    apply String.toList_inj.mp
    simp [String.toList_append]
  have hprinted : ∀ c ∈ '0' :: 'x' :: hexDigits a ++ '(' :: ((regName r).toList ++ [')']),
      Printed c := by
    intro c hc
    rcases List.mem_append.mp hc with hc | hc
    · exact hex16_printed a c hc
    rcases List.mem_cons.mp hc with rfl | hc
    · exact ⟨by decide, by decide⟩
    rcases List.mem_append.mp hc with hc | hc
    · exact ⟨(hchars c hc).1, (hchars c hc).2.1⟩
    · obtain rfl := List.mem_singleton.mp hc
      exact ⟨by decide, by decide⟩
  obtain ⟨haddr, hauto, hindirect, hreg⟩ := digit_text rfl hprinted
  have hback : '(' ∉ (regName r).toList ++ [')'] := by
    intro h
    rcases List.mem_append.mp h with h | h
    · exact (hchars _ h).2.2 rfl
    · cases List.mem_singleton.mp h
  have hindexed : indexed ('0' :: 'x' :: hexDigits a ++ '(' :: ((regName r).toList ++ [')'])) =
      some (hex16 a, r &&& 0xf) := by
    rw [indexed, splitLast_append hback]
    have hclosed : closed
        ('0' :: 'x' :: hexDigits a ++ '(' :: ((regName r).toList ++ [')'])) = true := by
      have hend : '0' :: 'x' :: hexDigits a ++ '(' :: ((regName r).toList ++ [')']) =
          ('0' :: 'x' :: hexDigits a ++ '(' :: (regName r).toList) ++ [')'] := by
        simp
      rw [closed, hend, List.getLast?_concat]
      rfl
    have hrest : ((regName r).toList ++ [')']).dropLast = (regName r).toList := by
      simp
    change (if closed _ = true then _ else _) = _
    rw [if_pos hclosed, hrest, String.ofList_toList, parseReg_regName, ← hex16_eq, trim_hex16]
    rfl
  rw [htext, parseGeneralAddr_eq _ _ _ haddr, String.toList_ofList, hauto, hindirect, hreg]
  change parseMemoryAddr symbols allowUndefined lineNo _ = _
  rw [parseMemoryAddr, String.toList_ofList, hindexed]
  change (if r &&& 0xf = 0 then _ else evalTms symbols allowUndefined (hex16 a) >>=
    fun v => pure (GeneralAddr.mk 2 (r &&& 0xf) (some v))) = _
  rw [if_neg hr, evalTms_hex16]
  rfl

end Addresses

section Immediates

variable {symbols : SymbolTable} {allowUndefined : Bool} {lineNo : Nat}

/-- What stands behind the mark of an immediate operand. -/
theorem requireImm_text {s : String} (h : ∀ c ∈ s.toList, Printed c) :
    requireImm symbols allowUndefined lineNo ("#" ++ s) = evalTms symbols allowUndefined s := by
  have htext : "#" ++ s = String.ofList ('#' :: s.toList) := by
    apply String.toList_inj.mp
    simp [String.toList_append]
  have hprinted : ∀ c ∈ '#' :: s.toList, Printed c := by
    intro c hc
    rcases List.mem_cons.mp hc with rfl | hc
    · exact ⟨by decide, by decide⟩
    · exact h c hc
  have htrim := trim_printed h
  rw [String.ofList_toList] at htrim
  rw [requireImm, htext, trim_printed hprinted, String.toList_ofList]
  change evalTms symbols allowUndefined (trim (String.ofList s.toList)) = _
  rw [String.ofList_toList, htrim]

theorem read_imm (v : Word) :
    requireImm symbols allowUndefined lineNo (formatOp (.imm v)) = .ok v := by
  rw [formatOp, requireImm_text, evalTms_hex16]
  intro c hc
  rw [hex16_eq, String.toList_ofList] at hc
  exact hex16_printed v c hc

theorem repr_printed (n : Nat) : ∀ c ∈ (Nat.repr n).toList, Printed c := by
  intro c hc
  rw [Nat.toList_repr] at hc
  have h := AsmRs.decimalDigit (AsmRs.repr_digits n c hc)
  exact ⟨h.blank, h.other.2.2.2.2.2⟩

theorem displacement_printed (d : BitVec 8) : ∀ c ∈ (Int.repr d.toInt).toList, Printed c := by
  intro c hc
  by_cases hsign : d.toNat < 128
  · rw [(repr_nonnegative hsign).1] at hc
    exact repr_printed _ c hc
  · rw [(repr_negative hsign).1, String.toList_append] at hc
    rcases List.mem_append.mp hc with hc | hc
    · obtain rfl := List.mem_singleton.mp hc
      exact ⟨by decide, by decide⟩
    · exact repr_printed _ c hc

/-- A number within the range of an operand is read as itself. -/
theorem read_range {s what : String} {v lo hi : Int} (hprinted : ∀ c ∈ s.toList, Printed c)
    (hvalue : evalExpr symbols false s = .ok v) (hfits : -2 ^ 15 ≤ v ∧ v < 2 ^ 15)
    (hlo : lo ≤ v) (hhi : v ≤ hi) :
    requireImmRange symbols false lineNo ("#" ++ s) lo hi what = .ok v := by
  have hword : evalTms symbols false s = .ok (BitVec.ofInt 16 v) := by
    rw [evalTms, AsmRs.evalWord, hvalue]
    rfl
  have hint : (BitVec.ofInt 16 v).toInt = v := by
    rw [BitVec.toInt_ofInt]
    exact Int.bmod_eq_of_le (by omega) (by omega)
  rw [requireImmRange, requireImm_text hprinted, hword, ok_bind, hint]
  rw [if_neg (by simp; omega)]
  rfl

theorem read_count {what : String} {c : BitVec 8} {hi : Int} (hc : c.toNat ≤ 16)
    (hhi : (c.toNat : Int) ≤ hi) :
    requireImmRange symbols false lineNo (formatOp (.immCount c)) 0 hi what = .ok c.toNat := by
  exact read_range (repr_printed _) (AsmRs.evalExpr_repr (by constructor <;> omega)) (by omega)
    (by omega) hhi

theorem read_xopNum {what : String} {n : BitVec 8} (hn : n.toNat ≤ 15) :
    requireImmRange symbols false lineNo (formatOp (.xopNum n)) 0 15 what = .ok n.toNat := by
  have h := @read_count symbols lineNo what n 15 (by omega) (by omega)
  exact h

theorem read_displacement {what : String} (d : BitVec 8) :
    requireImmRange symbols false lineNo (formatOp (.immDisp d)) (-128) 127 what =
      .ok d.toInt := by
  have hlt := @BitVec.toInt_lt 8 d
  have hle := @BitVec.le_toInt 8 d
  exact read_range (displacement_printed d) (evalExpr_displacement d) (by omega) (by omega) (by omega)

theorem read_jumpTarget (a : Word) :
    evalTms symbols allowUndefined (formatOp (.jumpTarget a)) = .ok a :=
  evalTms_hex16 a

end Immediates

end Tms9995
end RetroCpu
