import RetroCpu.AsmRs.NumberText
import RetroCpu.Lib.HexText

/-!
# Lines with an instruction (`parser/pest_parse.rs`)
-/

namespace RetroCpu
namespace AsmRs

open Js (pieces)

/-- `ws` of the grammar -/
def isBlank (c : Char) : Bool := c == ' ' || c == '\t'

/-- `parse_body` of a line with an operation and operands, without label; neither brackets
nor quotes hold a comma. -/
def parseBody (body : String) : String × List String :=
  let cs := body.toList
  let op := cs.takeWhile fun c => !isBlank c
  let args := (pieces (· == ',') (cs.dropWhile fun c => !isBlank c)).map fun arg =>
    trim (String.ofList arg)
  (toAsciiUppercase (String.ofList op), args.filter (· ≠ ""))

section Instruction

/-- The text of an operation or of an operand. -/
structure Solid (s : String) : Prop where
  nonempty : s.toList ≠ []
  blank : ∀ c ∈ s.toList, isWhitespace c = false
  comma : ∀ c ∈ s.toList, c ≠ ','

theorem isBlank_of_whitespace {c : Char} (h : isWhitespace c = false) : isBlank c = false := by
  have hspace : isWhitespace ' ' = true := by
    decide
  have htab : isWhitespace '\t' = true := by
    decide
  rw [isBlank, Bool.or_eq_false_iff]
  constructor
  · rw [beq_eq_false_iff_ne]
    rintro rfl
    rw [hspace] at h
    cases h
  · rw [beq_eq_false_iff_ne]
    rintro rfl
    rw [htab] at h
    cases h

theorem Solid.trim {s : String} (h : Solid s) : trim s = s := by
  have htrim := trim_ofList h.blank
  rw [String.ofList_toList] at htrim
  exact htrim

theorem Solid.trim_blank {s : String} (h : Solid s) :
    AsmRs.trim (String.ofList (' ' :: s.toList)) = s := by
  have hspace : isWhitespace ' ' = true := by
    decide
  have htrim := h.trim
  rw [AsmRs.trim] at htrim ⊢
  rw [String.toList_ofList, List.dropWhile_cons_of_pos hspace]
  exact htrim

theorem Solid.ne_empty {s : String} (h : Solid s) : s ≠ "" := by
  rintro rfl
  exact h.nonempty rfl

variable {op : String} (hop : Solid op) (hupper : toAsciiUppercase op = op)

include hop in
theorem takeWhile_op (rest : List Char) :
    (op.toList ++ ' ' :: rest).takeWhile (fun c => !isBlank c) = op.toList ∧
      (op.toList ++ ' ' :: rest).dropWhile (fun c => !isBlank c) = ' ' :: rest := by
  have h : ∀ c ∈ op.toList, (!isBlank c) = true := by
    intro c hc
    rw [isBlank_of_whitespace (hop.blank c hc)]
    rfl
  rw [List.takeWhile_append_of_pos h, List.dropWhile_append_of_pos h]
  constructor
  · rw [List.takeWhile_cons_of_neg (by decide), List.append_nil]
  · rw [List.dropWhile_cons_of_neg (by decide)]

include hop hupper in
theorem parseBody_none : parseBody op = (op, []) := by
  have h : ∀ c ∈ op.toList, (!isBlank c) = true := by
    intro c hc
    rw [isBlank_of_whitespace (hop.blank c hc)]
    rfl
  have htake : op.toList.takeWhile (fun c => !isBlank c) = op.toList := by
    simpa using @List.takeWhile_append_of_pos _ _ _ [] h
  have hdrop : op.toList.dropWhile (fun c => !isBlank c) = [] := by
    simpa using @List.dropWhile_append_of_pos _ _ _ [] h
  rw [parseBody]
  simp only [htake, hdrop, String.ofList_toList, hupper]
  rfl

theorem comma_free {a : String} (ha : Solid a) :
    ∀ c ∈ ' ' :: a.toList, (c == ',') = false := by
  intro c hc
  rw [beq_eq_false_iff_ne]
  rcases List.mem_cons.mp hc with rfl | hc
  · decide
  · exact ha.comma c hc

include hop hupper in
theorem parseBody_one {a : String} (ha : Solid a) : parseBody (op ++ " " ++ a) = (op, [a]) := by
  have htext : (op ++ " " ++ a).toList = op.toList ++ ' ' :: a.toList := by
    simp [String.toList_append]
  obtain ⟨htake, hdrop⟩ := takeWhile_op hop a.toList
  rw [parseBody]
  simp only [htext, htake, hdrop, String.ofList_toList, hupper]
  rw [Js.pieces_of_forall (comma_free ha), List.map_cons, ha.trim_blank]
  simp [ha.ne_empty]

include hop hupper in
theorem parseBody_two {a b : String} (ha : Solid a) (hb : Solid b) :
    parseBody (op ++ " " ++ (a ++ ", " ++ b)) = (op, [a, b]) := by
  have htext : (op ++ " " ++ (a ++ ", " ++ b)).toList =
      op.toList ++ ' ' :: (a.toList ++ ',' :: ' ' :: b.toList) := by
    simp [String.toList_append]
  obtain ⟨htake, hdrop⟩ := takeWhile_op hop (a.toList ++ ',' :: ' ' :: b.toList)
  rw [parseBody]
  simp only [htext, htake, hdrop, String.ofList_toList, hupper]
  rw [← List.cons_append, Js.pieces_append (by decide), Js.pieces_of_forall (comma_free ha),
    Js.pieces_of_forall (comma_free hb), List.singleton_append, List.map_cons, List.map_cons,
    ha.trim_blank, hb.trim_blank]
  simp [ha.ne_empty, hb.ne_empty]

end Instruction

end AsmRs
end RetroCpu
