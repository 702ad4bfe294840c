import RetroCpu.EmuTs.DmaLoad
import RetroCpu.IntelHex.Plans

/-!
# The two Intel HEX loaders

On a well-formed text the loaders agree when the records fit into 32 bits.  On any other text
each of them goes its own way: it must come to a line that it refuses before a line that it
takes for the EOF record.
-/

namespace RetroCpu
namespace IntelHex

open EmuRs.IntelHex
open EmuTs (JsByte recordsOf feed)

section Walks

variable {lines : List (List Char)} {base : U32} {records raw : List Chunk} {σ : Type}

theorem absolute_toInt (base addr : U32) :
    EmuTs.absolute base.toInt addr.toInt = (base + addr).toNat := by
  rw [EmuTs.absolute, Js.ushr, Js.toBits, BitVec.ofInt_add, BitVec.ofInt_toInt,
    BitVec.ofInt_toInt]
  change ((base + addr) >>> 0).toNat = _
  rw [BitVec.ushiftRight_zero]

theorem walkLines_readLines (onData : U32 → List U8 → σ → σ) (li : Nat)
    (h : readLines lines base = some records) (s : σ) :
    walkLines onData lines li base s =
      .ok (records.foldl (fun s r => onData r.1 r.2 s) s) := by
  induction lines generalizing li base records s with
  | nil => cases h
  | cons line lines ih =>
      rw [readLines] at h
      rw [walkLines]
      cases hline : readLine line with
      | none =>
          rw [hline] at h
          cases h
      | some l =>
          rw [hline] at h
          rw [parseLine_readLine li hline]
          cases l with
          | blank => exact ih (li + 1) h s
          | other => exact ih (li + 1) h s
          | base b => exact ih (li + 1) h s
          | eof =>
              cases h
              rfl
          | data addr bytes =>
              obtain ⟨rest, hrest, rfl⟩ := Option.map_eq_some_iff.mp h
              exact ih (li + 1) hrest _

theorem recordsOf_readLines (li : Nat) (h : readLines lines base = some records) :
    recordsOf (lines.map unitsOf) li base.toInt = .ok (records.map tsRecord) := by
  induction lines generalizing li base records with
  | nil => cases h
  | cons line lines ih =>
      rw [readLines] at h
      rw [List.map_cons, recordsOf]
      cases hline : readLine line with
      | none =>
          rw [hline] at h
          cases h
      | some l =>
          rw [hline] at h
          rw [parseLine_unitsOf li hline]
          cases l with
          | blank => exact ih (li + 1) h
          | other => exact ih (li + 1) h
          | base b => exact ih (li + 1) h
          | eof =>
              cases h
              rfl
          | data addr bytes =>
              obtain ⟨rest, hrest, rfl⟩ := Option.map_eq_some_iff.mp h
              rw [tsLine]
              dsimp only
              rw [ih (li + 1) hrest, absolute_toInt]
              rfl

theorem feed_tsRecord (records : List Chunk) (raw : List (Nat × List JsByte)) :
    feed (fun abs data raw => .ok (EmuTs.addRecord abs data raw)) (records.map tsRecord) raw =
      .ok (tsChunks raw records) := by
  induction records generalizing raw with
  | nil => rfl
  | cons r records ih => exact ih _

/-- A record without data makes no difference. -/
theorem rsChunks_held_eq (records raw : List Chunk) :
    rsChunks raw (held records) = rsChunks raw records := by
  induction records generalizing raw with
  | nil => rfl
  | cons r records ih =>
      rw [held, List.filter_cons]
      split
      · exact ih _
      · next hnil =>
          rw [Bool.not_eq_true, Bool.not_eq_false', List.isEmpty_iff] at hnil
          have hskip : addRecord r.1 r.2 raw = raw := if_pos hnil
          change rsChunks raw (held records) = rsChunks (addRecord r.1 r.2 raw) records
          rw [hskip]
          exact ih raw

theorem tsChunks_held_eq (records : List Chunk) (raw : List (Nat × List JsByte)) :
    tsChunks raw (held records) = tsChunks raw records := by
  induction records generalizing raw with
  | nil => rfl
  | cons r records ih =>
      rw [held, List.filter_cons]
      split
      · exact ih _
      · next hnil =>
          rw [Bool.not_eq_true, Bool.not_eq_false', List.isEmpty_iff] at hnil
          have hskip : EmuTs.addRecord r.1.toNat (r.2.map jsByte) raw = raw :=
            if_pos (by rw [hnil]; rfl)
          change tsChunks raw (held records) =
            tsChunks (EmuTs.addRecord r.1.toNat (r.2.map jsByte) raw) records
          rw [hskip]
          exact ih raw

theorem held_ne_nil (records : List Chunk) : ∀ r ∈ held records, r.2 ≠ [] := by
  intro r hr
  have hkept := (List.mem_filter.mp hr).2
  rw [Bool.not_eq_true', ← Bool.not_eq_true, List.isEmpty_iff] at hkept
  exact hkept

end Walks

section Verdicts

/-- What a loader makes of a line. -/
inductive Verdict
  | goesOn
  | ends
  | refuses
  | panics
deriving DecidableEq

def Verdict.ofTs : Except String EmuTs.Line → Verdict
  | .error _ => .refuses
  | .ok .eof => .ends
  | .ok _ => .goesOn

def Verdict.ofRs : Outcome Line → Verdict
  | .err _ => .refuses
  | .panic => .panics
  | .ok .eof => .ends
  | .ok _ => .goesOn

def tsVerdict (line : List Char) : Verdict := .ofTs (EmuTs.parseLine 0 (unitsOf line))

def rsVerdict (line : List Char) : Verdict := .ofRs (parseLine 0 line)

/-- The first line that a loader does not go on from, if any, is one that it refuses. -/
def RefusedBy (verdict : List Char → Verdict) (lines : List (List Char)) : Prop :=
  ∀ front line back, lines = front ++ line :: back → (∀ l ∈ front, verdict l = .goesOn) →
    verdict line = .goesOn ∨ verdict line = .refuses

variable {verdict : List Char → Verdict} {line : List Char} {lines : List (List Char)}

theorem refusedBy_nil : RefusedBy verdict [] := by
  intro front line back h
  cases front with
  | nil => cases h
  | cons l front => cases h

theorem refusedBy_cons : RefusedBy verdict (line :: lines) ↔
    verdict line = .refuses ∨ verdict line = .goesOn ∧ RefusedBy verdict lines := by
  constructor
  · intro h
    rcases h [] line lines rfl (fun l hl => absurd hl List.not_mem_nil) with hgo | hno
    · refine .inr ⟨hgo, fun front l back hlines hfront => ?_⟩
      refine h (line :: front) l back (by rw [hlines]; rfl) ?_
      exact List.forall_mem_cons.mpr ⟨hgo, hfront⟩
    · exact .inl hno
  · intro h front l back hlines hfront
    cases front with
    | nil =>
        obtain ⟨rfl, rfl⟩ := List.cons.inj hlines
        exact h.elim .inr fun hgo => .inl hgo.1
    | cons l' front =>
        obtain ⟨rfl, hrest⟩ := List.cons.inj hlines
        obtain ⟨hgo, hfront⟩ := List.forall_mem_cons.mp hfront
        rcases h with hno | ⟨-, hlater⟩
        · rw [hno] at hgo
          cases hgo
        · exact hlater front l back hrest hfront

/-- The number of a line is only in the messages. -/
theorem ofTs_parseLine (li : Nat) (line : List Char) :
    Verdict.ofTs (EmuTs.parseLine li (unitsOf line)) = tsVerdict line := by
  rw [tsVerdict, EmuTs.parseLine, EmuTs.parseLine]
  split
  · rfl
  · split
    · rfl
    · split
      · rfl
      · split
        · rfl
        · rw [EmuTs.parseRecord, EmuTs.parseRecord]
          split
          · rfl
          · split
            · rfl
            · split
              · split <;> rfl
              · split
                · split <;> rfl
                · rfl

/-- An outcome without its message -/
def quiet {α : Type} : Outcome α → Outcome α
  | .ok a => .ok a
  | .err _ => .err ""
  | .panic => .panic

theorem quiet_pushPair (li : Nat) (pair : List Char) {x y : Outcome (List U8)}
    (h : quiet x = quiet y) : quiet (pushPair li pair x) = quiet (pushPair 0 pair y) := by
  rw [pushPair, pushPair]
  cases fromStrRadix16 pair with
  | none => rfl
  | some b =>
      cases x with
      | ok bytes =>
          cases y with
          | ok bytes' =>
              cases h
              rfl
          | err e => cases h
          | panic => cases h
      | err e =>
          cases y with
          | ok bytes' => cases h
          | err e => rfl
          | panic => cases h
      | panic =>
          cases y with
          | ok bytes' => cases h
          | err e => cases h
          | panic => rfl

theorem quiet_readPairs (li : Nat) (hex : List Char) :
    quiet (readPairs li hex) = quiet (readPairs 0 hex) := by
  induction hex using readPairs.induct with
  | case1 => rfl
  | case2 c hc =>
      rw [readPairs, readPairs, if_pos hc, if_pos hc]
      exact quiet_pushPair li [c] rfl
  | case3 c hc => rw [readPairs, readPairs, if_neg hc, if_neg hc]
  | case4 c d hex hc ih =>
      rw [readPairs, readPairs, if_pos hc, if_pos hc]
      exact quiet_pushPair li [c] ih
  | case5 c d hex hc hone ih =>
      rw [readPairs, readPairs, if_neg hc, if_neg hc, if_pos hone, if_pos hone]
      exact quiet_pushPair li [c, d] ih
  | case6 c d hex hc hone =>
      rw [readPairs, readPairs, if_neg hc, if_neg hc, if_neg hone, if_neg hone]

theorem ofRs_parseRecord (li : Nat) (bytes : List U8) :
    Verdict.ofRs (parseRecord li bytes) = .ofRs (parseRecord 0 bytes) := by
  rw [parseRecord, parseRecord]
  dsimp only
  split
  · rfl
  · split
    · rfl
    · split
      · rfl
      · split
        · split <;> rfl
        · split
          · split <;> rfl
          · rfl

theorem ofRs_parseLine (li : Nat) (line : List Char) :
    Verdict.ofRs (parseLine li line) = rsVerdict line := by
  rw [rsVerdict, parseLine, parseLine]
  split
  · rfl
  · next colon hex _ =>
      split
      · rfl
      · split
        · rfl
        · have hquiet := quiet_readPairs li hex
          cases hli : readPairs li hex with
          | err e =>
              cases hzero : readPairs 0 hex with
              | err e' => rfl
              | panic =>
                  rw [hli, hzero] at hquiet
                  cases hquiet
              | ok bytes =>
                  rw [hli, hzero] at hquiet
                  cases hquiet
          | panic =>
              cases hzero : readPairs 0 hex with
              | err e' =>
                  rw [hli, hzero] at hquiet
                  cases hquiet
              | panic => rfl
              | ok bytes =>
                  rw [hli, hzero] at hquiet
                  cases hquiet
          | ok bytes =>
              cases hzero : readPairs 0 hex with
              | err e' =>
                  rw [hli, hzero] at hquiet
                  cases hquiet
              | panic =>
                  rw [hli, hzero] at hquiet
                  cases hquiet
              | ok bytes' =>
                  rw [hli, hzero] at hquiet
                  cases hquiet
                  dsimp only
                  split
                  · rfl
                  · exact ofRs_parseRecord li bytes

theorem refusedBy_goesOn (h : verdict line = .goesOn) :
    RefusedBy verdict (line :: lines) ↔ RefusedBy verdict lines := by
  rw [refusedBy_cons, h]
  constructor
  · rintro (hno | hlater)
    · cases hno
    · exact hlater.2
  · exact fun hlater => .inr ⟨rfl, hlater⟩

theorem not_refusedBy (hgo : verdict line ≠ .goesOn) (hno : verdict line ≠ .refuses) :
    ¬ RefusedBy verdict (line :: lines) := by
  rw [refusedBy_cons]
  rintro (h | h)
  · exact hno h
  · exact hgo h.1

/-- The texts that the TypeScript loader rejects. -/
theorem recordsOf_error_iff (lines : List (List Char)) (li : Nat) (base : Int) :
    (∃ e, recordsOf (lines.map unitsOf) li base = .error e) ↔ RefusedBy tsVerdict lines := by
  induction lines generalizing li base with
  | nil => exact iff_of_true ⟨_, rfl⟩ refusedBy_nil
  | cons line lines ih =>
      have hverdict := ofTs_parseLine li line
      rw [List.map_cons, recordsOf]
      cases hline : EmuTs.parseLine li (unitsOf line) with
      | error e =>
          rw [hline] at hverdict
          exact iff_of_true ⟨e, rfl⟩ (refusedBy_cons.mpr (.inl hverdict.symm))
      | ok l =>
          rw [hline] at hverdict
          cases l with
          | blank =>
              rw [refusedBy_goesOn hverdict.symm]
              exact ih (li + 1) base
          | other =>
              rw [refusedBy_goesOn hverdict.symm]
              exact ih (li + 1) base
          | base b =>
              rw [refusedBy_goesOn hverdict.symm]
              exact ih (li + 1) b
          | eof =>
              refine iff_of_false ?_ (not_refusedBy ?_ ?_)
              · rintro ⟨e, he⟩
                cases he
              · rw [← hverdict]
                exact Verdict.noConfusion
              · rw [← hverdict]
                exact Verdict.noConfusion
          | data addr bytes =>
              rw [refusedBy_goesOn hverdict.symm, ← ih (li + 1) base]
              dsimp only
              cases recordsOf (lines.map unitsOf) (li + 1) base with
              | error e => exact iff_of_true ⟨e, rfl⟩ ⟨e, rfl⟩
              | ok rest =>
                  refine iff_of_false ?_ ?_
                  · rintro ⟨e, he⟩
                    cases he
                  · rintro ⟨e, he⟩
                    cases he

/-- The texts that the Rust loader rejects. -/
theorem walkLines_err_iff {σ : Type} (onData : U32 → List U8 → σ → σ) (lines : List (List Char))
    (li : Nat) (base : U32) (s : σ) :
    (∃ e, walkLines onData lines li base s = .err e) ↔ RefusedBy rsVerdict lines := by
  induction lines generalizing li base s with
  | nil => exact iff_of_true ⟨_, rfl⟩ refusedBy_nil
  | cons line lines ih =>
      have hverdict := ofRs_parseLine li line
      rw [walkLines]
      cases hline : parseLine li line with
      | err e =>
          rw [hline] at hverdict
          exact iff_of_true ⟨e, rfl⟩ (refusedBy_cons.mpr (.inl hverdict.symm))
      | panic =>
          rw [hline] at hverdict
          refine iff_of_false ?_ (not_refusedBy ?_ ?_)
          · rintro ⟨e, he⟩
            cases he
          · rw [← hverdict]
            exact Verdict.noConfusion
          · rw [← hverdict]
            exact Verdict.noConfusion
      | ok l =>
          rw [hline] at hverdict
          cases l with
          | blank =>
              rw [refusedBy_goesOn hverdict.symm]
              exact ih (li + 1) base s
          | other =>
              rw [refusedBy_goesOn hverdict.symm]
              exact ih (li + 1) base s
          | base b =>
              rw [refusedBy_goesOn hverdict.symm]
              exact ih (li + 1) b s
          | data addr bytes =>
              rw [refusedBy_goesOn hverdict.symm]
              exact ih (li + 1) base _
          | eof =>
              refine iff_of_false ?_ (not_refusedBy ?_ ?_)
              · rintro ⟨e, he⟩
                cases he
              · rw [← hverdict]
                exact Verdict.noConfusion
              · rw [← hverdict]
                exact Verdict.noConfusion

end Verdicts

section Loaders

variable {text : List Char} {records : List Chunk}

theorem tsPlan_of_recordsOf {tsRecords : List (Nat × List JsByte)}
    (h : recordsOf ((linesOf text).map unitsOf) 0 0 = .ok tsRecords) :
    ∃ plan, EmuTs.intelHexToDmaPlan (unitsOf text) = .ok plan := by
  obtain ⟨raw, hraw, -⟩ := EmuTs.feed_addRecord tsRecords [] fun r hr => absurd hr List.not_mem_nil
  refine ⟨EmuTs.planOf raw, ?_⟩
  rw [EmuTs.intelHexToDmaPlan, EmuTs.walkIntelHexData, linesOf_unitsOf, EmuTs.walkLines_feed h,
    hraw]

theorem ts_error_iff (text : List Char) :
    (∃ e, EmuTs.intelHexToDmaPlan (unitsOf text) = .error e) ↔
      RefusedBy tsVerdict (linesOf text) := by
  rw [← recordsOf_error_iff (linesOf text) 0 0]
  cases h : recordsOf ((linesOf text).map unitsOf) 0 0 with
  | error e =>
      obtain ⟨e', he⟩ := EmuTs.walkLines_error (fun abs data raw => .ok (EmuTs.addRecord abs data raw))
        h []
      refine iff_of_true ⟨e', ?_⟩ ⟨e, rfl⟩
      rw [EmuTs.intelHexToDmaPlan, EmuTs.walkIntelHexData, linesOf_unitsOf, he]
  | ok tsRecords =>
      obtain ⟨plan, hplan⟩ := tsPlan_of_recordsOf h
      rw [hplan]
      refine iff_of_false ?_ ?_
      · rintro ⟨e, he⟩
        cases he
      · rintro ⟨e, he⟩
        cases he

theorem rs_err_iff (text : List Char) :
    (∃ e, intelHexToDmaPlan text = .err e) ↔ RefusedBy rsVerdict (linesOf text) := by
  rw [← walkLines_err_iff addRecord (linesOf text) 0 0 [], intelHexToDmaPlan, walkIntelHexData,
    ← linesOf]
  cases walkLines addRecord (linesOf text) 0 0 [] with
  | err e => exact iff_of_true ⟨e, rfl⟩ ⟨e, rfl⟩
  | panic =>
      refine iff_of_false ?_ ?_
      · rintro ⟨e, he⟩
        cases he
      · rintro ⟨e, he⟩
        cases he
  | ok raw =>
      refine iff_of_false ?_ ?_
      · rintro ⟨e, he⟩
        cases he
      · rintro ⟨e, he⟩
        cases he

/-- The plans of a well-formed text. -/
theorem plans_of_readText (h : readText text = some records) :
    intelHexToDmaPlan text = .ok (planOf (rsChunks [] (held records))) ∧
      EmuTs.intelHexToDmaPlan (unitsOf text) = .ok (EmuTs.planOf (tsChunks [] (held records))) := by
  constructor
  · rw [intelHexToDmaPlan, walkIntelHexData]
    have hwalk := walkLines_readLines addRecord 0 h []
    rw [linesOf] at hwalk
    rw [hwalk, rsChunks_held_eq]
    rfl
  · have hrecords : recordsOf ((linesOf text).map unitsOf) 0 0 = .ok (records.map tsRecord) :=
      recordsOf_readLines 0 h
    rw [EmuTs.intelHexToDmaPlan, EmuTs.walkIntelHexData, linesOf_unitsOf,
      EmuTs.walkLines_feed hrecords, feed_tsRecord, tsChunks_held_eq]

/-- The loaders agree on a text: Rust does not panic, both accept it with the same plan or neither
does, and neither accepts a malformed text. -/
structure LoadAlike (text : List Char) : Prop where
  noPanic : intelHexToDmaPlan text ≠ .panic
  same : ∀ plan, EmuTs.intelHexToDmaPlan (unitsOf text) = .ok plan ↔
    ∃ p, intelHexToDmaPlan text = .ok p ∧ tsPlan p = plan
  malformed : readText text = none →
    (∃ e, EmuTs.intelHexToDmaPlan (unitsOf text) = .error e) ∧
      ∃ e, intelHexToDmaPlan text = .err e

theorem loadAlike_of_some (h : readText text = some records) :
    LoadAlike text ↔ Fits (held records) := by
  obtain ⟨hrs, hts⟩ := plans_of_readText h
  rw [← planOf_iff (held_ne_nil records)]
  constructor
  · intro hload
    obtain ⟨p, hp, hplan⟩ := (hload.same _).mp hts
    rw [hrs] at hp
    cases hp
    exact hplan.symm
  · intro heq
    refine ⟨?_, fun plan => ?_, fun hnone => ?_⟩
    · rw [hrs]
      intro hno
      cases hno
    · rw [hrs, hts, heq]
      constructor
      · intro hplan
        exact ⟨_, rfl, Except.ok.inj hplan⟩
      · rintro ⟨p, ⟨⟩, rfl⟩
        rfl
    · rw [h] at hnone
      cases hnone

theorem loadAlike_of_none (h : readText text = none) :
    LoadAlike text ↔ RefusedBy tsVerdict (linesOf text) ∧ RefusedBy rsVerdict (linesOf text) := by
  rw [← ts_error_iff, ← rs_err_iff]
  constructor
  · exact fun hload => hload.malformed h
  · rintro ⟨⟨e, he⟩, ⟨e', he'⟩⟩
    refine ⟨?_, fun plan => ?_, fun _ => ⟨⟨e, he⟩, ⟨e', he'⟩⟩⟩
    · rw [he']
      intro hno
      cases hno
    · rw [he, he']
      refine iff_of_false ?_ ?_
      · intro hno
        cases hno
      · rintro ⟨p, hno, -⟩
        cases hno

/-- A character of three bytes behind the EOF record -/
example : intelHexToDmaPlan ":00000001€0".toList = .panic := by decide

/-- A count that is too small: both loaders leave out the second byte. -/
example : ∃ p, intelHexToDmaPlan ":010000001122CC\n:00000001FF".toList = .ok p ∧
    EmuTs.intelHexToDmaPlan (unitsOf ":010000001122CC\n:00000001FF".toList) = .ok (tsPlan p) :=
  ⟨⟨[⟨0, [0x11]⟩], 1, 0, some 0⟩, by decide, by decide⟩

end Loaders

end IntelHex
end RetroCpu
