import RetroCpu.AsmTs.Parser
import RetroCpu.Lib.FileTree
import RetroCpu.Lib.HexText
import RetroCpu.Lib.Inlining

/-!
# Include files of the TypeScript assembler (`asm_ts/src/main/cli.ts`)

A path is the list of its parts behind the root.  The depth of the recursion is bounded, and has
no result at the bound.
-/

namespace RetroCpu
namespace AsmTs
namespace Include

open Js LineParser FileTree Inlining Relation

abbrev Text := List Char

section Source

/-- The group of `/^(?:\.INCLUDE|INCLUDE)\s+(.+)$/i` in the line without comment -/
def includeOperandOf (raw : Text) : Option Text :=
  (matchAll [.word [".INCLUDE", "INCLUDE"], .plus isSpace, .plus anyChar]
    (trimChars (stripLineComment raw))).map fun segments => segments.getD 2 []

/-- `parseIncludeOperand` -/
def parseIncludeOperand (operandText : Text) : Except String Text :=
  let trimmed := trimChars operandText
  if trimmed = [] then .error "INCLUDE requires a file path."
  else if (trimmed.head? = some '"' ∧ trimmed.getLast? = some '"') ∨
      (trimmed.head? = some '\'' ∧ trimmed.getLast? = some '\'') then
    .ok (trimChars (trimmed.drop 1).dropLast)
  else .ok trimmed

/-- The parts of the text of a path -/
def parts (path : Text) : List String := (pieces (· == '/') path).map String.ofList

/-- `path.isAbsolute` -/
def isAbsolute (path : Text) : Bool := path.head? = some '/'

/-- A path as it is shown -/
def shown (p : Path) : String := "/" ++ "/".intercalate p

/-- The path of an include file -/
def includeFileOf (absPath : Path) (includeOperand : Text) : List String :=
  if isAbsolute includeOperand then parts includeOperand
  else resolve absPath.dropLast (parts includeOperand)

/-- The lines of a file -/
def linesOf (text : Text) : List Text := pieces (· == '\n') (joinLineEnds text)

/-- `join("\n")` -/
def joinLines (lines : List Text) : Text := List.intercalate ['\n'] lines

/-- The lines from number `i` on; `expand` is the call for an include file. -/
def expandLines (tree : FileTree Text) (expand : List String → Option (Except String Text))
    (absPath : Path) : Nat → List Text → Option (Except String (List Text))
  | _, [] => some (.ok [])
  | i, raw :: lines =>
      match includeOperandOf raw with
      | none => (expandLines tree expand absPath (i + 1) lines).map (Except.map (raw :: ·))
      | some operandText =>
          match parseIncludeOperand operandText with
          | .error e => some (.error e)
          | .ok includeOperand =>
              let includeFile := includeFileOf absPath includeOperand
              -- `existsSync` walks the directories
              if tree.walk [] includeFile = none then
                some (.error ("Include file not found: " ++ String.ofList includeOperand ++ " (" ++
                  shown absPath ++ ":" ++ Nat.repr (i + 1) ++ ")"))
              else
                match expand includeFile with
                | none => none
                | some (.error e) => some (.error e)
                | some (.ok expanded) =>
                    (expandLines tree expand absPath (i + 1) lines).map (Except.map (expanded :: ·))

/-- `expandIncludesFromFile`; `failure` is what `readFileSync` tells of a path that is no file. -/
def expandIncludesFromFile (tree : FileTree Text) (failure : Path → String) :
    Nat → List String → List Path → Option (Except String Text)
  | 0, _, _ => none
  | fuel + 1, entryPath, includeStack =>
      let absPath := resolve [] entryPath
      if absPath ∈ includeStack then
        some (.error ("Include cycle detected: " ++
          " -> ".intercalate ((includeStack ++ [absPath]).map shown)))
      else
        match tree.read absPath with
        | none => some (.error (failure absPath))
        | some text =>
            (expandLines tree (fun includeFile =>
              expandIncludesFromFile tree failure fuel includeFile (includeStack ++ [absPath]))
              absPath 0 (linesOf text)).map (Except.map joinLines)

end Source

section Joining

theorem joinLines_cons (x : Text) {out : List Text} (h : out ≠ []) :
    joinLines (x :: out) = x ++ '\n' :: joinLines out := by
  obtain ⟨y, ys, rfl⟩ := List.exists_cons_of_ne_nil h
  rw [joinLines, List.intercalate_cons_cons, List.append_assoc, List.singleton_append, joinLines]

theorem joinLines_append {xs ys : List Text} (hxs : xs ≠ []) (hys : ys ≠ []) :
    joinLines (xs ++ ys) = joinLines xs ++ '\n' :: joinLines ys := by
  induction xs with
  | nil => exact absurd rfl hxs
  | cons x xs ih =>
      cases xs with
      | nil =>
          rw [List.singleton_append, joinLines_cons x hys, joinLines, joinLines,
            List.intercalate_singleton]
      | cons y xs =>
          rw [List.cons_append, joinLines_cons x (List.append_ne_nil_of_right_ne_nil _ hys),
            joinLines_cons x (List.cons_ne_nil _ _), ih (List.cons_ne_nil _ _), List.append_assoc,
            List.cons_append]

end Joining

section Expansion

variable (tree : FileTree Text)

/-- What a line of a file stands for -/
def pieceOf (absPath : Path) (raw : Text) : Piece Path Text :=
  match includeOperandOf raw with
  | none => .line raw
  | some operandText =>
      match parseIncludeOperand operandText with
      | .error _ => .missing
      | .ok includeOperand =>
          let includeFile := includeFileOf absPath includeOperand
          if tree.walk [] includeFile = none then .missing
          else .insert (resolve [] includeFile)

/-- The files as texts that are put into each other -/
def textOf (absPath : Path) : Option (List (Piece Path Text)) :=
  (tree.read absPath).map fun text => (linesOf text).map (pieceOf tree absPath)

/-- The outcome of the code for one of the general expansion -/
inductive Shows : Option (List Text) → Except String Text → Prop
  | fails (e : String) : Shows none (.error e)
  | lines {as : List Text} (hne : as ≠ []) : Shows (some as) (.ok (joinLines as))

/-- The same for the lines before they are joined -/
inductive ShowsLines : Option (List Text) → Except String (List Text) → Prop
  | fails (e : String) : ShowsLines none (.error e)
  | lines {as out : List Text} (hjoin : joinLines out = joinLines as)
      (hnil : out = [] ↔ as = []) : ShowsLines (some as) (.ok out)

variable {tree}

theorem ShowsLines.cons {r : Option (List Text)} {e : Except String (List Text)} {x : Text}
    {bs : List Text} (h : ShowsLines r e) (hx : x = joinLines bs) (hbs : bs ≠ []) :
    ShowsLines (r.map (bs ++ ·)) (e.map (x :: ·)) := by
  cases h with
  | fails e => exact .fails e
  | @lines as out hjoin hnil =>
      refine .lines ?_ (iff_of_false (List.cons_ne_nil _ _) fun h =>
        hbs (List.append_eq_nil_iff.mp h).1)
      dsimp only
      by_cases has : as = []
      · rw [hnil.mpr has, has, List.append_nil, hx, joinLines, List.intercalate_singleton]
      · rw [joinLines_cons x (mt hnil.mp has), joinLines_append hbs has, hjoin, hx]

theorem map_append_ne {r : Option (List Text)} {bs : List Text} (hbs : bs ≠ []) :
    r.map (bs ++ ·) ≠ some [] := by
  intro h
  obtain ⟨as, -, has⟩ := Option.map_eq_some_iff.mp h
  exact hbs (List.append_eq_nil_iff.mp has).1

theorem ShowsLines.joined {r : Option (List Text)} {e : Except String (List Text)}
    {lines : List Text} (h : ShowsLines r e) (hnil : r = some [] → lines = []) (hne : lines ≠ []) :
    Shows r (e.map joinLines) := by
  cases h with
  | fails e => exact .fails e
  | @lines as out hjoin _ =>
      show Shows (some as) (.ok (joinLines out))
      rw [hjoin]
      exact .lines fun has => hne (hnil (congrArg some has))

/-- A line that stops the expansion -/
theorem showsLines_failed (e : String) (lines : List Text) :
    ∃ e', some (Except.error e) = some e' ∧ ShowsLines none e' ∧
      ((none : Option (List Text)) = some [] → lines = []) :=
  ⟨_, rfl, .fails e, fun h => by cases h⟩

/-- A line in front of others -/
theorem showsLines_cons {outcome : Option (Except String (List Text))} {r : Option (List Text)}
    {raw x : Text} {bs lines : List Text}
    (h : ∃ e, outcome = some e ∧ ShowsLines r e ∧ (r = some [] → lines = []))
    (hx : x = joinLines bs) (hbs : bs ≠ []) :
    ∃ e, outcome.map (Except.map (x :: ·)) = some e ∧ ShowsLines (r.map (bs ++ ·)) e ∧
      (r.map (bs ++ ·) = some [] → raw :: lines = []) := by
  obtain ⟨e, rfl, hshows, -⟩ := h
  exact ⟨_, rfl, hshows.cons hx hbs, fun hnil => absurd hnil (map_append_ne hbs)⟩

/-- The lines of a file are expanded as its pieces are. -/
theorem expandLines_shows {f : Path → Option (Option (List Text))}
    {expand : List String → Option (Except String Text)} {absPath : Path}
    (hf : ∀ includeFile r, f (resolve [] includeFile) = some r →
      ∃ e, expand includeFile = some e ∧ Shows r e) {i : Nat} {lines : List Text}
    {r : Option (List Text)} (h : collect f (lines.map (pieceOf tree absPath)) = some r) :
    ∃ e, expandLines tree expand absPath i lines = some e ∧ ShowsLines r e ∧
      (r = some [] → lines = []) := by
  induction lines generalizing i r with
  | nil =>
      cases h
      exact ⟨_, rfl, .lines rfl Iff.rfl, fun _ => rfl⟩
  | cons raw lines ih =>
      rw [List.map_cons, pieceOf] at h
      rw [expandLines]
      cases hop : includeOperandOf raw with
      | none =>
          rw [hop] at h
          obtain ⟨r, hr, rfl⟩ := Option.map_eq_some_iff.mp h
          exact showsLines_cons (ih hr) List.intercalate_singleton.symm (List.cons_ne_nil _ _)
      | some operandText =>
          rw [hop] at h
          dsimp only at h ⊢
          cases hparse : parseIncludeOperand operandText with
          | error e =>
              rw [hparse] at h
              cases h
              exact showsLines_failed _ _
          | ok includeOperand =>
              rw [hparse] at h
              dsimp only at h ⊢
              by_cases hexists : tree.walk [] (includeFileOf absPath includeOperand) = none
              · rw [if_pos hexists] at h
                rw [if_pos hexists]
                cases h
                exact showsLines_failed _ _
              · rw [if_neg hexists, collect] at h
                rw [if_neg hexists]
                cases hcall : f (resolve [] (includeFileOf absPath includeOperand)) with
                | none => rw [hcall] at h; cases h
                | some inner =>
                    obtain ⟨e, he, hshows⟩ := hf _ _ hcall
                    rw [hcall] at h
                    rw [he]
                    cases hshows with
                    | fails e =>
                        cases h
                        exact showsLines_failed _ _
                    | lines hne =>
                        obtain ⟨r, hr, rfl⟩ := Option.map_eq_some_iff.mp h
                        exact showsLines_cons (ih hr) rfl hne

/-- The expansion of a file is the general one. -/
theorem expand_shows (failure : Path → String) {fuel : Nat} {entryPath : List String}
    {includeStack : List Path} {r : Option (List Text)}
    (h : expand (textOf tree) fuel includeStack (resolve [] entryPath) = some r) :
    ∃ e, expandIncludesFromFile tree failure fuel entryPath includeStack = some e ∧ Shows r e := by
  induction fuel generalizing entryPath includeStack r with
  | zero => cases h
  | succ fuel ih =>
      rw [expand, textOf] at h
      rw [expandIncludesFromFile]
      by_cases hcycle : resolve [] entryPath ∈ includeStack
      · rw [if_pos hcycle] at h
        rw [if_pos hcycle]
        cases h
        exact ⟨_, rfl, .fails _⟩
      · rw [if_neg hcycle] at h
        rw [if_neg hcycle]
        cases hread : tree.read (resolve [] entryPath) with
        | none =>
            rw [hread] at h
            cases h
            exact ⟨_, rfl, .fails _⟩
        | some text =>
            rw [hread] at h
            obtain ⟨e, he, hshows, hnil⟩ := expandLines_shows (i := 0) (fun _ _ hr => ih hr) h
            dsimp only
            rw [he]
            exact ⟨_, rfl, hshows.joined hnil (pieces_ne_nil _)⟩

theorem Shows.toOption {r : Option (List Text)} {e : Except String Text} (h : Shows r e) :
    e.toOption = r.map joinLines := by
  cases h with
  | fails e => rfl
  | lines hne => rfl

theorem Shows.isSome_iff {r : Option (List Text)} {e : Except String Text} (h : Shows r e) :
    e.toOption.isSome ↔ r.isSome := by
  rw [h.toOption, Option.isSome_map]

theorem Shows.ok_iff {r : Option (List Text)} {e : Except String Text} (h : Shows r e)
    (out : Text) : e = .ok out ↔ ∃ as, r = some as ∧ out = joinLines as := by
  cases h with
  | fails e =>
      constructor
      · intro h
        cases h
      · rintro ⟨_, h, _⟩
        cases h
  | @lines as hne =>
      constructor
      · rintro ⟨⟩
        exact ⟨as, rfl, rfl⟩
      · rintro ⟨as, ⟨⟩, rfl⟩
        rfl

/-- What is put in where the include files are whole -/
def Inlines (text : Path → Option (List (Piece Path Text))) (p : Path) (out : Text) : Prop :=
  ∃ ps as, text p = some ps ∧ Yields text ps as ∧ out = joinLines as

theorem Shows.inlines_iff {r : Option (List Text)} {e : Except String Text} {p : Path} {out : Text}
    {text : Path → Option (List (Piece Path Text))} (h : Shows r e)
    (hyields : ∀ as, r = some as ↔ ∃ ps, text p = some ps ∧ Yields text ps as) :
    e = .ok out ↔ Inlines text p out := by
  refine (h.ok_iff out).trans ⟨?_, ?_⟩
  · rintro ⟨as, has, hout⟩
    obtain ⟨ps, hps, hlines⟩ := (hyields as).mp has
    exact ⟨ps, as, hps, hlines, hout⟩
  · rintro ⟨ps, as, hps, hlines, hout⟩
    exact ⟨as, (hyields as).mpr ⟨ps, hps, hlines⟩, hout⟩

theorem names_of_textOf {p : Path} (h : (textOf tree p).isSome) : p ∈ tree.files.map Prod.fst := by
  rw [textOf, Option.isSome_map] at h
  exact mem_names_of_read h

/-- The expansion has an end.  It succeeds exactly where every file that is reached is there and
none includes itself, and then every include line has become its file. -/
theorem includes_inlined (tree : FileTree Text) (failure : Path → String)
    (entryPath : List String) {fuel : Nat} (hfuel : tree.files.length < fuel) :
    ∃ e, expandIncludesFromFile tree failure fuel entryPath [] = some e ∧
      (e.toOption.isSome ↔ Whole (textOf tree) (resolve [] entryPath)) ∧
      ∀ out, e = .ok out ↔ Inlines (textOf tree) (resolve [] entryPath) out := by
  obtain ⟨r, hr, hwhole, hyields⟩ := expand_spec (tree.files.map Prod.fst)
    (fun _ => names_of_textOf) (by rwa [List.length_map]) (resolve [] entryPath)
  obtain ⟨e, he, hshows⟩ := expand_shows failure hr
  exact ⟨e, he, hshows.isSome_iff.trans hwhole, fun out => hshows.inlines_iff hyields⟩

/-- A file that includes another one -/
def sampleTree : FileTree Text where
  files := [(["main.asm"], ".include \"lib/io.asm\"\n\tHLT".toList),
    (["lib", "io.asm"], "; I/O".toList)]
  names := by simp [IsName]
  leaf := by simp

theorem includes_inlined_sample :
    ∃ e, expandIncludesFromFile sampleTree (fun _ => "") 3 ["main.asm"] [] = some e ∧
      (e.toOption.isSome ↔ Whole (textOf sampleTree) (resolve [] ["main.asm"])) ∧
      ∀ out, e = .ok out ↔ Inlines (textOf sampleTree) (resolve [] ["main.asm"]) out :=
  includes_inlined sampleTree (fun _ => "") ["main.asm"] (Nat.lt_succ_self 2)

end Expansion

end Include
end AsmTs
end RetroCpu
