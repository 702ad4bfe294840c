import RetroCpu.AsmRs.Expression
import RetroCpu.AsmTs.Include
import RetroCpu.Lib.Trimming

/-!
# Include files of the Rust assembler (`asm_rs/src/include/`)

A path is the list of its parts behind the root.  The depth of the recursion is bounded, and has
no result at the bound.
-/

namespace RetroCpu
namespace AsmRs
namespace Include

open FileTree Inlining Relation Trimming
open AsmTs.Include (Text parts isAbsolute shown linesOf joinLines Shows ShowsLines
  showsLines_failed showsLines_cons Inlines sampleTree)

section Source

/-- The loop of `strip_line_comment` -/
def stripLoop : Option Char → Text → Text
  | _, [] => []
  | some q, ch :: cs => ch :: stripLoop (if ch = q then none else some q) cs
  | none, ch :: cs =>
      if ch = '\'' ∨ ch = '"' then ch :: stripLoop (some ch) cs
      else if ch = ';' then []
      else if ch = '/' ∧ cs.head? = some '/' then []
      else ch :: stripLoop none cs

/-- `strip_line_comment` -/
def stripLineComment (line : Text) : Text := stripLoop none line

/-- `match_include_operand` -/
def matchIncludeOperand (body : Text) : Option Text :=
  let upper := body.map Char.toUpper
  if ".INCLUDE ".toList <+: upper then some (trimBy isWhitespace (body.drop 9))
  else if "INCLUDE ".toList <+: upper then some (trimBy isWhitespace (body.drop 8))
  else none

/-- `parse_include_operand` -/
def parseIncludeOperand (operandText : Text) : Except String Text :=
  let trimmed := trimBy isWhitespace operandText
  if trimmed = [] then .error "INCLUDE requires a file path."
  else if ((trimmed.head? = some '"' ∧ trimmed.getLast? = some '"') ∨
      (trimmed.head? = some '\'' ∧ trimmed.getLast? = some '\'')) ∧ 2 ≤ trimmed.length then
    .ok (trimBy isWhitespace (trimmed.drop 1).dropLast)
  else .ok trimmed

/-- `resolve_include_path` -/
def resolveIncludePath (fromDir : List String) (operand : Text) : List String :=
  if isAbsolute operand then parts (operand.drop 1) else fromDir ++ parts operand

/-- `detect_cycle` -/
def detectCycle (includeStack : List Path) (absInclude : Path) : Except String Unit :=
  if includeStack.any (· == absInclude) then
    .error ("Include cycle detected: " ++
      " -> ".intercalate ((includeStack ++ [absInclude]).map shown))
  else .ok ()

/-- The lines from number `idx` on; `expand` is the call for an include file.  `failure` is what
the system tells of a path that it cannot read. -/
def expandLines (tree : FileTree Text) (failure : List String → String)
    (expand : Text → List String → List Path → Option (Except String Text))
    (absDir : List String) (includeStack : List Path) :
    Nat → List Text → Option (Except String (List Text))
  | _, [] => some (.ok [])
  | idx, raw :: lines =>
      match matchIncludeOperand (trimBy isWhitespace (stripLineComment raw)) with
      | none =>
          (expandLines tree failure expand absDir includeStack (idx + 1) lines).map
            (Except.map (raw :: ·))
      | some operandText =>
          match parseIncludeOperand operandText with
          | .error e => some (.error e)
          | .ok includeOperand =>
              let includeFile := resolveIncludePath absDir includeOperand
              let absInclude := (tree.walk [] includeFile).getD (components includeFile)
              match detectCycle includeStack absInclude with
              | .error e => some (.error e)
              | .ok () =>
                  match tree.walk [] includeFile with
                  | none =>
                      some (.error ("Include file not found: " ++ String.ofList includeOperand ++
                        " (" ++ shown absDir ++ ":" ++ Nat.repr (idx + 1) ++ ")"))
                  | some file =>
                      match tree.read file with
                      | none =>
                          some (.error ("failed to read include file " ++ shown includeFile ++
                            ": " ++ failure includeFile))
                      | some nested =>
                          match expand nested (components includeFile).dropLast
                            (includeStack ++ [absInclude]) with
                          | none => none
                          | some (.error e) => some (.error e)
                          | some (.ok expanded) =>
                              (expandLines tree failure expand absDir includeStack (idx + 1)
                                lines).map (Except.map (expanded :: ·))

/-- `expand_internal` -/
def expandInternal (tree : FileTree Text) (failure : List String → String) :
    Nat → Text → List String → List Path → Option (Except String Text)
  | 0, _, _, _ => none
  | fuel + 1, sourceText, fromDir, includeStack =>
      (expandLines tree failure (expandInternal tree failure fuel)
        ((tree.walk [] fromDir).getD fromDir) includeStack 0 (linesOf sourceText)).map
        (Except.map joinLines)

/-- `expand_includes_from_file`, without a stack at its start -/
def expandIncludesFromFile (tree : FileTree Text) (failure : List String → String) (fuel : Nat)
    (entryPath : List String) : Option (Except String Text) :=
  let absPath := (tree.walk [] entryPath).getD entryPath
  match (tree.walk [] entryPath).bind tree.read with
  | none => some (.error ("failed to read " ++ shown absPath ++ ": " ++ failure absPath))
  | some text => expandInternal tree failure fuel text absPath.dropLast [absPath]

end Source

section Expansion

variable (tree : FileTree Text)

/-- What a line of a file in a directory stands for -/
def pieceOf (dir : Path) (raw : Text) : Piece Path Text :=
  match matchIncludeOperand (trimBy isWhitespace (stripLineComment raw)) with
  | none => .line raw
  | some operandText =>
      match parseIncludeOperand operandText with
      | .error _ => .missing
      | .ok includeOperand =>
          match tree.walk [] (resolveIncludePath dir includeOperand) with
          | none => .missing
          | some file => .insert file

/-- The files as texts that are put into each other -/
def textOf (absPath : Path) : Option (List (Piece Path Text)) :=
  (tree.read absPath).map fun text => (linesOf text).map (pieceOf tree absPath.dropLast)

variable {tree}

theorem any_eq_iff {includeStack : List Path} {p : Path} :
    includeStack.any (· == p) = true ↔ p ∈ includeStack := by
  rw [List.any_eq_true]
  constructor
  · rintro ⟨q, hq, heq⟩
    rwa [← eq_of_beq heq]
  · exact fun hp => ⟨p, hp, beq_self_eq_true p⟩

theorem detectCycle_of_mem {includeStack : List Path} {p : Path} (h : p ∈ includeStack) :
    ∃ e, detectCycle includeStack p = .error e := ⟨_, if_pos (any_eq_iff.mpr h)⟩

theorem detectCycle_of_not_mem {includeStack : List Path} {p : Path} (h : p ∉ includeStack) :
    detectCycle includeStack p = .ok () := if_neg (mt any_eq_iff.mp h)

/-- The lines of a file are expanded as its pieces are. -/
theorem expandLines_shows {failure : List String → String} {f : Path → Option (Option (List Text))}
    {expand : Text → List String → List Path → Option (Except String Text)} {absDir : Path}
    {includeStack : List Path}
    (hcycle : ∀ file r, f file = some r → file ∈ includeStack → r = none)
    (hunread : ∀ file r, f file = some r → tree.read file = none → r = none)
    (hf : ∀ includeFile file nested r, tree.walk [] includeFile = some file →
      tree.read file = some nested → file ∉ includeStack → f file = some r →
      ∃ e, expand nested (components includeFile).dropLast (includeStack ++ [file]) = some e ∧
        Shows r e)
    {idx : Nat} {lines : List Text} {r : Option (List Text)}
    (h : collect f (lines.map (pieceOf tree absDir)) = some r) :
    ∃ e, expandLines tree failure expand absDir includeStack idx lines = some e ∧ ShowsLines r e ∧
      (r = some [] → lines = []) := by
  induction lines generalizing idx r with
  | nil =>
      cases h
      exact ⟨_, rfl, .lines rfl Iff.rfl, fun _ => rfl⟩
  | cons raw lines ih =>
      rw [List.map_cons, pieceOf] at h
      rw [expandLines]
      cases hop : matchIncludeOperand (trimBy isWhitespace (stripLineComment raw)) with
      | none =>
          rw [hop] at h
          obtain ⟨r, hr, rfl⟩ := Option.map_eq_some_iff.mp h
          exact showsLines_cons (ih hr) List.intercalate_singleton.symm (List.cons_ne_nil _ _)
      | some operandText =>
          rw [hop] at h
          dsimp only at h ⊢
          cases hparse : parseIncludeOperand operandText with
          | error e =>
              rw [hparse] at h
              cases h
              exact showsLines_failed _ _
          | ok includeOperand =>
              rw [hparse] at h
              dsimp only at h ⊢
              cases hwalk : tree.walk [] (resolveIncludePath absDir includeOperand) with
              | none =>
                  rw [hwalk] at h
                  cases h
                  split
                  · exact showsLines_failed _ _
                  · exact showsLines_failed _ _
              | some file =>
                  rw [hwalk] at h
                  dsimp only [Option.getD_some] at h ⊢
                  rw [collect] at h
                  cases hcall : f file with
                  | none => rw [hcall] at h; cases h
                  | some inner =>
                      rw [hcall] at h
                      by_cases hmem : file ∈ includeStack
                      · obtain ⟨e, he⟩ := detectCycle_of_mem hmem
                        rw [he]
                        rw [hcycle file inner hcall hmem] at h
                        cases h
                        exact showsLines_failed _ _
                      rw [detectCycle_of_not_mem hmem]
                      cases hread : tree.read file with
                      | none =>
                          rw [hunread file inner hcall hread] at h
                          cases h
                          exact showsLines_failed _ _
                      | some nested =>
                          obtain ⟨e, he, hshows⟩ := hf _ file nested inner hwalk hread hmem hcall
                          dsimp only
                          rw [he]
                          cases hshows with
                          | fails e =>
                              cases h
                              exact showsLines_failed _ _
                          | lines hne =>
                              obtain ⟨r, hr, rfl⟩ := Option.map_eq_some_iff.mp h
                              exact showsLines_cons (ih hr) rfl hne

/-- A file that is found on the stack is a failure. -/
theorem expand_of_mem {fuel : Nat} {file : Path} {includeStack : List Path}
    {r : Option (List Text)} (h : expand (textOf tree) fuel includeStack file = some r)
    (hmem : file ∈ includeStack) : r = none := by
  cases fuel with
  | zero => cases h
  | succ fuel =>
      rw [expand, if_pos hmem] at h
      cases h
      rfl

/-- So is one that cannot be read. -/
theorem expand_of_unread {fuel : Nat} {file : Path} {includeStack : List Path}
    {r : Option (List Text)} (h : expand (textOf tree) fuel includeStack file = some r)
    (hread : tree.read file = none) : r = none := by
  cases fuel with
  | zero => cases h
  | succ fuel =>
      rw [expand, textOf, hread] at h
      split at h
      · cases h
        rfl
      · cases h
        rfl

/-- The directory of a file that has been found -/
theorem walk_directory {includeFile : List String} {file : Path}
    (hwalk : tree.walk [] includeFile = some file) (hread : (tree.read file).isSome) :
    (tree.walk [] (components includeFile).dropLast).getD (components includeFile).dropLast =
      file.dropLast := by
  rw [walk_parent (walk_components hwalk) hread (decide_eq_true (.inl rfl))]
  rfl

/-- The lines of a text are joined. -/
theorem expandInternal_joins {failure : List String → String} {fuel : Nat} {file : Path}
    {text : Text} {fromDir : List String} {includeStack : List Path} {r : Option (List Text)}
    (hdir : (tree.walk [] fromDir).getD fromDir = file.dropLast)
    (hlines : ∃ e, expandLines tree failure (expandInternal tree failure fuel) file.dropLast
      includeStack 0 (linesOf text) = some e ∧ ShowsLines r e ∧ (r = some [] → linesOf text = [])) :
    ∃ e, expandInternal tree failure (fuel + 1) text fromDir includeStack = some e ∧
      Shows r e := by
  obtain ⟨e, he, hshows, hnil⟩ := hlines
  rw [expandInternal, hdir, he]
  exact ⟨_, rfl, hshows.joined hnil (Js.pieces_ne_nil _)⟩

/-- A text is expanded as its pieces are. -/
theorem expandInternal_shows (failure : List String → String) {fuel : Nat} {file : Path}
    {text : Text} {fromDir : List String} {includeStack : List Path} {r : Option (List Text)}
    (hdir : (tree.walk [] fromDir).getD fromDir = file.dropLast)
    (h : collect (expand (textOf tree) fuel includeStack)
      ((linesOf text).map (pieceOf tree file.dropLast)) = some r) :
    ∃ e, expandInternal tree failure (fuel + 1) text fromDir includeStack = some e ∧
      Shows r e := by
  induction fuel generalizing file text fromDir includeStack r with
  | zero =>
      exact expandInternal_joins hdir (expandLines_shows (fun _ _ => expand_of_mem)
        (fun _ _ => expand_of_unread) (fun _ _ _ _ _ _ _ hr => by cases hr) h)
  | succ fuel ih =>
      refine expandInternal_joins hdir (expandLines_shows (fun _ _ => expand_of_mem)
        (fun _ _ => expand_of_unread) (fun _ _ _ _ hwalk hread hmem hr => ?_) h)
      rw [expand, if_neg hmem, textOf, hread] at hr
      exact ih (walk_directory hwalk (hread ▸ rfl)) hr

theorem names_of_textOf {p : Path} (h : (textOf tree p).isSome) : p ∈ tree.files.map Prod.fst := by
  rw [textOf, Option.isSome_map] at h
  exact mem_names_of_read h

/-- Nothing changes in a path of names. -/
theorem walk_getD_names {dir : Path} (h : ∀ s ∈ dir, IsName s) :
    (tree.walk [] dir).getD dir = dir := by
  cases hwalk : tree.walk [] dir with
  | none => rfl
  | some p =>
      rw [← resolve_of_walk hwalk, resolve_names h]
      rfl

/-- The expansion of a file is the general one. -/
theorem expand_shows (failure : List String → String) {fuel : Nat} {entryPath : List String}
    {absPath : Path} {r : Option (List Text)} (hentry : tree.walk [] entryPath = some absPath)
    (h : expand (textOf tree) fuel [] absPath = some r) :
    ∃ e, expandIncludesFromFile tree failure fuel entryPath = some e ∧ Shows r e := by
  cases fuel with
  | zero => cases h
  | succ fuel =>
      rw [expand, if_neg List.not_mem_nil, textOf] at h
      rw [expandIncludesFromFile, hentry]
      dsimp only [Option.bind_some, Option.getD_some]
      cases hread : tree.read absPath with
      | none =>
          rw [hread] at h
          cases h
          exact ⟨_, rfl, .fails _⟩
      | some text =>
          rw [hread] at h
          have hnames : ∀ s ∈ absPath.dropLast, IsName s := fun s hs =>
            names_of_read (congrArg Option.isSome hread) s (List.mem_of_mem_dropLast hs)
          exact expandInternal_shows failure (walk_getD_names hnames) h

/-- The expansion has an end.  It succeeds exactly where every file that is reached is there and
none includes itself, and then every include line has become its file. -/
theorem includes_expanded (tree : FileTree Text) (failure : List String → String)
    {entryPath : List String} {absPath : Path} (hentry : tree.walk [] entryPath = some absPath)
    {fuel : Nat} (hfuel : tree.files.length < fuel) :
    ∃ e, expandIncludesFromFile tree failure fuel entryPath = some e ∧
      (e.toOption.isSome ↔ Whole (textOf tree) absPath) ∧
      ∀ out, e = .ok out ↔ Inlines (textOf tree) absPath out := by
  obtain ⟨r, hr, hwhole, hyields⟩ := expand_spec (tree.files.map Prod.fst)
    (fun _ => names_of_textOf) (by rwa [List.length_map]) absPath
  obtain ⟨e, he, hshows⟩ := expand_shows failure hentry hr
  exact ⟨e, he, hshows.isSome_iff.trans hwhole, fun out => hshows.inlines_iff hyields⟩

theorem includes_expanded_sample :
    ∃ e, expandIncludesFromFile sampleTree (fun _ => "") 3 ["main.asm"] = some e ∧
      (e.toOption.isSome ↔ Whole (textOf sampleTree) ["main.asm"]) ∧
      ∀ out, e = .ok out ↔ Inlines (textOf sampleTree) ["main.asm"] out :=
  includes_expanded sampleTree (fun _ => "") rfl (Nat.lt_succ_self 2)

end Expansion

end Include
end AsmRs
end RetroCpu
