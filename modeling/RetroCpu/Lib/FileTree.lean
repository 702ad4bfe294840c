import Mathlib.Data.List.Basic
import Mathlib.Data.List.Infix

/-!
# A fixed tree of files

Files without links, named by the directories above them.  A path is walked by the directories
that exist, or resolved by its text alone.
-/

namespace RetroCpu

abbrev Path := List String

/-- A name of a file or a directory. -/
def IsName (s : String) : Prop := s ≠ "" ∧ s ≠ "." ∧ s ≠ ".."

/-- A file with its directories in front of it; no file is a directory of another. -/
structure FileTree (α : Type) where
  files : List (Path × α)
  names : ∀ e ∈ files, e.1 ≠ [] ∧ ∀ s ∈ e.1, IsName s
  leaf : ∀ e ∈ files, ∀ f ∈ files, e.1 <+: f.1 → e.1 = f.1

namespace FileTree

variable {α : Type} (tree : FileTree α)

def read (p : Path) : Option α := tree.files.lookup p

/-- The root, and what stands above a file -/
def isDir (p : Path) : Bool := p = [] ∨ ∃ e ∈ tree.files, p <+: e.1 ∧ p ≠ e.1

/-- Where a path leads to that starts at a place. -/
def walk : Path → List String → Option Path
  | p, [] => if tree.isDir p ∨ (tree.read p).isSome then some p else none
  | p, s :: rest =>
      if tree.isDir p then
        if s = "" ∨ s = "." then walk p rest
        else if s = ".." then walk p.dropLast rest
        else walk (p ++ [s]) rest
      else none

/-- What the text of a path means that starts at a place. -/
def resolve : Path → List String → Path
  | p, [] => p
  | p, s :: rest =>
      if s = "" ∨ s = "." then resolve p rest
      else if s = ".." then resolve p.dropLast rest
      else resolve (p ++ [s]) rest

/-- The parts of a path that are compared. -/
def components (segments : List String) : List String :=
  segments.filter fun s => s ≠ "" ∧ s ≠ "."

variable {tree} {p q : Path} {s : String} {segments rest : List String}

theorem walk_dir (h : tree.walk p (s :: rest) = some q) : tree.isDir p = true := by
  rw [walk] at h
  split at h
  · assumption
  · cases h

/-- A path that leads somewhere leads to what its text means. -/
theorem resolve_of_walk (h : tree.walk p segments = some q) : resolve p segments = q := by
  induction segments generalizing p with
  | nil =>
      rw [walk] at h
      split at h
      · exact Option.some.inj h
      · cases h
  | cons s rest ih =>
      have hdir := walk_dir h
      rw [walk, if_pos hdir] at h
      rw [resolve]
      split at h
      next hskip =>
        rw [if_pos hskip]
        exact ih h
      next hskip =>
        rw [if_neg hskip]
        split at h
        next hup =>
          rw [if_pos hup]
          exact ih h
        next hup =>
          rw [if_neg hup]
          exact ih h

theorem walk_components (h : tree.walk p segments = some q) :
    tree.walk p (components segments) = some q := by
  induction segments generalizing p with
  | nil => exact h
  | cons s rest ih =>
      have hdir := walk_dir h
      rw [walk, if_pos hdir] at h
      split at h
      next hskip =>
        have hout : components (s :: rest) = components rest :=
          List.filter_cons_of_neg (by rcases hskip with rfl | rfl <;> decide)
        rw [hout]
        exact ih h
      next hskip =>
        have hin : components (s :: rest) = s :: components rest :=
          List.filter_cons_of_pos (decide_eq_true (not_or.mp hskip))
        rw [hin, walk, if_pos hdir, if_neg hskip]
        split at h
        next hup =>
          rw [if_pos hup]
          exact ih h
        next hup =>
          rw [if_neg hup]
          exact ih h

theorem mem_files_of_read {a : α} (h : tree.read p = some a) : (p, a) ∈ tree.files := by
  obtain ⟨before, behind, heq, -⟩ := List.lookup_eq_some_iff.mp h
  rw [heq]
  exact List.mem_append_right _ List.mem_cons_self

theorem mem_names_of_read (h : (tree.read p).isSome) : p ∈ tree.files.map Prod.fst := by
  obtain ⟨a, ha⟩ := Option.isSome_iff_exists.mp h
  exact List.mem_map.mpr ⟨_, mem_files_of_read ha, rfl⟩

/-- A file is no directory. -/
theorem not_isDir_of_read (h : (tree.read p).isSome) : tree.isDir p = false := by
  obtain ⟨a, ha⟩ := Option.isSome_iff_exists.mp h
  have hmem := mem_files_of_read ha
  refine decide_eq_false ?_
  rintro (rfl | ⟨e, he, hprefix, hne⟩)
  · exact (tree.names _ hmem).1 rfl
  · exact hne (tree.leaf _ hmem e he hprefix)

theorem isDir_dropLast (h : tree.isDir p = true) : tree.isDir p.dropLast = true := by
  refine decide_eq_true ?_
  rcases of_decide_eq_true h with rfl | ⟨e, he, hprefix, hne⟩
  · exact .inl rfl
  · refine .inr ⟨e, he, (List.dropLast_prefix p).trans hprefix, fun heq => hne ?_⟩
    exact hprefix.eq_of_length_le (heq ▸ (List.dropLast_prefix p).length_le)

theorem walk_nil_of_isDir (h : tree.isDir p = true) : tree.walk p [] = some p := if_pos (.inl h)

/-- A path to a file leads to its directory without its last part. -/
theorem walk_parent (h : tree.walk p (components segments) = some q) (hread : (tree.read q).isSome)
    (hdir : tree.isDir p = true) :
    tree.walk p (components segments).dropLast = some q.dropLast := by
  have hclean : ∀ s ∈ components segments, ¬ (s = "" ∨ s = ".") := fun s hs =>
    not_or.mpr (of_decide_eq_true (List.mem_filter.mp hs).2)
  have hfile := not_isDir_of_read hread
  generalize components segments = parts at h hclean
  induction parts generalizing p with
  | nil =>
      obtain rfl : p = q := resolve_of_walk h
      rw [hdir] at hfile
      cases hfile
  | cons s rest ih =>
      have hs := hclean s List.mem_cons_self
      have hrest : ∀ s ∈ rest, ¬ (s = "" ∨ s = ".") := fun s hs =>
        hclean s (List.mem_cons_of_mem _ hs)
      rw [walk, if_pos hdir, if_neg hs] at h
      cases rest with
      | nil =>
          split at h
          next hup =>
            obtain rfl : p.dropLast = q := resolve_of_walk h
            rw [isDir_dropLast hdir] at hfile
            cases hfile
          next hup =>
            obtain rfl : p ++ [s] = q := resolve_of_walk h
            rw [List.dropLast_concat]
            exact walk_nil_of_isDir hdir
      | cons t rest =>
          rw [List.dropLast_cons_cons, walk, if_pos hdir, if_neg hs]
          split at h
          next hup =>
            rw [if_pos hup]
            exact ih (walk_dir h) h hrest
          next hup =>
            rw [if_neg hup]
            exact ih (walk_dir h) h hrest

theorem resolve_names (h : ∀ s ∈ segments, IsName s) : resolve p segments = p ++ segments := by
  induction segments generalizing p with
  | nil => exact (List.append_nil p).symm
  | cons s rest ih =>
      obtain ⟨hne, hdot, hup⟩ := h s List.mem_cons_self
      rw [resolve, if_neg (not_or.mpr ⟨hne, hdot⟩), if_neg hup,
        ih fun t ht => h t (List.mem_cons_of_mem _ ht), List.append_assoc]
      rfl

theorem resolve_append (p : Path) (segments rest : List String) :
    resolve p (segments ++ rest) = resolve (resolve p segments) rest := by
  induction segments generalizing p with
  | nil => rfl
  | cons s segments ih =>
      rw [List.cons_append, resolve, resolve]
      split
      · exact ih p
      · split
        · exact ih _
        · exact ih _

theorem names_of_read (h : (tree.read p).isSome) : ∀ s ∈ p, IsName s := by
  obtain ⟨a, ha⟩ := Option.isSome_iff_exists.mp h
  exact (tree.names _ (mem_files_of_read ha)).2

theorem names_of_isDir (h : tree.isDir p = true) : ∀ s ∈ p, IsName s := by
  rcases of_decide_eq_true h with rfl | ⟨e, he, habove, -⟩
  · exact fun s hs => absurd hs List.not_mem_nil
  · exact fun s hs => (tree.names e he).2 s (habove.subset hs)

/-- A walk ends at a directory or a file. -/
theorem there_of_walk (h : tree.walk p segments = some q) :
    tree.isDir q = true ∨ (tree.read q).isSome := by
  induction segments generalizing p with
  | nil =>
      rw [walk] at h
      split at h
      next hthere =>
        cases h
        exact hthere
      next => cases h
  | cons s rest ih =>
      rw [walk, if_pos (walk_dir h)] at h
      split at h
      · exact ih h
      · split at h
        · exact ih h
        · exact ih h

/-- What stands above it is a directory. -/
theorem isDir_above
    (h : tree.isDir (p ++ s :: rest) = true ∨ (tree.read (p ++ s :: rest)).isSome) :
    tree.isDir p = true := by
  have habove : p <+: p ++ s :: rest := List.prefix_append _ _
  have hne : p ++ s :: rest ≠ p := by simp
  refine decide_eq_true (.inr ?_)
  rcases h with h | h
  · rcases of_decide_eq_true h with hnil | ⟨e, he, hprefix, -⟩
    · exact absurd hnil (by simp)
    · refine ⟨e, he, habove.trans hprefix, fun heq => hne ?_⟩
      exact hprefix.eq_of_length_le (heq ▸ habove.length_le) |>.trans heq.symm
  · obtain ⟨a, ha⟩ := Option.isSome_iff_exists.mp h
    exact ⟨_, mem_files_of_read ha, habove, hne.symm⟩

theorem walk_names (hnames : ∀ s ∈ segments, IsName s)
    (h : tree.isDir (p ++ segments) = true ∨ (tree.read (p ++ segments)).isSome) :
    tree.walk p segments = some (p ++ segments) := by
  induction segments generalizing p with
  | nil =>
      rw [List.append_nil] at h ⊢
      exact if_pos h
  | cons s rest ih =>
      obtain ⟨hne, hdot, hup⟩ := hnames s List.mem_cons_self
      have hstep : p ++ s :: rest = p ++ [s] ++ rest := List.append_cons p s rest
      rw [walk, if_pos (isDir_above h), if_neg (not_or.mpr ⟨hne, hdot⟩), if_neg hup, hstep]
      rw [hstep] at h
      exact ih (fun t ht => hnames t (List.mem_cons_of_mem _ ht)) h

/-- The place that a walk ends at is found under its own name. -/
theorem walk_self (h : tree.walk p segments = some q) : tree.walk [] q = some q := by
  have hthere := there_of_walk h
  exact walk_names (hthere.elim names_of_isDir names_of_read) hthere

end FileTree
end RetroCpu
