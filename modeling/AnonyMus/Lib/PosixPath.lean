import Mathlib.Data.List.Induction

/-!
# Paths

Absolute paths as lists of their components, as `pathlib` joins and resolves them on a POSIX
system without links, whose names differ when their case does.

* `components`, `join`, `resolve`, `name` — the operations;
* `Plain` — a name that is one component;
* `Plain.resolve_append`, `resolve_resolve` — a plain name stays below its directory.
-/

/-- The components of an absolute path, from the root. -/
abbrev PosixPath := List String

namespace PosixPath

/-- The components in a text; empty ones and `.` do not count. -/
def components (s : String) : List String :=
  ((s.toList.splitOn '/').map String.ofList).filter fun c => c ≠ "" ∧ c ≠ "."

/-- `base / s`: an absolute text replaces the base. -/
def join (base : PosixPath) (s : String) : PosixPath :=
  if s.toList.head? = some '/' then components s else base ++ components s

/-- `..` leaves a directory, and stays at the root. -/
def resolve (p : PosixPath) : PosixPath :=
  p.foldl (fun done c => if c = ".." then done.dropLast else done ++ [c]) []

/-- The last component of a text. -/
def name (s : String) : String := (components s).getLast?.getD ""

/-- A text that is one component, and goes down. -/
structure Plain (s : String) : Prop where
  slash   : '/' ∉ s.toList
  empty   : s ≠ ""
  here    : s ≠ "."
  above   : s ≠ ".."

variable {base p : PosixPath} {c s : String}

theorem resolve_concat :
    resolve (p ++ [c]) = if c = ".." then (resolve p).dropLast else resolve p ++ [c] := by
  unfold resolve
  rw [List.foldl_append, List.foldl_cons, List.foldl_nil]

namespace Plain

theorem components_eq (hs : Plain s) : components s = [s] := by
  unfold components
  rw [List.splitOn_eq_singleton hs.slash, List.map_cons, List.map_nil, String.ofList_toList,
    List.filter_cons_of_pos (by simpa using ⟨hs.empty, hs.here⟩), List.filter_nil]

theorem name_eq (hs : Plain s) : name s = s := by
  unfold name
  rw [hs.components_eq]
  rfl

theorem join_eq (hs : Plain s) : join base s = base ++ [s] := by
  have hrelative : s.toList.head? ≠ some '/' := fun h => hs.slash (List.mem_of_head? h)
  unfold join
  rw [if_neg hrelative, hs.components_eq]

theorem resolve_append (hs : Plain s) : resolve (p ++ [s]) = resolve p ++ [s] := by
  rw [resolve_concat, if_neg hs.above]

end Plain

/-- What is resolved goes down only. -/
theorem not_mem_resolve : ".." ∉ resolve p := by
  induction p using List.reverseRecOn with
  | nil => exact List.not_mem_nil
  | append_singleton p c ih =>
    rw [resolve_concat]
    split_ifs with hup
    · intro hmem
      exact ih (List.dropLast_subset _ hmem)
    · rw [List.mem_append, not_or, List.mem_singleton]
      exact ⟨ih, Ne.symm hup⟩

theorem resolve_eq_self (hdown : ".." ∉ p) : resolve p = p := by
  induction p using List.reverseRecOn with
  | nil => rfl
  | append_singleton p c ih =>
    rw [List.mem_append, not_or, List.mem_singleton] at hdown
    rw [resolve_concat, if_neg (Ne.symm hdown.2), ih hdown.1]

theorem resolve_resolve : resolve (resolve p) = resolve p := resolve_eq_self not_mem_resolve

end PosixPath
