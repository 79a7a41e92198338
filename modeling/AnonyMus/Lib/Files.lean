import AnonyMus.Lib.Dict
import AnonyMus.Lib.EState

/-!
# Files, and operations that fail

A file system is a dictionary from paths to contents. An operation is given how it ends: a write
that fails may have written a part.

* `write`, `copy`, `move`, `remove` — the operations;
* `keeps_write`, `keeps_copy` — other paths keep their content;
* `copy_eq`, `move_eq` — what becomes of a file that is there.
-/

namespace Files

open EStateM

/-- How a write ends. -/
inductive Ending
  | done
  /-- It raises before it has opened the file. -/
  | refused
  /-- It raises when that much is written. -/
  | cut (written : ℕ)
deriving DecidableEq

variable {β : Type}

/-- What an operation raises is not modelled. -/
abbrev Action (β α : Type) := EStateM Unit (Dict String (List β)) α

/-- A file is opened, which empties it, and written. -/
def write (path : String) (data : List β) : Ending → Action β Unit
  | .done => modify fun files => files.insert path data
  | .refused => throw ⟨⟩
  | .cut written => do
    modify fun files => files.insert path (data.take written)
    throw ⟨⟩

def copy (source target : String) (ending : Ending) : Action β Unit := do
  match (← get).get? source with
  | none => throw ⟨⟩
  | some data => write target data ending

/-- A rename happens as a whole or not at all. -/
def move (source target : String) (fails : Bool) : Action β Unit := do
  if fails then throw ⟨⟩
  match (← get).get? source with
  | none => throw ⟨⟩
  | some data => modify fun files => (files.erase source).insert target data

def remove (path : String) (fails : Bool) : Action β Unit := do
  if fails then throw ⟨⟩
  modify fun files => files.erase path

/-! ## Other paths -/

section

variable {path source target other : String} {data : List β}

theorem keeps_write (hother : other ≠ path) (ending : Ending) :
    Keeps (fun files => files.get? other) (write path data ending) := by
  intro files
  cases ending with
  | refused => rfl
  | done => exact (Dict.get?_insert _ _ _ _).trans (if_neg hother)
  | cut written => exact (Dict.get?_insert _ _ _ _).trans (if_neg hother)

theorem keeps_copy (hother : other ≠ target) (ending : Ending) :
    Keeps (fun files : Dict String (List β) => files.get? other) (copy source target ending) := by
  apply Keeps.get
  intro files
  cases files.get? source with
  | none => rfl
  | some data => exact keeps_write hother ending files

end

/-! ## Files that are there -/

section

variable {source target : String} {data : List β} {files : Dict String (List β)}

theorem copy_eq (hsource : files.get? source = some data) (ending : Ending) :
    copy source target ending files = write target data ending files := by
  unfold copy
  rw [apply_bind, apply_get]
  dsimp only
  rw [hsource]

/-- A move that fails has done nothing. -/
theorem move_eq (hsource : files.get? source = some data) (fails : Bool) :
    move source target fails files =
      if fails then .error ⟨⟩ files else .ok ⟨⟩ ((files.erase source).insert target data) := by
  cases fails with
  | true => rfl
  | false =>
    show (do
      match (← get).get? source with
      | none => throw ⟨⟩
      | some data => modify fun files => (files.erase source).insert target data : Action β Unit) files = _
    rw [apply_bind, apply_get]
    dsimp only
    rw [hsource]
    rfl

end

end Files
