import AnonyMus.Lib.PosixPath

/-!
# Open files and directories

An open file has a position, and what is written goes there unless the file was opened to append.
A directory is what it holds, in the order in which it is read; links are left out.

* `Descriptor.write_append` — a file opened to append keeps what it had, wherever one has sought;
* `Listing.files` — the regular files below a directory, with their paths;
* `forall_files_file`, `forall_files_dir` — a property of all of them, entry by entry.
-/

/-- A file that is open: its bytes, the position, and whether it was opened to append. -/
structure Descriptor where
  content  : List UInt8
  position : ℕ
  append   : Bool
deriving DecidableEq

namespace Descriptor

/-- Python's modes `a` and `a+`: the position is the end of the file. -/
def openAppend (content : List UInt8) : Descriptor := ⟨content, content.length, true⟩

def seek (f : Descriptor) (offset : ℕ) : Descriptor := { f with position := offset }

/-- Where the next write goes: with `O_APPEND` to the end of the file. -/
def offset (f : Descriptor) : ℕ := if f.append then f.content.length else f.position

/-- A write replaces what is there and makes the file longer where it has to; a gap is filled
with zeros. -/
def write (f : Descriptor) (data : List UInt8) : Descriptor where
  content  := f.content.take f.offset ++ List.replicate (f.offset - f.content.length) 0 ++ data ++
    f.content.drop (f.offset + data.length)
  position := f.offset + data.length
  append   := f.append

variable {f : Descriptor}

@[simp] theorem seek_content (offset : ℕ) : (f.seek offset).content = f.content := rfl

@[simp] theorem seek_append (offset : ℕ) : (f.seek offset).append = f.append := rfl

@[simp] theorem offset_append (happend : f.append = true) : f.offset = f.content.length :=
  if_pos happend

/-- Everything the file had is still there, at the same offsets. -/
theorem write_append (happend : f.append = true) (data : List UInt8) :
    (f.write data).content = f.content ++ data := by
  have hoffset := offset_append happend
  -- nothing is cut off before the offset, and nothing is left after what is written
  have hafter : f.content.drop (f.content.length + data.length) = [] :=
    List.drop_eq_nil_of_le (by omega)
  show f.content.take f.offset ++ List.replicate (f.offset - f.content.length) 0 ++ data ++
    f.content.drop (f.offset + data.length) = _
  rw [hoffset, hafter, List.take_length]
  simp

end Descriptor

/-- What a directory holds. -/
inductive Listing
  | nil
  | file (name : String) (content : List UInt8) (rest : Listing)
  | dir (name : String) (entries rest : Listing)
deriving DecidableEq

namespace Listing

def isEmpty : Listing → Bool
  | nil => true
  | _ => false

/-- The regular files below a directory at `root`. -/
def files (root : PosixPath) : Listing → List (PosixPath × List UInt8)
  | nil => []
  | file name content rest => (root ++ [name], content) :: rest.files root
  | dir name entries rest => entries.files (root ++ [name]) ++ rest.files root

variable {root : PosixPath} {name : String} {content : List UInt8} {entries rest : Listing}
  {p : PosixPath × List UInt8 → Prop}

@[simp] theorem forall_files_nil : (∀ f ∈ nil.files root, p f) ↔ True := by
  simp [files]

@[simp] theorem forall_files_file :
    (∀ f ∈ (file name content rest).files root, p f) ↔
      p (root ++ [name], content) ∧ ∀ f ∈ rest.files root, p f := by
  simp [files]

@[simp] theorem forall_files_dir :
    (∀ f ∈ (dir name entries rest).files root, p f) ↔
      (∀ f ∈ entries.files (root ++ [name]), p f) ∧ ∀ f ∈ rest.files root, p f := by
  simp only [files, List.mem_append, or_imp, forall_and]

end Listing
