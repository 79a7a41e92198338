import AnonyMus.Lib.Bytes
import AnonyMus.Lib.Directory

/-!
# P2P node — the panic wipe of files

`secure_wipe_file` and `secure_wipe_dir` of `transports/p2p/routers/node.py`. A
file is opened with the mode `ba+`, so that the random bytes go to the end of the
file: `seek(0)` does not move where they are written. Any call may raise, a raw
write may take a part of the data, and what is done to the disk is logged.

* `secureWipeFile`, `secureWipeDir` — the two functions;
* `Overwritten` — each byte of a file is written over before the file goes;
* `starts_with_original`, `dir_starts_with_original` — nothing is written over a
  first byte, and what goes begins with what the file held;
* `overwritten_iff` — what is overwritten is exactly the empty files;
* `removed_of_calm` — where nothing raises, the walk reaches each file.
-/

namespace AnonyMus.P2p.PanicWipe

open Descriptor Listing

/-- The calls that may raise. -/
inductive Call
  | getsize | open | seek | urandom | write | flush | remove | scandir | unlink | rmdir
deriving DecidableEq

/-- What the functions do not decide: the calls that raise, the random bytes and
how many of them a raw write takes. -/
structure Machine where
  raises  : Call → PosixPath → Bool
  urandom : PosixPath → (n : ℕ) → Bytes n
  taken   : PosixPath → ℕ → ℕ

/-- What is done to the disk. A file that goes has a content at that moment. -/
inductive Event
  | wrote (path : PosixPath) (offset : ℕ) (data : List UInt8)
  | removed (path : PosixPath) (content : List UInt8)
  | removedDir (path : PosixPath)
deriving DecidableEq

/-- What is left, and what was done. -/
abbrev Outcome (α : Type) := α × List Event

variable (m : Machine)

/-! ## The functions -/

/-- `os.remove`. -/
def removeFile (path : PosixPath) (content : List UInt8) : Outcome (Option (List UInt8)) :=
  if m.raises .remove path then (some content, []) else (none, [.removed path content])

/-- The `with` block: whether it ends without an exception, what the file then
holds and what was written. -/
def overwrite (path : PosixPath) (content : List UInt8) : Bool × Outcome (List UInt8) :=
  if m.raises .open path then (false, content, []) else
  let f := openAppend content
  if m.raises .seek path then (false, content, []) else
  let f := f.seek 0
  if m.raises .urandom path then (false, content, []) else
  let data := (m.urandom path content.length).1
  if m.raises .write path then (false, content, []) else
  let data := data.take (m.taken path content.length)
  (!m.raises .flush path, (f.write data).content, [.wrote path f.offset data])

/-- `none` is a path with no file. The exception of any call is logged, and the
file stays. -/
def secureWipeFile (path : PosixPath) :
    Option (List UInt8) → Outcome (Option (List UInt8))
  | none => (none, [])
  | some content =>
    if m.raises .getsize path then (some content, []) else
    let size := content.length
    if size > 0 then
      match overwrite m path content with
      | (true, content, written) =>
        let left := removeFile m path content
        (left.1, written ++ left.2)
      | (false, content, written) => (some content, written)
    else
      removeFile m path content

/-- The entry of a file, or none if it is gone. -/
def fileEntry (name : String) : Option (List UInt8) → Listing → Listing
  | some content, rest => .file name content rest
  | none, rest => rest

def dirEntry (name : String) : Option Listing → Listing → Listing
  | some entries, rest => .dir name entries rest
  | none, rest => rest

/-- `for file in files`. -/
def wipeFiles (root : PosixPath) : Listing → Outcome Listing
  | .nil => (.nil, [])
  | .file name content rest =>
    let wiped := secureWipeFile m (root ++ [name]) (some content)
    let others := wipeFiles root rest
    (fileEntry name wiped.1 others.1, wiped.2 ++ others.2)
  | .dir name entries rest =>
    let others := wipeFiles root rest
    (.dir name entries others.1, others.2)

/-- `os.rmdir`, which refuses a directory that holds something. -/
def rmdir (path : PosixPath) (below : Outcome Listing) : Outcome (Option Listing) :=
  if m.raises .rmdir path || !below.1.isEmpty then (some below.1, below.2)
  else (none, below.2 ++ [.removedDir path])

/-- What `shutil.rmtree(..., ignore_errors=True)` does below a directory: a file is
unlinked as it is, and what cannot be removed stays. -/
def rmtreeBelow (root : PosixPath) : Listing → Outcome Listing
  | .nil => (.nil, [])
  | .file name content rest =>
    let path := root ++ [name]
    let others := rmtreeBelow root rest
    if m.raises .unlink path then (.file name content others.1, others.2)
    else (others.1, .removed path content :: others.2)
  | .dir name entries rest =>
    let path := root ++ [name]
    let removed := rmdir m path <|
      if m.raises .scandir path then (entries, []) else rmtreeBelow path entries
    let others := rmtreeBelow root rest
    (dirEntry name removed.1 others.1, removed.2 ++ others.2)

def rmtree (path : PosixPath) (entries : Listing) : Outcome (Option Listing) :=
  rmdir m path <| if m.raises .scandir path then (entries, []) else rmtreeBelow m path entries

/-- `for d in dirs`. -/
def rmtreeDirs (root : PosixPath) : Listing → Outcome Listing
  | .nil => (.nil, [])
  | .file name content rest =>
    let others := rmtreeDirs root rest
    (.file name content others.1, others.2)
  | .dir name entries rest =>
    let removed := rmtree m (root ++ [name]) entries
    let others := rmtreeDirs root rest
    (dirEntry name removed.1 others.1, removed.2 ++ others.2)

/-- The body of the loop, for one directory of the walk. -/
def visit (root : PosixPath) (walked : Outcome Listing) : Outcome Listing :=
  let wiped := wipeFiles m root walked.1
  let removed := rmtreeDirs m root wiped.1
  (removed.1, walked.2 ++ wiped.2 ++ removed.2)

/-- `os.walk(..., topdown=False)` below a directory that has been read: each
directory in it comes after all that is below it. One that cannot be read is passed
over. -/
def walkBelow (root : PosixPath) : Listing → Outcome Listing
  | .nil => (.nil, [])
  | .file name content rest =>
    let others := walkBelow root rest
    (.file name content others.1, others.2)
  | .dir name entries rest =>
    let path := root ++ [name]
    let below :=
      if m.raises .scandir path then (entries, []) else visit m path (walkBelow path entries)
    let others := walkBelow root rest
    (.dir name below.1 others.1, below.2 ++ others.2)

def walk (path : PosixPath) (entries : Listing) : Outcome Listing :=
  if m.raises .scandir path then (entries, []) else visit m path (walkBelow m path entries)

/-- `none` is a path with no directory. -/
def secureWipeDir (dirpath : PosixPath) : Option Listing → Outcome (Option Listing)
  | none => (none, [])
  | some entries =>
    let walked := walk m dirpath entries
    let removed := rmtree m dirpath walked.1
    (removed.1, walked.2 ++ removed.2)

/-! ## Bytes that are written over -/

/-- The event writes over the byte at an offset of a file. -/
def Event.covers (path : PosixPath) (i : ℕ) : Event → Bool
  | .wrote p offset data => p = path ∧ offset ≤ i ∧ i < offset + data.length
  | _ => false

def Event.removes (path : PosixPath) : Event → Bool
  | .removed p _ => p = path
  | _ => false

/-- Each byte of the original content is written over in place, before the file is
removed. -/
def Overwritten (path : PosixPath) (content : List UInt8) (events : List Event) : Prop :=
  ∀ i < content.length,
    ∃ e ∈ events.takeWhile (fun e => !e.removes path), e.covers path i = true

instance (path : PosixPath) (content : List UInt8) (events : List Event) :
    Decidable (Overwritten path content events) :=
  inferInstanceAs (Decidable (∀ i < content.length, ∃ e ∈ _, _))

/-! ## What a step may do -/

/-- An event that leaves the first byte of every file alone, and removes only files
with a property. -/
def Event.Spares (p : PosixPath × List UInt8 → Prop) : Event → Prop
  | .wrote _ offset _ => 0 < offset
  | .removed path content => p (path, content)
  | .removedDir _ => True

/-- All files that are left have the property, and all events spare it. -/
structure Spared (p : PosixPath × List UInt8 → Prop) (root : PosixPath) (o : Outcome Listing) :
    Prop where
  files  : ∀ f ∈ o.1.files root, p f
  events : ∀ e ∈ o.2, e.Spares p

section

variable {m} {p : PosixPath × List UInt8 → Prop} {path root : PosixPath} {content : List UInt8}
  {entries : Listing} {name : String}

/-! ## Directories that are removed -/

theorem Spared.unread (hentries : ∀ f ∈ entries.files root, p f) :
    Spared p root (entries, []) :=
  ⟨hentries, fun _ he => absurd he List.not_mem_nil⟩

/-- A directory's entry and the entries after it. -/
theorem Spared.dir {removed : Outcome (Option Listing)} {others : Outcome Listing}
    (hremoved : (∀ left, removed.1 = some left → ∀ f ∈ left.files (root ++ [name]), p f) ∧
      ∀ e ∈ removed.2, e.Spares p) (hothers : Spared p root others) :
    Spared p root (dirEntry name removed.1 others.1, removed.2 ++ others.2) where
  files := by
    rcases removed with ⟨left, events⟩
    cases left with
    | none => exact hothers.files
    | some left => exact forall_files_dir.mpr ⟨hremoved.1 left rfl, hothers.files⟩
  events := fun e he => (List.mem_append.mp he).elim (hremoved.2 e) (hothers.events e)

theorem rmdir_spared {below : Outcome Listing} (hbelow : Spared p path below) :
    (∀ left, (rmdir m path below).1 = some left → ∀ f ∈ left.files path, p f) ∧
      ∀ e ∈ (rmdir m path below).2, e.Spares p := by
  unfold rmdir
  split_ifs with hstays
  · exact ⟨fun left hleft => Option.some.inj hleft ▸ hbelow.files, hbelow.events⟩
  · refine ⟨fun left hleft => (nomatch hleft), fun e he => ?_⟩
    rcases List.mem_append.mp he with he | he
    · exact hbelow.events e he
    · rw [List.mem_singleton.mp he]
      trivial

theorem rmtreeBelow_spared (hentries : ∀ f ∈ entries.files root, p f) :
    Spared p root (rmtreeBelow m root entries) := by
  induction entries generalizing root with
  | nil => exact .unread hentries
  | file name content rest ih =>
    rw [forall_files_file] at hentries
    have hothers := ih hentries.2
    unfold rmtreeBelow
    dsimp only
    split_ifs with hunlink
    · exact ⟨forall_files_file.mpr ⟨hentries.1, hothers.files⟩, hothers.events⟩
    · exact ⟨hothers.files, List.forall_mem_cons.mpr ⟨hentries.1, hothers.events⟩⟩
  | dir name entries rest ihbelow ih =>
    rw [forall_files_dir] at hentries
    refine .dir (rmdir_spared ?_) (ih hentries.2)
    split_ifs with hscandir
    · exact .unread hentries.1
    · exact ihbelow hentries.1

theorem rmtree_spared (hentries : ∀ f ∈ entries.files path, p f) :
    (∀ left, (rmtree m path entries).1 = some left → ∀ f ∈ left.files path, p f) ∧
      ∀ e ∈ (rmtree m path entries).2, e.Spares p := by
  apply rmdir_spared
  split_ifs with hscandir
  · exact .unread hentries
  · exact rmtreeBelow_spared hentries

theorem rmtreeDirs_spared (hentries : ∀ f ∈ entries.files root, p f) :
    Spared p root (rmtreeDirs m root entries) := by
  induction entries with
  | nil => exact .unread hentries
  | file name content rest ih =>
    rw [forall_files_file] at hentries
    have hothers := ih hentries.2
    exact ⟨forall_files_file.mpr ⟨hentries.1, hothers.files⟩, hothers.events⟩
  | dir name entries rest _ ih =>
    rw [forall_files_dir] at hentries
    exact .dir (rmtree_spared hentries.1) (ih hentries.2)

/-! ## Files that are wiped -/

theorem removeFile_spared (hcontent : p (path, content)) :
    (∀ left, (removeFile m path content).1 = some left → p (path, left)) ∧
      ∀ e ∈ (removeFile m path content).2, e.Spares p := by
  unfold removeFile
  cases m.raises .remove path with
  | true => simp [hcontent]
  | false => simp [Event.Spares, hcontent]

variable (hp : ∀ path content data, p (path, content) → p (path, content ++ data))

include hp

/-- Only bytes after the end are written, and only into a file that has some. -/
theorem overwrite_spared (hsize : 0 < content.length) (hcontent : p (path, content)) :
    p (path, (overwrite m path content).2.1) ∧
      ∀ e ∈ (overwrite m path content).2.2, e.Spares p := by
  have happend : ((openAppend content).seek 0).append = true := rfl
  have hnothing : p (path, content) ∧ ∀ e ∈ ([] : List Event), e.Spares p :=
    ⟨hcontent, fun e he => absurd he List.not_mem_nil⟩
  unfold overwrite
  split_ifs with hopen hseek hurandom hwrite
  · exact hnothing
  · exact hnothing
  · exact hnothing
  · exact hnothing
  constructor
  · -- the content is kept, and something is put after it
    dsimp only
    rw [write_append happend]
    exact hp path content _ hcontent
  · intro e he
    rw [List.mem_singleton.mp he]
    -- the file is open to append: the offset is its length
    show 0 < ((openAppend content).seek 0).offset
    rw [offset_append happend]
    exact hsize

theorem secureWipeFile_spared (hcontent : p (path, content)) :
    (∀ left, (secureWipeFile m path (some content)).1 = some left → p (path, left)) ∧
      ∀ e ∈ (secureWipeFile m path (some content)).2, e.Spares p := by
  unfold secureWipeFile
  dsimp only
  by_cases hgetsize : m.raises .getsize path = true
  · rw [if_pos hgetsize]
    simp [hcontent]
  rw [if_neg hgetsize]
  by_cases hsize : content.length > 0
  · rw [if_pos hsize]
    have hwritten := overwrite_spared (m := m) hp hsize hcontent
    rcases hover : overwrite m path content with ⟨ended, content', written⟩
    rw [hover] at hwritten
    obtain ⟨hcontent', hevents⟩ := hwritten
    cases ended with
    | false => exact ⟨fun left hleft => Option.some.inj hleft ▸ hcontent', hevents⟩
    | true =>
      have hremoved := removeFile_spared (m := m) hcontent'
      exact ⟨hremoved.1, fun e he =>
        (List.mem_append.mp he).elim (hevents e) (hremoved.2 e)⟩
  · rw [if_neg hsize]
    exact removeFile_spared hcontent

theorem wipeFiles_spared (hentries : ∀ f ∈ entries.files root, p f) :
    Spared p root (wipeFiles m root entries) := by
  induction entries with
  | nil => exact .unread hentries
  | file name content rest ih =>
    rw [forall_files_file] at hentries
    have hothers := ih hentries.2
    have hwiped := secureWipeFile_spared (m := m) hp hentries.1
    constructor
    · show ∀ f ∈ (fileEntry name (secureWipeFile m _ _).1 _).files root, p f
      cases hleft : (secureWipeFile m (root ++ [name]) (some content)).1 with
      | none => exact hothers.files
      | some left => exact forall_files_file.mpr ⟨hwiped.1 left hleft, hothers.files⟩
    · exact fun e he => (List.mem_append.mp he).elim (hwiped.2 e) (hothers.events e)
  | dir name below rest _ ih =>
    rw [forall_files_dir] at hentries
    have hothers := ih hentries.2
    exact ⟨forall_files_dir.mpr ⟨hentries.1, hothers.files⟩, hothers.events⟩

theorem visit_spared {walked : Outcome Listing} (hwalked : Spared p root walked) :
    Spared p root (visit m root walked) := by
  have hwiped := wipeFiles_spared (m := m) hp hwalked.files
  have hremoved := rmtreeDirs_spared (m := m) hwiped.files
  refine ⟨hremoved.files, fun e he => ?_⟩
  rcases List.mem_append.mp he with he | he
  · exact (List.mem_append.mp he).elim (hwalked.events e) (hwiped.events e)
  · exact hremoved.events e he

theorem walkBelow_spared (hentries : ∀ f ∈ entries.files root, p f) :
    Spared p root (walkBelow m root entries) := by
  induction entries generalizing root with
  | nil => exact .unread hentries
  | file name content rest ih =>
    rw [forall_files_file] at hentries
    have hothers := ih hentries.2
    exact ⟨forall_files_file.mpr ⟨hentries.1, hothers.files⟩, hothers.events⟩
  | dir name entries rest ihbelow ih =>
    rw [forall_files_dir] at hentries
    have hothers := ih hentries.2
    have hbelow : Spared p (root ++ [name]) (if m.raises .scandir (root ++ [name]) then
        (entries, []) else visit m (root ++ [name]) (walkBelow m (root ++ [name]) entries)) := by
      split_ifs with hscandir
      · exact .unread hentries.1
      · exact visit_spared hp (ihbelow hentries.1)
    exact ⟨forall_files_dir.mpr ⟨hbelow.files, hothers.files⟩, fun e he =>
      (List.mem_append.mp he).elim (hbelow.events e) (hothers.events e)⟩

theorem walk_spared (hentries : ∀ f ∈ entries.files path, p f) :
    Spared p path (walk m path entries) := by
  unfold walk
  split_ifs with hscandir
  · exact .unread hentries
  · exact visit_spared hp (walkBelow_spared hp hentries)

theorem secureWipeDir_spared (hentries : ∀ f ∈ entries.files path, p f) :
    ∀ e ∈ (secureWipeDir m path (some entries)).2, e.Spares p := by
  have hwalked := walk_spared (m := m) hp hentries
  have hremoved := rmtree_spared (m := m) hwalked.files
  intro e he
  exact (List.mem_append.mp he).elim (hwalked.events e) (hremoved.2 e)

end

/-! ## What is overwritten -/

section

variable {m} {path : PosixPath} {content : List UInt8} {entries : Listing} {events : List Event}

/-- No event writes over a first byte: only a file with no byte is overwritten. -/
theorem overwritten_iff_of_spared {p : PosixPath × List UInt8 → Prop}
    (hevents : ∀ e ∈ events, e.Spares p) : Overwritten path content events ↔ content = [] := by
  constructor
  · intro hover
    by_contra hne
    obtain ⟨e, he, hcovers⟩ := hover 0 (List.length_pos_of_ne_nil hne)
    have hspares := hevents e (List.takeWhile_subset _ he)
    cases e with
    | wrote q offset data =>
      -- it would have to begin at offset 0
      have hstart : offset ≤ 0 := (of_decide_eq_true hcovers).2.1
      have hlate : 0 < offset := hspares
      omega
    | removed q c => exact Bool.noConfusion hcovers
    | removedDir q => exact Bool.noConfusion hcovers
  · intro hnil i hi
    rw [hnil] at hi
    exact absurd hi (Nat.not_lt_zero i)

/-- Nothing is written over the first byte of the file, and what it holds when it
goes begins with what it held. -/
theorem starts_with_original :
    ∀ e ∈ (secureWipeFile m path (some content)).2,
      e.Spares fun f => f.1 = path ∧ content <+: f.2 := by
  refine (secureWipeFile_spared ?_ ⟨rfl, List.prefix_rfl⟩).2
  rintro _ c data ⟨hpath, hprefix⟩
  exact ⟨hpath, hprefix.trans (List.prefix_append c data)⟩

/-- So with each file below a directory. -/
theorem dir_starts_with_original :
    ∀ e ∈ (secureWipeDir m path (some entries)).2,
      e.Spares fun f => ∃ c, (f.1, c) ∈ entries.files path ∧ c <+: f.2 := by
  refine secureWipeDir_spared ?_ fun f hf => ⟨f.2, hf, List.prefix_rfl⟩
  rintro _ c data ⟨original, hfile, hprefix⟩
  exact ⟨original, hfile, hprefix.trans (List.prefix_append c data)⟩

end

/-- Whatever raises, the files that are written over before they go are those that
hold nothing. -/
theorem overwritten_iff (path : PosixPath) :
    (∀ content, Overwritten path content (secureWipeFile m path (some content)).2 ↔
      content = []) ∧
    ∀ entries,
      (∀ f ∈ entries.files path, Overwritten f.1 f.2 (secureWipeDir m path (some entries)).2) ↔
        ∀ f ∈ entries.files path, f.2 = [] := by
  constructor
  · intro content
    exact overwritten_iff_of_spared starts_with_original
  · intro entries
    have hevents := @dir_starts_with_original m path entries
    exact forall₂_congr fun f _ => overwritten_iff_of_spared hevents

/-- A machine on which all goes well; its random bytes are zeros. -/
def calm : Machine where
  raises _ _ := false
  urandom _ n := Bytes.replicate n 0
  taken _ n := n

/-- A file of three bytes: they are all there when it is removed. -/
theorem original_survives :
    ¬ Overwritten ["messages.db"] [75, 69, 89]
      (secureWipeFile calm ["messages.db"] (some [75, 69, 89])).2 := by
  decide

/-! ## Where all goes well -/

/-- No call raises, and a raw write takes all it is given. -/
structure Calm : Prop where
  raises : ∀ call path, m.raises call path = false
  taken  : ∀ path n, n ≤ m.taken path n

/-- The removal of a file that was wiped. -/
def wiped (f : PosixPath × List UInt8) : Event :=
  .removed f.1 (f.2 ++ (m.urandom f.1 f.2.length).1)

/-- The regular files in a directory itself. -/
def top (root : PosixPath) : Listing → List (PosixPath × List UInt8)
  | .nil => []
  | .file name content rest => (root ++ [name], content) :: top root rest
  | .dir _ _ rest => top root rest

section

variable {m} {path root : PosixPath} {content : List UInt8} {entries : Listing}
  {f : PosixPath × List UInt8}

theorem overwrite_of_calm (h : Calm m) :
    overwrite m path content = (true, content ++ (m.urandom path content.length).1,
      [.wrote path content.length (m.urandom path content.length).1]) := by
  have happend : ((openAppend content).seek 0).append = true := rfl
  have htaken : (m.urandom path content.length).1.take (m.taken path content.length) =
      (m.urandom path content.length).1 := by
    apply List.take_of_length_le
    rw [(m.urandom path content.length).2]
    exact h.taken path content.length
  unfold overwrite
  simp only [h.raises, Bool.false_eq_true, if_false, Bool.not_false, htaken,
    write_append happend, offset_append happend, seek_content]
  rfl

theorem wiped_mem_secureWipeFile (h : Calm m) :
    wiped m (path, content) ∈ (secureWipeFile m path (some content)).2 := by
  unfold secureWipeFile
  simp only [h.raises, Bool.false_eq_true, if_false]
  by_cases hsize : content.length > 0
  · rw [if_pos hsize, overwrite_of_calm h]
    simp [removeFile, h.raises, wiped]
  · -- an empty file is removed as it is, and no byte is put after it
    have hnil : content = [] := List.eq_nil_of_length_eq_zero (by omega)
    have hrandom : (m.urandom path 0).1 = [] :=
      List.eq_nil_of_length_eq_zero (m.urandom path 0).2
    rw [if_neg hsize, hnil]
    simp [removeFile, h.raises, wiped, hrandom]

theorem wiped_mem_wipeFiles (h : Calm m) (hf : f ∈ top root entries) :
    wiped m f ∈ (wipeFiles m root entries).2 := by
  induction entries with
  | nil => exact absurd hf List.not_mem_nil
  | file name content rest ih =>
    rcases List.mem_cons.mp hf with rfl | hf
    · exact List.mem_append_left _ (wiped_mem_secureWipeFile h)
    · exact List.mem_append_right _ (ih hf)
  | dir name entries rest _ ih => exact ih hf

theorem wiped_mem_visit (h : Calm m) {walked : Outcome Listing}
    (hf : wiped m f ∈ walked.2 ∨ f ∈ top root walked.1) :
    wiped m f ∈ (visit m root walked).2 := by
  apply List.mem_append_left
  rcases hf with hbefore | htop
  · exact List.mem_append_left _ hbefore
  · exact List.mem_append_right _ (wiped_mem_wipeFiles h htop)

/-- The walk wipes all files that are deeper down, and keeps those of the directory
for its own turn. -/
theorem wiped_mem_walkBelow (h : Calm m) (hf : f ∈ entries.files root) :
    wiped m f ∈ (walkBelow m root entries).2 ∨ f ∈ top root (walkBelow m root entries).1 := by
  induction entries generalizing root with
  | nil => exact absurd hf List.not_mem_nil
  | file name content rest ih =>
    rcases List.mem_cons.mp hf with rfl | hf
    · exact .inr List.mem_cons_self
    · exact (ih hf).imp_right (List.mem_cons_of_mem _)
  | dir name entries rest ihbelow ih =>
    unfold walkBelow
    simp only [h.raises, Bool.false_eq_true, if_false]
    rcases List.mem_append.mp hf with hf | hf
    · exact .inl (List.mem_append_left _ (wiped_mem_visit h (ihbelow hf)))
    · exact (ih hf).imp_left (List.mem_append_right _)

theorem rmdir_of_calm (h : Calm m) {below : Outcome Listing} (hbelow : below.1 = .nil) :
    (rmdir m path below).1 = none := by
  simp [rmdir, h.raises, hbelow, isEmpty]

theorem rmtreeBelow_of_calm (h : Calm m) : (rmtreeBelow m root entries).1 = .nil := by
  induction entries generalizing root with
  | nil => rfl
  | file name content rest ih => simp [rmtreeBelow, h.raises, ih]
  | dir name entries rest ihbelow ih =>
    have hbelow : (rmtreeBelow m (root ++ [name]) entries).1 = .nil := ihbelow
    have hremoved := @rmdir_of_calm m (root ++ [name]) h _ hbelow
    simp [rmtreeBelow, h.raises, hremoved, dirEntry, ih]

/-- Where all goes well, each regular file below the directory is wiped — random
bytes are put after its own — and the directory goes. -/
theorem removed_of_calm (h : Calm m) :
    (secureWipeDir m path (some entries)).1 = none ∧
      ∀ f ∈ entries.files path, wiped m f ∈ (secureWipeDir m path (some entries)).2 := by
  constructor
  · show (rmtree m path (walk m path entries).1).1 = none
    unfold rmtree
    simp only [h.raises, Bool.false_eq_true, if_false]
    exact rmdir_of_calm h (rmtreeBelow_of_calm h)
  · intro f hf
    apply List.mem_append_left
    unfold walk
    simp only [h.raises, Bool.false_eq_true, if_false]
    exact wiped_mem_visit h (wiped_mem_walkBelow h hf)

end

theorem removed_of_calm_nested :
    wiped calm (["tor", "keys", "k"], [2]) ∈ (secureWipeDir calm ["tor"]
      (some (.file "hostname" [1] (.dir "keys" (.file "k" [2] .nil) .nil)))).2 :=
  (removed_of_calm ⟨fun _ _ => rfl, fun _ _ => Nat.le_refl _⟩).2 _ (by decide)

/-- A directory with a file and one below it. -/
example :
    (secureWipeDir calm ["tor"] (some (.file "hostname" [1] (.dir "keys" (.file "k" [2] .nil)
      .nil)))).2 =
      [.wrote ["tor", "keys", "k"] 1 [0], .removed ["tor", "keys", "k"] [2, 0],
        .wrote ["tor", "hostname"] 1 [0], .removed ["tor", "hostname"] [1, 0],
        .removedDir ["tor", "keys"], .removedDir ["tor"]] := by
  decide

end AnonyMus.P2p.PanicWipe
