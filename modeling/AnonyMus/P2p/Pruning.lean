import Mathlib.Algebra.BigOperators.Ring.Finset
import Mathlib.Algebra.Order.Field.Rat
import Mathlib.Tactic.Ring
import AnonyMus.Lib.Dict
import AnonyMus.Lib.Eviction
import AnonyMus.Lib.PosixPath

/-!
# Pruning the chunks of files

`_prune_expired_chunks` of `transports/p2p/routers/files.py`: what is older than 15 minutes goes, and
then the oldest goes until the rest fits. A file may refuse to go; the code passes over it.

* `expire`, `enforceQuota`, `pruneExpiredChunks` — the code;
* `Pruned` — what it is to leave behind;
* `pruneExpiredChunks_eq` — what it removes: the expired files, or else a beginning of all;
* `pruned_iff` — when that is what it is to remove.
-/

namespace AnonyMus.P2p.Chunks

open Eviction

/-! ## The code -/

/-- What `Path.stat` tells of a file. -/
structure FileStat where
  size  : ℕ
  mtime : ℚ
deriving DecidableEq

def chunkTtlSeconds : ℚ := 900

def maxTotalStorageBytes : ℕ := 500 * 1024 * 1024

/-- The chunk files, in the order in which the globs list them, and what has been unlinked of them. -/
structure Directory (α : Type) where
  files    : Dict PosixPath α
  unlinked : List PosixPath

section

variable {α : Type} (stat : α → FileStat) (deletable : PosixPath → Bool) (now : ℚ)

def expired (file : α) : Bool := chunkTtlSeconds < now - (stat file).mtime

/-- `f.unlink(missing_ok=True)`; none if it raises. -/
def unlink (f : PosixPath) (d : Directory α) : Option (Directory α) :=
  if deletable f then some ⟨d.files.erase f, d.unlinked ++ [f]⟩ else none

/-- The first loop, which returns `total_bytes`. -/
def expire : List PosixPath → Directory α → ℤ → Directory α × ℤ
  | [], d, totalBytes => (d, totalBytes)
  | f :: files, d, totalBytes =>
    match d.files.get? f with
    | none => expire files d totalBytes
    | some file =>
      if expired stat now file then expire files ((unlink deletable f d).getD d) totalBytes
      else expire files d (totalBytes + (stat file).size)

/-- `f.stat().st_mtime` of a file that is there. -/
def mtimeOf (d : Directory α) (f : PosixPath) : ℚ :=
  (d.files.get? f).elim 0 fun file => (stat file).mtime

/-- `sorted(files, key=lambda p: p.stat().st_mtime)` raises if one of them is gone. -/
def sortedByMtime (files : List PosixPath) (d : Directory α) : Option (List PosixPath) :=
  if files.all fun f => (d.files.get? f).isSome then
    some (files.mergeSort fun f g => mtimeOf stat d f ≤ mtimeOf stat d g)
  else none

/-- The second loop. -/
def enforceQuota : List PosixPath → Directory α → ℤ → Directory α
  | [], d, _ => d
  | f :: files, d, totalBytes =>
    if totalBytes ≤ maxTotalStorageBytes then d
    else
      match d.files.get? f with
      | none => enforceQuota files d totalBytes
      | some file =>
        match unlink deletable f d with
        | some d' => enforceQuota files d' (totalBytes - (stat file).size)
        | none => enforceQuota files d totalBytes

/-- `_prune_expired_chunks`. What the sorting raises is logged. -/
def pruneExpiredChunks (store : Dict PosixPath α) : Directory α :=
  let files := store.keys
  let (d, totalBytes) := expire stat deletable now files ⟨store, []⟩ 0
  if maxTotalStorageBytes < totalBytes then
    match sortedByMtime stat files d with
    | none => d
    | some activeFiles => enforceQuota stat deletable activeFiles d totalBytes
  else d

/-! ## What pruning is for -/

/-- The bytes in the files of a kind. -/
def bytes (kind : PosixPath → α → Bool) (store : Dict PosixPath α) : ℕ :=
  store.weigh fun f file => if kind f file then (stat file).size else 0

/-- No expired file is left that can be deleted; the files that can be deleted fit into the quota;
and a file that is not expired is removed only while the others do not fit, after all that are older
and not expired. -/
structure Pruned (store : Dict PosixPath α) : Prop where
  ttl    : ∀ f file, store.get? f = some file → expired stat now file = true →
    deletable f = true → (pruneExpiredChunks stat deletable now store).files.get? f = none
  quota  : bytes stat (fun f _ => deletable f) (pruneExpiredChunks stat deletable now store).files ≤
    maxTotalStorageBytes
  oldest : ∀ f file, store.get? f = some file → expired stat now file = false →
    (pruneExpiredChunks stat deletable now store).files.get? f = none →
      ∃ before after,
        (pruneExpiredChunks stat deletable now store).unlinked = before ++ f :: after ∧
        maxTotalStorageBytes <
          bytes stat (fun g other => !expired stat now other && decide (g ∉ before)) store ∧
        ∀ g other, store.get? g = some other → expired stat now other = false →
          (stat other).mtime < (stat file).mtime → g ∈ before

/-- An expired file can be deleted. -/
def Expires (store : Dict PosixPath α) : Prop :=
  ∃ f file, store.get? f = some file ∧ expired stat now file = true ∧ deletable f = true

/-- If an expired file can be deleted, then the others that can be deleted fit as they are. If none
can, no file that cannot be deleted stands, among those that are not expired, before one that has to
be. -/
structure Unhindered (store : Dict PosixPath α) : Prop where
  fits : Expires stat deletable now store →
    bytes stat (fun f file => !expired stat now file && deletable f) store ≤ maxTotalStorageBytes
  free : ¬ Expires stat deletable now store →
    ∀ g other, store.get? g = some other → expired stat now other = false → deletable g = false →
      (∃ f file, store.get? f = some file ∧ expired stat now file = false ∧ deletable f = true ∧
        (stat other).mtime < (stat file).mtime) →
      bytes stat (fun f file => !expired stat now file &&
        (!deletable f || decide ((stat other).mtime < (stat file).mtime))) store ≤
          maxTotalStorageBytes

end

/-! ## What the loops remove -/

section

variable {α : Type} {stat : α → FileStat} {deletable : PosixPath → Bool} {now : ℚ}
  {store : Dict PosixPath α} {gone files : List PosixPath} {f : PosixPath} {total : ℤ}

/-- The directory without some of its files. -/
def without (store : Dict PosixPath α) (gone : List PosixPath) : Directory α where
  files    := store.filter fun e => e.1 ∉ gone
  unlinked := gone

theorem get?_without :
    (without store gone).files.get? f = if f ∈ gone then none else store.get? f := by
  refine Option.ext fun file => ?_
  rw [without, Dict.get?_filter, decide_eq_true_eq]
  split_ifs with hgone
  · exact iff_of_false (fun h => h.2 hgone) (by rintro ⟨⟩)
  · exact and_iff_left hgone

theorem unlink_without : unlink deletable f (without store gone) =
    if deletable f then some (without store (gone ++ [f])) else none := by
  have herase : (store.filter fun e => e.1 ∉ gone).erase f =
      store.filter fun e => e.1 ∉ gone ++ [f] := by
    refine Dict.ext ?_
    show List.filter _ (List.filter _ _) = List.filter _ _
    rw [List.filter_filter]
    congr 1
    funext e
    simp [and_comm]
  unfold unlink
  split_ifs
  · rw [without, herase]
    rfl
  · rfl

/-- A file that the first loop removes. -/
def doomed (stat : α → FileStat) (deletable : PosixPath → Bool) (now : ℚ) (store : Dict PosixPath α)
    (f : PosixPath) : Bool :=
  (store.get? f).any (expired stat now) && deletable f

/-- What the first loop counts of a file. -/
def freshSize (stat : α → FileStat) (now : ℚ) (store : Dict PosixPath α) (f : PosixPath) : ℕ :=
  (store.get? f).elim 0 fun file => if expired stat now file then 0 else (stat file).size

/-- The first loop goes on after a file. -/
theorem expire_cons (hf : f ∉ gone) :
    expire stat deletable now (f :: files) (without store gone) total =
      expire stat deletable now files
        (without store (gone ++ if doomed stat deletable now store f then [f] else []))
        (total + freshSize stat now store f) := by
  rw [expire, get?_without, if_neg hf]
  unfold doomed freshSize
  rcases store.get? f with _ | file
  · simp
  · dsimp only
    rw [unlink_without]
    rcases hexpired : expired stat now file with _ | _
    · simp [hexpired]
    · cases deletable f <;> simp [hexpired]

/-- The first loop removes what is doomed, and counts the rest that is not expired. -/
theorem expire_without (hnodup : files.Nodup) (hfiles : ∀ f ∈ files, f ∉ gone) :
    expire stat deletable now files (without store gone) total =
      (without store (gone ++ files.filter (doomed stat deletable now store)),
        total + (files.map (freshSize stat now store)).sum) := by
  induction files generalizing gone total with
  | nil => simp [expire]
  | cons f files ih =>
    obtain ⟨hnew, hnodup⟩ := List.nodup_cons.mp hnodup
    rw [expire_cons (hfiles f List.mem_cons_self), ih hnodup]
    · rw [List.filter_cons, List.map_cons, List.sum_cons, List.append_assoc, Nat.cast_add,
        ← add_assoc]
      cases doomed stat deletable now store f <;> rfl
    · -- no later file is the one that may have gone
      intro g hg
      have hne : g ≠ f := fun h => hnew (h ▸ hg)
      have hother := hfiles g (List.mem_cons_of_mem _ hg)
      cases doomed stat deletable now store f <;> simp [hne, hother]

/-- The size of a file. -/
def bytesOf (stat : α → FileStat) (store : Dict PosixPath α) (f : PosixPath) : ℕ :=
  (store.get? f).elim 0 fun file => (stat file).size

/-- The second loop evicts. -/
theorem enforceQuota_without (hnodup : files.Nodup) (hfiles : ∀ f ∈ files, f ∉ gone)
    (hthere : ∀ f ∈ files, (store.get? f).isSome = true) :
    enforceQuota stat deletable files (without store gone) total =
      without store (gone ++
        evict maxTotalStorageBytes (fun f => bytesOf stat store f) deletable files total) := by
  induction files generalizing gone total with
  | nil => simp [enforceQuota, evict]
  | cons f files ih =>
    obtain ⟨hnew, hnodup⟩ := List.nodup_cons.mp hnodup
    have hrest : ∀ g ∈ files, g ∉ gone := fun g hg => hfiles g (List.mem_cons_of_mem _ hg)
    have hthere' : ∀ g ∈ files, (store.get? g).isSome = true :=
      fun g hg => hthere g (List.mem_cons_of_mem _ hg)
    obtain ⟨file, hfile⟩ := Option.isSome_iff_exists.mp (hthere f List.mem_cons_self)
    have hsize : bytesOf stat store f = (stat file).size := by
      unfold bytesOf
      rw [hfile]
      rfl
    rw [enforceQuota, evict, get?_without, if_neg (hfiles f List.mem_cons_self), hfile]
    dsimp only
    rw [unlink_without]
    split_ifs with hfits hdeletable
    · rw [List.append_nil]
    · dsimp only
      rw [ih hnodup, List.append_assoc, hsize]
      · rfl
      · intro g hg
        have hne : g ≠ f := fun h => hnew (h ▸ hg)
        simp [hne, hrest g hg]
      · exact hthere'
    · exact ih hnodup hrest hthere'

/-! ## Bytes -/

variable {kind kind' : PosixPath → α → Bool} {file : α}

theorem bytes_le (h : ∀ f file, store.get? f = some file → kind f file = true →
    kind' f file = true) : bytes stat kind store ≤ bytes stat kind' store := by
  refine Dict.weigh_le fun e he => ?_
  have hkind := h e.1 e.2 (Dict.mem_entries_iff.mp he)
  split_ifs with hk hk'
  · exact le_rfl
  · exact absurd (hkind hk) hk'
  · exact Nat.zero_le _
  · exact le_rfl

theorem bytes_congr (h : ∀ f file, store.get? f = some file → kind f file = kind' f file) :
    bytes stat kind store = bytes stat kind' store :=
  le_antisymm (bytes_le fun f file hf hk => h f file hf ▸ hk)
    (bytes_le fun f file hf hk => (h f file hf).symm ▸ hk)

theorem bytes_without : bytes stat kind (without store gone).files =
    bytes stat (fun f file => kind f file && decide (f ∉ gone)) store := by
  rw [bytes, without, Dict.weigh_filter, bytes]
  congr 1
  funext f file
  cases kind f file <;> simp

/-- The bytes of a kind, in some of the files and in the others. -/
theorem bytes_split (gone : List PosixPath) : bytes stat kind store =
    bytes stat (fun f file => kind f file && decide (f ∉ gone)) store +
      bytes stat (fun f file => kind f file && decide (f ∈ gone)) store := by
  unfold bytes
  rw [← Dict.weigh_add]
  congr 1
  funext f file
  by_cases hgone : f ∈ gone <;> rcases hkind : kind f file with _ | _ <;> simp [hkind, hgone]

theorem sum_bytesOf (hnodup : gone.Nodup) (hgone : ∀ f ∈ gone, f ∈ store.keys) :
    (gone.map (bytesOf stat store)).sum = bytes stat (fun f _ => decide (f ∈ gone)) store := by
  unfold bytesOf bytes
  rw [Dict.sum_map_keys (fun _ file => (stat file).size) hnodup hgone]
  congr 1
  funext f file
  by_cases hmem : f ∈ gone <;> simp [hmem]

/-- What is left of a kind when some of it is gone. -/
theorem bytes_sub (hnodup : gone.Nodup) (hgone : ∀ f ∈ gone, ∃ file, store.get? f = some file ∧
    kind f file = true) :
    (bytes stat kind store : ℤ) - ((gone.map fun f => (bytesOf stat store f : ℤ)).sum) =
      bytes stat (fun f file => kind f file && decide (f ∉ gone)) store := by
  have hkeys : ∀ f ∈ gone, f ∈ store.keys := by
    intro f hf
    obtain ⟨file, hfile, -⟩ := hgone f hf
    by_contra hnot
    rw [Dict.get?_eq_none_iff_notMem_keys.mpr hnot] at hfile
    cases hfile
  have hkind : bytes stat (fun f file => kind f file && decide (f ∈ gone)) store =
      (gone.map (bytesOf stat store)).sum := by
    rw [sum_bytesOf hnodup hkeys]
    refine bytes_congr fun f file hf => ?_
    by_cases hmem : f ∈ gone
    · obtain ⟨file', hfile', hkind⟩ := hgone f hmem
      obtain rfl := Option.some.inj (hf.symm.trans hfile')
      simp [hkind, hmem]
    · simp [hmem]
  have hcast : ((gone.map fun f => (bytesOf stat store f : ℤ)).sum) =
      ((gone.map (bytesOf stat store)).sum : ℕ) := by
    rw [Nat.cast_list_sum, List.map_map]
    rfl
  rw [bytes_split gone, hkind, hcast]
  push_cast
  ring

/-! ## What is removed -/

/-- The files in the order of age. -/
def activeFiles (stat : α → FileStat) (store : Dict PosixPath α) : List PosixPath :=
  store.keys.mergeSort fun f g => mtimeOf stat (without store []) f ≤ mtimeOf stat (without store []) g

/-- What pruning removes: the expired files that can be deleted; and only if there are none, the
oldest ones that can be deleted, until the rest fits. -/
def removed (stat : α → FileStat) (deletable : PosixPath → Bool) (now : ℚ)
    (store : Dict PosixPath α) : List PosixPath :=
  let doomedFiles := store.keys.filter (doomed stat deletable now store)
  if doomedFiles = [] then
    evict maxTotalStorageBytes (fun f => bytesOf stat store f) deletable (activeFiles stat store)
      (bytes stat (fun _ file => !expired stat now file) store)
  else doomedFiles

theorem without_nil : without store [] = ⟨store, []⟩ := by
  have hall : (store.filter fun e => e.1 ∉ ([] : List PosixPath)) = store := by
    refine Dict.ext (List.filter_eq_self.mpr fun e _ => ?_)
    simp
  rw [without, hall]

theorem isSome_of_mem_keys (hf : f ∈ store.keys) : (store.get? f).isSome = true := by
  rcases hlookup : store.get? f with _ | file
  · exact absurd hf (Dict.get?_eq_none_iff_notMem_keys.mp hlookup)
  · rfl

theorem nodup_keys : store.keys.Nodup := store.nodup

/-- What the first loop counts. -/
theorem sum_freshSize : (store.keys.map (freshSize stat now store)).sum =
    bytes stat (fun _ file => !expired stat now file) store := by
  have hsum := Dict.sum_map_keys (fun _ file => if expired stat now file then 0 else (stat file).size)
    nodup_keys fun f (hf : f ∈ store.keys) => hf
  refine hsum.trans (le_antisymm (Dict.weigh_le fun e he => ?_) (Dict.weigh_le fun e he => ?_)) <;>
    have hkey : e.1 ∈ store.keys := List.mem_map_of_mem he <;>
    cases hexpired : expired stat now e.2 <;> simp [hkey, hexpired]

theorem nodup_activeFiles : (activeFiles stat store).Nodup :=
  (List.mergeSort_perm _ _).nodup_iff.mpr nodup_keys

theorem mem_activeFiles : f ∈ activeFiles stat store ↔ f ∈ store.keys := List.mem_mergeSort

/-- The files can be sorted as long as none is gone. -/
theorem sortedByMtime_nil :
    sortedByMtime stat store.keys (without store []) = some (activeFiles stat store) := by
  unfold sortedByMtime
  rw [if_pos]
  · rfl
  · refine List.all_eq_true.mpr fun f hf => ?_
    rw [get?_without, if_neg List.not_mem_nil]
    exact isSome_of_mem_keys hf

theorem sortedByMtime_gone (hf : f ∈ store.keys) (hgone : f ∈ gone) :
    sortedByMtime stat store.keys (without store gone) = none := by
  unfold sortedByMtime
  rw [if_neg]
  intro hall
  have hthere := List.all_eq_true.mp hall f hf
  rw [get?_without, if_pos hgone] at hthere
  cases hthere

/-- **What pruning removes**, whatever the sorting raises. -/
theorem pruneExpiredChunks_eq : pruneExpiredChunks stat deletable now store =
    without store (removed stat deletable now store) := by
  unfold pruneExpiredChunks removed
  dsimp only
  rw [← without_nil, expire_without nodup_keys fun f _ => List.not_mem_nil]
  dsimp only
  rw [List.nil_append, zero_add, sum_freshSize]
  by_cases hdoomed : store.keys.filter (doomed stat deletable now store) = []
  · rw [hdoomed, if_pos rfl]
    split_ifs with hover
    · rw [sortedByMtime_nil]
      dsimp only
      rw [enforceQuota_without nodup_activeFiles (fun f _ => List.not_mem_nil)
        fun f hf => isSome_of_mem_keys (mem_activeFiles.mp hf), List.nil_append]
    · rw [evict_of_fits (not_lt.mp hover)]
  · rw [if_neg hdoomed]
    split_ifs with hover
    · -- a file is gone, and cannot be sorted
      obtain ⟨f, hf⟩ := List.exists_mem_of_ne_nil _ hdoomed
      rw [sortedByMtime_gone (List.mem_of_mem_filter hf) hf]
    · rfl

/-! ## When pruning does what it is for -/

theorem doomed_iff : doomed stat deletable now store f = true ↔
    (∃ file, store.get? f = some file ∧ expired stat now file = true) ∧ deletable f = true := by
  unfold doomed
  rw [Bool.and_eq_true, Option.any_eq_true]

theorem mem_keys_of_get? (hf : store.get? f = some file) : f ∈ store.keys := by
  by_contra hnot
  rw [Dict.get?_eq_none_iff_notMem_keys.mpr hnot] at hf
  cases hf

theorem expires_iff : Expires stat deletable now store ↔
    store.keys.filter (doomed stat deletable now store) ≠ [] := by
  constructor
  · rintro ⟨f, file, hf, hexpired, hdeletable⟩ hnone
    have hmem : f ∈ store.keys.filter (doomed stat deletable now store) :=
      List.mem_filter.mpr ⟨mem_keys_of_get? hf, doomed_iff.mpr ⟨⟨file, hf, hexpired⟩, hdeletable⟩⟩
    rw [hnone] at hmem
    cases hmem
  · intro hsome
    obtain ⟨f, hf⟩ := List.exists_mem_of_ne_nil _ hsome
    obtain ⟨⟨file, hfile, hexpired⟩, hdeletable⟩ := doomed_iff.mp (List.mem_filter.mp hf).2
    exact ⟨f, file, hfile, hexpired, hdeletable⟩

theorem removed_of_expires (h : Expires stat deletable now store) :
    removed stat deletable now store = store.keys.filter (doomed stat deletable now store) := by
  unfold removed
  exact if_neg (expires_iff.mp h)

theorem removed_of_not_expires (h : ¬ Expires stat deletable now store) :
    removed stat deletable now store =
      evict maxTotalStorageBytes (fun f => bytesOf stat store f) deletable (activeFiles stat store)
        (bytes stat (fun _ file => !expired stat now file) store) := by
  unfold removed
  exact if_pos (not_not.mp (expires_iff.not.mp h))

theorem get?_pruneExpiredChunks (hf : store.get? f = some file) :
    (pruneExpiredChunks stat deletable now store).files.get? f = none ↔
      f ∈ removed stat deletable now store := by
  rw [pruneExpiredChunks_eq, get?_without]
  split_ifs with hmem
  · exact iff_of_true rfl hmem
  · rw [hf]
    exact iff_of_false (by rintro ⟨⟩) hmem

theorem mem_removed_deletable (hf : f ∈ removed stat deletable now store) : deletable f = true := by
  by_cases hexpires : Expires stat deletable now store
  · rw [removed_of_expires hexpires] at hf
    exact (doomed_iff.mp (List.mem_filter.mp hf).2).2
  · rw [removed_of_not_expires hexpires] at hf
    exact (List.mem_filter.mp (evict_isPrefix.subset hf)).2

/-- With an expired file to delete, only the expired ones go. -/
theorem pruned_iff_of_expires (h : Expires stat deletable now store) :
    Pruned stat deletable now store ↔
      bytes stat (fun f file => !expired stat now file && deletable f) store ≤
        maxTotalStorageBytes := by
  have hmem : ∀ f file, store.get? f = some file →
      (f ∈ removed stat deletable now store ↔ expired stat now file = true ∧ deletable f = true) := by
    intro f file hf
    rw [removed_of_expires h, List.mem_filter, doomed_iff]
    constructor
    · rintro ⟨-, ⟨file', hfile', hexpired⟩, hdeletable⟩
      obtain rfl := Option.some.inj (hf.symm.trans hfile')
      exact ⟨hexpired, hdeletable⟩
    · rintro ⟨hexpired, hdeletable⟩
      exact ⟨mem_keys_of_get? hf, ⟨file, hf, hexpired⟩, hdeletable⟩
  have hleft : bytes stat (fun f _ => deletable f) (pruneExpiredChunks stat deletable now store).files =
      bytes stat (fun f file => !expired stat now file && deletable f) store := by
    rw [pruneExpiredChunks_eq, bytes_without]
    refine bytes_congr fun f file hf => ?_
    have hgone := hmem f file hf
    cases hexpired : expired stat now file <;> cases hdeletable : deletable f <;>
      simp_all
  constructor
  · intro hpruned
    exact hleft ▸ hpruned.quota
  · intro hfits
    refine ⟨?_, hleft ▸ hfits, ?_⟩
    · intro f file hf hexpired hdeletable
      exact (get?_pruneExpiredChunks hf).mpr ((hmem f file hf).mpr ⟨hexpired, hdeletable⟩)
    · intro f file hf hfresh hgone
      have hexpired := ((hmem f file hf).mp ((get?_pruneExpiredChunks hf).mp hgone)).1
      rw [hfresh] at hexpired
      cases hexpired

theorem mtimeOf_without (hf : store.get? f = some file) :
    mtimeOf stat (without store []) f = (stat file).mtime := by
  unfold mtimeOf
  rw [get?_without, if_neg List.not_mem_nil, hf]
  rfl

theorem sorted_activeFiles : (activeFiles stat store).Pairwise
    (mtimeOf stat (without store []) · ≤ mtimeOf stat (without store []) ·) := by
  have hsorted : (activeFiles stat store).Pairwise fun f g =>
      decide (mtimeOf stat (without store []) f ≤ mtimeOf stat (without store []) g) = true :=
    List.pairwise_mergeSort
      (fun a b c hab hbc => decide_eq_true ((of_decide_eq_true hab).trans (of_decide_eq_true hbc)))
      (fun a b => by simpa using le_total _ _) store.keys
  exact hsorted.imp of_decide_eq_true

section

variable (h : ¬ Expires stat deletable now store)

include h

/-- What can be deleted is not expired. -/
theorem fresh_of_deletable (hf : store.get? f = some file) (hdeletable : deletable f = true) :
    expired stat now file = false := by
  rcases hexpired : expired stat now file with _ | _
  · rfl
  · exact absurd ⟨f, file, hf, hexpired, hdeletable⟩ h

theorem removed_isPrefix : removed stat deletable now store <+: (activeFiles stat store).filter deletable := by
  rw [removed_of_not_expires h]
  exact evict_isPrefix

theorem nodup_removed : (removed stat deletable now store).Nodup :=
  (nodup_activeFiles.filter _).sublist (removed_isPrefix h).sublist

theorem fresh_of_mem_removed (hf : f ∈ removed stat deletable now store) :
    ∃ file, store.get? f = some file ∧ (!expired stat now file) = true := by
  obtain ⟨hactive, hdeletable⟩ := List.mem_filter.mp ((removed_isPrefix h).subset hf)
  obtain ⟨file, hfile⟩ :=
    Option.isSome_iff_exists.mp (isSome_of_mem_keys (mem_activeFiles.mp hactive))
  exact ⟨file, hfile, by rw [fresh_of_deletable h hfile hdeletable]; rfl⟩

/-- The files that are not expired do not fit when one of them is removed. -/
theorem over_before {before after : List PosixPath}
    (hsplit : removed stat deletable now store = before ++ f :: after) :
    maxTotalStorageBytes <
      bytes stat (fun g other => !expired stat now other && decide (g ∉ before)) store := by
  have hmem : ∀ g ∈ before, g ∈ removed stat deletable now store := by
    intro g hg
    rw [hsplit]
    exact List.mem_append_left _ hg
  have hnodup := nodup_removed h
  rw [hsplit] at hnodup
  have hleft := @bytes_sub _ stat _ _ _ (List.nodup_append.mp hnodup).1 fun g hg =>
    fresh_of_mem_removed h (hmem g hg)
  rw [removed_of_not_expires h] at hsplit
  have hover := limit_lt_of_evict hsplit
  rw [hleft] at hover
  exact_mod_cast hover

/-- In the end they fit, or all that can be deleted is removed. -/
theorem fits_or_all_removed :
    bytes stat (fun f file => !expired stat now file &&
        decide (f ∉ removed stat deletable now store)) store ≤ maxTotalStorageBytes ∨
      ∀ f file, store.get? f = some file → deletable f = true →
        f ∈ removed stat deletable now store := by
  have hleft := @bytes_sub _ stat _ _ _ (nodup_removed h) fun g hg => fresh_of_mem_removed h hg
  rcases @fits_or_all _ maxTotalStorageBytes (fun f => bytesOf stat store f) deletable
    (activeFiles stat store) (bytes stat (fun _ file => !expired stat now file) store) with
    hfits | hall
  · rw [← removed_of_not_expires h, hleft] at hfits
    exact .inl (by exact_mod_cast hfits)
  · rw [← removed_of_not_expires h] at hall
    refine .inr fun f file hf hdeletable => ?_
    rw [hall]
    exact List.mem_filter.mpr ⟨mem_activeFiles.mpr (mem_keys_of_get? hf), hdeletable⟩

/-- What is older and can be deleted goes before. -/
theorem older_mem_before {before after : List PosixPath} {g : PosixPath} {other : α}
    (hsplit : removed stat deletable now store = before ++ f :: after)
    (hf : store.get? f = some file) (hg : store.get? g = some other) (hdeletable : deletable g = true)
    (hold : (stat other).mtime < (stat file).mtime) : g ∈ before := by
  have hprefix := removed_isPrefix h
  rw [hsplit] at hprefix
  refine older_mem sorted_activeFiles hprefix (mem_activeFiles.mpr (mem_keys_of_get? hg))
    hdeletable ?_
  rw [mtimeOf_without hf, mtimeOf_without hg]
  exact hold

/-- If a file that cannot be deleted stands before one that has to be, a younger one is removed. -/
theorem exists_younger_removed {other : α} (hf : store.get? f = some file)
    (hfdeletable : deletable f = true) (hyoung : (stat other).mtime < (stat file).mtime)
    (hover : maxTotalStorageBytes <
      bytes stat (fun f file => !expired stat now file &&
        (!deletable f || decide ((stat other).mtime < (stat file).mtime))) store) :
    ∃ f file, store.get? f = some file ∧ f ∈ removed stat deletable now store ∧
      (stat other).mtime < (stat file).mtime := by
  rcases fits_or_all_removed h with hfits | hall
  · by_contra hnone
    push Not at hnone
    -- what is removed is no younger, so what is younger is left
    refine absurd (hover.trans_le (bytes_le fun f file hf hkind => ?_)) (not_lt.mpr hfits)
    rw [Bool.and_eq_true, Bool.or_eq_true, decide_eq_true_eq] at hkind
    rw [Bool.and_eq_true, decide_eq_true_eq]
    refine ⟨hkind.1, fun hgone => ?_⟩
    rcases hkind.2 with hkept | hyoung
    · rw [mem_removed_deletable hgone] at hkept
      cases hkept
    · exact absurd hyoung (not_lt.mpr (hnone f file hf hgone))
  · exact ⟨f, file, hf, hall f file hf hfdeletable, hyoung⟩

/-- Without an expired file to delete, the oldest ones go, and one that cannot be deleted must not
stand before them. -/
theorem pruned_iff_of_not_expires :
    Pruned stat deletable now store ↔
      ∀ g other, store.get? g = some other → expired stat now other = false → deletable g = false →
        (∃ f file, store.get? f = some file ∧ expired stat now file = false ∧ deletable f = true ∧
          (stat other).mtime < (stat file).mtime) →
        bytes stat (fun f file => !expired stat now file &&
          (!deletable f || decide ((stat other).mtime < (stat file).mtime))) store ≤
            maxTotalStorageBytes := by
  constructor
  · rintro hpruned g other hg hfresh hkept ⟨f, file, hf, -, hdeletable, hyoung⟩
    by_contra hover
    obtain ⟨x, younger, hx, hgone, hyounger⟩ :=
      exists_younger_removed h hf hdeletable hyoung (not_le.mp hover)
    obtain ⟨before, after, hunlinked, -, hold⟩ := hpruned.oldest x younger hx
      (fresh_of_deletable h hx (mem_removed_deletable hgone)) ((get?_pruneExpiredChunks hx).mpr hgone)
    -- the older one would have to be removed before it
    have hmem : g ∈ removed stat deletable now store := by
      rw [pruneExpiredChunks_eq] at hunlinked
      rw [show removed stat deletable now store = before ++ x :: after from hunlinked]
      exact List.mem_append_left _ (hold g other hg hfresh hyounger)
    rw [mem_removed_deletable hmem] at hkept
    cases hkept
  · intro hfree
    refine ⟨?_, ?_, ?_⟩
    · intro f file hf hexpired hdeletable
      exact absurd ⟨f, file, hf, hexpired, hdeletable⟩ h
    · rw [pruneExpiredChunks_eq, bytes_without]
      rcases fits_or_all_removed h with hfits | hall
      · refine (bytes_le fun f file hf hkind => ?_).trans hfits
        rw [Bool.and_eq_true] at hkind ⊢
        exact ⟨by rw [fresh_of_deletable h hf hkind.1]; rfl, hkind.2⟩
      · have hnone : bytes stat (fun f file => deletable f &&
            decide (f ∉ removed stat deletable now store)) store ≤
            bytes stat (fun _ _ => false) store := by
          refine bytes_le fun f file hf hkind => ?_
          rw [Bool.and_eq_true, decide_eq_true_eq] at hkind
          exact absurd (hall f file hf hkind.1) hkind.2
        refine hnone.trans ?_
        rw [bytes, Dict.weigh]
        simp
    · intro f file hf hfresh hgone
      have hmem := (get?_pruneExpiredChunks hf).mp hgone
      obtain ⟨before, after, hsplit⟩ := List.append_of_mem hmem
      have hover := over_before h hsplit
      refine ⟨before, after, ?_, hover, fun g other hg hother hold => ?_⟩
      · rw [pruneExpiredChunks_eq]
        exact hsplit
      · by_cases hdeletable : deletable g = true
        · exact older_mem_before h hsplit hf hg hdeletable hold
        · -- what is not removed before cannot be deleted, or is younger
          have hfits := hfree g other hg hother (Bool.eq_false_iff.mpr hdeletable)
            ⟨f, file, hf, hfresh, mem_removed_deletable hmem, hold⟩
          refine absurd (hover.trans_le (bytes_le fun x young hx hkind => ?_)) (not_lt.mpr hfits)
          rw [Bool.and_eq_true, decide_eq_true_eq] at hkind
          rw [Bool.and_eq_true, Bool.or_eq_true, decide_eq_true_eq]
          refine ⟨hkind.1, ?_⟩
          by_contra hneither
          rw [not_or, Bool.not_eq_true', Bool.not_eq_false, not_lt] at hneither
          exact hkind.2
            (older_mem_before h hsplit hf hx hneither.1 (hneither.2.trans_lt hold))

end

variable (stat deletable now store)

/-- **Pruning** removes what it is to remove exactly when no expired file that can be deleted stops
it short of the quota, and no file that cannot be deleted is in its way. -/
theorem pruned_iff : Pruned stat deletable now store ↔ Unhindered stat deletable now store := by
  by_cases h : Expires stat deletable now store
  · rw [pruned_iff_of_expires h]
    exact ⟨fun hfits => ⟨fun _ => hfits, fun hnot => absurd h hnot⟩, fun hun => hun.fits h⟩
  · rw [pruned_iff_of_not_expires h]
    exact ⟨fun hfree => ⟨fun hexpires => absurd hexpires h, fun _ => hfree⟩, fun hun => hun.free h⟩

end

/-! ## A store over its quota -/

/-- An expired chunk, and a fresh one that is larger than the quota. -/
def overfull : Dict PosixPath FileStat :=
  (Dict.empty.insert ["old.chunk"] ⟨1, 0⟩).insert ["fresh.chunk"] ⟨maxTotalStorageBytes + 1, 1000⟩

/-- The expired chunk goes, and the other one stays. -/
theorem not_pruned_overfull : ¬ Pruned id (fun _ => true) 1000 overfull := by
  have hleft : bytes id (fun _ _ => true)
      (pruneExpiredChunks id (fun _ => true) 1000 overfull).files = maxTotalStorageBytes + 1 := by
    decide +kernel
  intro h
  have hquota := h.quota
  rw [hleft] at hquota
  omega

end AnonyMus.P2p.Chunks
