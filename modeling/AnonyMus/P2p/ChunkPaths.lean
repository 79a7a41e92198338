import AnonyMus.Lib.PosixPath
import AnonyMus.P2p.OnionSignature

/-!
# Where the chunks of files lie

`transports/p2p/routers/files.py` stores a chunk in the directory of its uploader, which is named by
a digest of the sender address as it was given; chunks without a sender lie in the directory of all.

* `uploaderDir`, `safeChunkPath`, `chunkPath` — the code;
* `chunkPath_eq_ok_iff` — the path of a chunk;
* `chunkPath_below` — it lies in the directory of the sender;
* `chunkPath_inj` — two chunks share a file only if the digests of their senders collide.
-/

namespace AnonyMus.P2p.Chunks

open EStateM (except_bind_eq_ok_iff)
open PosixPath (Plain)

/-! ## Paths -/

/-- What the paths depend on. -/
structure ChunkDir where
  /-- `XFTP_CHUNK_DIR`. -/
  xftpChunkDir : PosixPath
  sha256       : List UInt8 → Bytes 32

/-- `_ONION_V3_RE.match`. -/
def isOnionV3 (s : String) : Bool := ((afterOnionV3 s).filter isPortEnd).isSome

/-- `[a-zA-Z0-9_-]`. -/
def isIdChar (c : Char) : Bool := c.isAlphanum || c == '_' || c == '-'

/-- `_CHUNK_ID_RE.match`: `^[a-zA-Z0-9_-]{1,128}$`, where `$` lets a final newline pass. -/
def isChunkId (s : String) : Bool :=
  let id := if s.toList.getLast? = some '\n' then s.toList.dropLast else s.toList
  1 ≤ id.length && id.length ≤ 128 && id.all isIdChar

section

variable (K : ChunkDir)

/-- The name of the directory of an uploader: half of the digest. -/
def dirName (senderOnion : String) : String :=
  String.ofList ((toHex (K.sha256 senderOnion.toUTF8.toList).1).take 32)

/-- `_uploader_dir`. -/
def uploaderDir (senderOnion : String) : Except Failure PosixPath :=
  if isOnionV3 senderOnion = false then
    .error (.http 400 "Invalid sender onion address format")
  else
    let baseDir := K.xftpChunkDir.resolve
    let d := (baseDir.join (dirName K senderOnion)).resolve
    if baseDir <+: d then .ok d else .error (.http 400 "Invalid uploader directory path")

def sanitizeChunkId (chunkId : String) : Except Failure String :=
  if isChunkId chunkId = false then .error (.http 400 "Invalid chunk identifier format")
  else .ok chunkId

/-- `_safe_chunk_path`. -/
def safeChunkPath (targetDir : PosixPath) (chunkId : String) : Except Failure PosixPath := do
  let cleanId ← sanitizeChunkId chunkId
  let safeName := PosixPath.name cleanId
  let baseDir := targetDir.resolve
  let target := (baseDir.join (safeName ++ ".chunk")).resolve
  if baseDir <+: target then return target else throw (.http 400 "Invalid chunk path")

/-- The directory of a sender; an empty one is none. -/
def targetDir (senderOnion : Option String) : Except Failure PosixPath :=
  match senderOnion.filter (· ≠ "") with
  | some senderOnion => uploaderDir K senderOnion
  | none => .ok K.xftpChunkDir

/-- The file of a chunk. -/
def chunkPath (senderOnion : Option String) (chunkId : String) : Except Failure PosixPath := do
  safeChunkPath (← targetDir K senderOnion) chunkId

/-- The path of the directory of a sender, below the directory of all. -/
def folder (senderOnion : Option String) : List String :=
  (senderOnion.filter (· ≠ "")).toList.map (dirName K)

/-- No sender, or the address of one. -/
def ValidSender (senderOnion : Option String) : Prop :=
  ∀ s ∈ senderOnion.filter (· ≠ ""), isOnionV3 s = true

end

/-! ## Names -/

section

variable {K : ChunkDir} {sender : Option String} {chunkId : String} {path : PosixPath}

theorem mem_toHex {l : List UInt8} {c : Char} (hc : c ∈ toHex l) : c ∈ hexDigits := by
  obtain ⟨b, -, hc⟩ := List.mem_flatMap.mp hc
  have hdigit : ∀ v < 16, hexDigit v ∈ hexDigits := by decide
  have hb := b.toNat_lt
  rcases List.mem_pair.mp hc with rfl | rfl
  · exact hdigit _ (by omega)
  · exact hdigit _ (by omega)

theorem length_toHex (l : List UInt8) : (toHex l).length = 2 * l.length := by
  induction l with
  | nil => rfl
  | cons b rest ih =>
    rw [toHex] at ih
    rw [toHex, List.flatMap_cons, List.length_append, ih, List.length_cons]
    simp only [List.length_cons, List.length_nil]
    omega

theorem length_dirName (s : String) : (dirName K s).toList.length = 32 := by
  rw [dirName, String.toList_ofList, List.length_take, length_toHex, (K.sha256 _).2]
  decide

theorem plain_dirName (s : String) : Plain (dirName K s) := by
  have hlength : ∀ t : String, t.toList.length ≠ 32 → dirName K s ≠ t := by
    rintro t ht rfl
    exact ht (length_dirName s)
  refine ⟨?_, hlength _ (by decide), hlength _ (by decide), hlength _ (by decide)⟩
  intro hslash
  rw [dirName, String.toList_ofList] at hslash
  exact absurd (mem_toHex (List.mem_of_mem_take hslash)) (by decide)

/-- The characters of an identifier. -/
theorem mem_chunkId (hid : isChunkId chunkId = true) {c : Char} (hc : c ∈ chunkId.toList) :
    isIdChar c = true ∨ c = '\n' := by
  unfold isChunkId at hid
  split_ifs at hid with hnewline
  · rw [Bool.and_eq_true, List.all_eq_true] at hid
    obtain ⟨ys, hys⟩ := List.getLast?_eq_some_iff.mp hnewline
    rw [hys, List.dropLast_concat] at hid
    rw [hys, List.mem_append, List.mem_singleton] at hc
    exact hc.imp (hid.2 c) id
  · rw [Bool.and_eq_true, List.all_eq_true] at hid
    exact .inl (hid.2 c hc)

theorem chunkId_ne_empty (hid : isChunkId chunkId = true) : chunkId ≠ "" := by
  rintro rfl
  exact absurd hid (by decide)

theorem not_mem_chunkId (hid : isChunkId chunkId = true) {c : Char} (hchar : isIdChar c = false)
    (hnewline : c ≠ '\n') : c ∉ chunkId.toList := by
  intro hc
  rcases mem_chunkId hid hc with h | h
  · rw [hchar] at h
    cases h
  · exact hnewline h

theorem plain_chunkId (hid : isChunkId chunkId = true) : Plain chunkId := by
  have hdot : '.' ∉ chunkId.toList := not_mem_chunkId hid (by decide) (by decide)
  refine ⟨not_mem_chunkId hid (by decide) (by decide), chunkId_ne_empty hid, ?_, ?_⟩
  · rintro rfl
    exact hdot (by decide)
  · rintro rfl
    exact hdot (by decide)

theorem plain_chunkFile (hid : isChunkId chunkId = true) : Plain (chunkId ++ ".chunk") := by
  have hlength : ∀ t : String, t.toList.length < 6 → chunkId ++ ".chunk" ≠ t := by
    rintro t ht rfl
    rw [String.toList_append, List.length_append] at ht
    exact absurd ht (by simp)
  refine ⟨?_, hlength _ (by decide), hlength _ (by decide), hlength _ (by decide)⟩
  rw [String.toList_append, List.mem_append, not_or]
  exact ⟨(plain_chunkId hid).slash, by decide⟩

theorem isOnionV3_onionV3 (publicKey : Bytes 32) (checksum : Bytes 2) :
    isOnionV3 (onionV3 publicKey checksum) = true := by
  unfold isOnionV3
  rw [afterOnionV3_onionV3]
  rfl

/-! ## The paths of chunks -/

/-- A plain name, resolved in a directory. -/
theorem resolve_join {dir : PosixPath} {s : String} (hs : Plain s) :
    (dir.resolve.join s).resolve = dir.resolve ++ [s] := by
  rw [hs.join_eq, hs.resolve_append, PosixPath.resolve_resolve]

theorem uploaderDir_eq_ok_iff {s : String} :
    uploaderDir K s = .ok path ↔
      isOnionV3 s = true ∧ path = K.xftpChunkDir.resolve ++ [dirName K s] := by
  unfold uploaderDir
  dsimp only
  rw [resolve_join (plain_dirName s), if_pos (List.prefix_append _ _)]
  cases isOnionV3 s with
  | false => exact iff_of_false (by rintro ⟨⟩) (by rintro ⟨⟨⟩, -⟩)
  | true =>
    rw [if_neg (by decide), Except.ok.injEq, eq_comm]
    exact (and_iff_right rfl).symm

theorem safeChunkPath_eq_ok_iff {dir : PosixPath} :
    safeChunkPath dir chunkId = .ok path ↔
      isChunkId chunkId = true ∧ path = dir.resolve ++ [chunkId ++ ".chunk"] := by
  unfold safeChunkPath sanitizeChunkId
  cases hid : isChunkId chunkId with
  | false => exact iff_of_false (by rintro ⟨⟩) (by rintro ⟨⟨⟩, -⟩)
  | true =>
    rw [if_neg (by decide)]
    show (if dir.resolve <+: (dir.resolve.join (PosixPath.name chunkId ++ ".chunk")).resolve then
        pure (dir.resolve.join (PosixPath.name chunkId ++ ".chunk")).resolve
      else throw (Failure.http 400 "Invalid chunk path") : Except Failure PosixPath) = _ ↔ _
    rw [(plain_chunkId hid).name_eq, resolve_join (plain_chunkFile hid),
      if_pos (List.prefix_append _ _)]
    show Except.ok _ = Except.ok path ↔ _
    rw [Except.ok.injEq, eq_comm]
    exact (and_iff_right rfl).symm

/-- The path of a chunk, for the senders and the identifiers that the expressions match. -/
theorem chunkPath_eq_ok_iff :
    chunkPath K sender chunkId = .ok path ↔
      ValidSender sender ∧ isChunkId chunkId = true ∧
        path = K.xftpChunkDir.resolve ++ folder K sender ++ [chunkId ++ ".chunk"] := by
  unfold chunkPath targetDir folder ValidSender
  rw [except_bind_eq_ok_iff]
  simp only [safeChunkPath_eq_ok_iff]
  rcases sender.filter (· ≠ "") with _ | s
  · -- the directory of all
    simp only [Option.toList_none, List.map_nil, List.append_nil]
    constructor
    · rintro ⟨dir, hdir, hid, rfl⟩
      obtain rfl := Except.ok.inj hdir
      exact ⟨fun s hs => absurd hs (Option.not_mem_none s), hid, rfl⟩
    · rintro ⟨-, hid, rfl⟩
      exact ⟨_, rfl, hid, rfl⟩
  · -- the directory of an uploader, which is resolved
    simp only [Option.toList_some, List.map_cons, List.map_nil, uploaderDir_eq_ok_iff]
    have hresolved : (K.xftpChunkDir.resolve ++ [dirName K s]).resolve =
        K.xftpChunkDir.resolve ++ [dirName K s] := by
      rw [(plain_dirName s).resolve_append, PosixPath.resolve_resolve]
    constructor
    · rintro ⟨dir, ⟨honion, rfl⟩, hid, rfl⟩
      rw [hresolved]
      refine ⟨?_, hid, rfl⟩
      rintro _ ⟨⟩
      exact honion
    · rintro ⟨hvalid, hid, rfl⟩
      refine ⟨_, ⟨hvalid s rfl, rfl⟩, hid, ?_⟩
      rw [hresolved]

/-- A chunk lies in the directory of its sender. -/
theorem chunkPath_below (h : chunkPath K sender chunkId = .ok path) :
    K.xftpChunkDir.resolve ++ folder K sender <+: path := by
  obtain ⟨-, -, rfl⟩ := chunkPath_eq_ok_iff.mp h
  exact List.prefix_append _ _

/-- A file is named by the identifier of its chunk, in a directory named by its sender. -/
theorem chunkPath_inj {sender' : Option String} {chunkId' : String}
    (h : chunkPath K sender chunkId = .ok path) (h' : chunkPath K sender' chunkId' = .ok path) :
    folder K sender = folder K sender' ∧ chunkId = chunkId' := by
  obtain ⟨-, -, rfl⟩ := chunkPath_eq_ok_iff.mp h
  obtain ⟨-, -, hpath⟩ := chunkPath_eq_ok_iff.mp h'
  obtain ⟨hfolder, hfile⟩ := List.append_inj' hpath rfl
  refine ⟨List.append_cancel_left hfolder, ?_⟩
  exact (String.append_left_inj _).mp (List.singleton_inj.mp hfile)

end

end AnonyMus.P2p.Chunks
