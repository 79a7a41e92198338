import Mathlib.Data.Set.Function
import AnonyMus.Lib.Simulation
import AnonyMus.P2p.ChunkPaths
import AnonyMus.P2p.Pruning
import AnonyMus.Python.Conversation
import AnonyMus.Python.MlsAgreement

/-!
# The store of file chunks

`_save_chunk` and `_load_chunk` of `transports/p2p/routers/files.py`. A chunk is encrypted at rest,
under a key from the shared secret of its sender or, if there is none, from a key of the node; what
lacks the magic bytes is a chunk from before. Every save prunes the store first. Files are written
as a whole, to a POSIX file system that tells upper from lower case, so that two paths are two
files.

* `deriveChunkKey`, `encryptChunk`, `decryptChunk` — encryption at rest;
* `saveChunk`, `loadChunk` — the code;
* `saveChunk_cases`, `loadChunk_saved` — what a save can do, and what a load finds;
* `RoundTrips`, `Contained`, `Isolated` — what the store is for;
* `chunkStore_sound` — it is all of it.
-/

namespace AnonyMus.P2p.Chunks

open EStateM
open Python (Library PyError b64decode)
open Python.Mls (Hkdf32)

/-! ## The store -/

structure StoredChunk where
  data  : List UInt8
  mtime : ℚ
deriving DecidableEq

def StoredChunk.stat (file : StoredChunk) : FileStat := ⟨file.data.length, file.mtime⟩

/-- The files of the store, and `_PROCESS_FALLBACK_MASTER_KEY`. -/
structure ChunkNode where
  files                    : Dict PosixPath StoredChunk
  processFallbackMasterKey : Option (Bytes 32)
deriving DecidableEq

/-- What the store takes from the settings and from Python. -/
structure ChunkRuntime where
  dir    : ChunkDir
  python : Library
  /-- HKDF-SHA256 with an output of 32 bytes. -/
  hkdf   : Hkdf32
  /-- `settings.db_key`. -/
  dbKey  : String

/-- No sender, or the address of one. -/
abbrev Sender := { s : Option String // ∀ a ∈ s, isOnionV3 a = true }

/-- What the query for the contact of an address finds: its `shared_secret_b64`, if there is one. -/
abbrev Contacts := String → Except PyError (Option (Option String))

/-- The arguments of `_save_chunk`, with what is random, the times, and the files that let
themselves be unlinked. -/
structure SaveCall where
  chunkId   : String
  data      : List UInt8
  sender    : Sender
  session   : Option Contacts
  /-- When the store is pruned. -/
  now       : ℚ
  deletable : PosixPath → Bool
  urandom   : Bytes 32
  nonce     : Bytes 12
  /-- When the file is written. -/
  mtime     : ℚ

structure LoadCall where
  chunkId   : String
  sender    : Sender
  session   : Option Contacts
  now       : ℚ
  deletable : PosixPath → Bool
  urandom   : Bytes 32

def chunkMagic : List UInt8 := "AMENC1".toUTF8.toList

/-! ## Encryption at rest -/

/-- `_lookup_shared_secret`. What the query raises is logged. -/
def lookupSharedSecret (session : Contacts) (senderOnion : Option String) : Option String :=
  match senderOnion.filter (· ≠ "") with
  | none => none
  | some senderOnion =>
    match session senderOnion with
    | .ok (some sharedSecretB64) => sharedSecretB64.filter (· ≠ "")
    | _ => none

/-- The secret that a call looks up. -/
def contactSecret (session : Option Contacts) (senderOnion : Option String) : Option String :=
  session.bind fun session => lookupSharedSecret session senderOnion

section

variable (R : ChunkRuntime)

/-- HKDF without a salt takes zeros. -/
def noSalt : List UInt8 := List.replicate 32 0

/-- The master key that the settings, or the process, already have. -/
def ChunkNode.masterKey (n : ChunkNode) : Option (List UInt8) :=
  if R.dbKey ≠ "" then
    some (R.hkdf noSalt "AnonyMus-XFTP-Master-Chunk-Key".toUTF8.toList R.dbKey.toUTF8.toList).1
  else n.processFallbackMasterKey.map (·.1)

/-- `_master_chunk_key`. -/
def masterChunkKey (urandom : Bytes 32) : EStateM Failure ChunkNode (List UInt8) := do
  match (← get).masterKey R with
  | some key => return key
  | none =>
    modify fun n => { n with processFallbackMasterKey := some urandom }
    return urandom.1

def secretIkm (sharedSecretB64 : String) : List UInt8 :=
  match b64decode (.text sharedSecretB64.toList) with
  | .ok ikm => ikm
  | .error _ => sharedSecretB64.toUTF8.toList

def chunkKey (chunkId : String) (ikm : List UInt8) : Bytes 32 :=
  R.hkdf noSalt ("AnonyMus-XFTP-ChunkKey/".toUTF8.toList ++ chunkId.toUTF8.toList) ikm

/-- `_derive_chunk_key`. -/
def deriveChunkKey (sharedSecretB64 : Option String) (chunkId : String) (urandom : Bytes 32) :
    EStateM Failure ChunkNode (Bytes 32) :=
  match sharedSecretB64.filter (· ≠ "") with
  | some sharedSecretB64 => return chunkKey R chunkId (secretIkm sharedSecretB64)
  | none => do return chunkKey R chunkId (← masterChunkKey R urandom)

/-- `_encrypt_chunk`. -/
def encryptChunk (plaintext : List UInt8) (key : Bytes 32) (nonce : Bytes 12) :
    Except PyError (List UInt8) := do
  let ct ← R.python.aesgcmEncrypt key.1 nonce.1 plaintext []
  return chunkMagic ++ nonce.1 ++ ct

/-- `_decrypt_chunk`. -/
def decryptChunk (blob : List UInt8) (key : Bytes 32) : Option (List UInt8) :=
  if blob.length < chunkMagic.length + 12 + 16 then none
  else if blob.take chunkMagic.length ≠ chunkMagic then none
  else
    let nonce := (blob.drop chunkMagic.length).take 12
    let ct := blob.drop (chunkMagic.length + 12)
    (R.python.aesgcmDecrypt key.1 nonce ct []).toOption

/-! ## Saving and loading -/

/-- What pruning makes of the store at the beginning of a save. -/
def SaveCall.prune (call : SaveCall) (n : ChunkNode) : Directory StoredChunk :=
  pruneExpiredChunks StoredChunk.stat call.deletable call.now n.files

/-- `_save_chunk`. -/
def saveChunk (call : SaveCall) : EStateM Failure ChunkNode Unit := do
  modify fun n => { n with files := (call.prune n).files }
  let target ← ofExcept (chunkPath R.dir call.sender.1 call.chunkId)
  let sharedSecret := contactSecret call.session call.sender.1
  let key ← deriveChunkKey R sharedSecret call.chunkId call.urandom
  let encrypted ← ofExcept ((encryptChunk R call.data key call.nonce).mapError fun _ => .internal)
  modify fun n => { n with files := n.files.insert target ⟨encrypted, call.mtime⟩ }

/-- The end of `_load_chunk`. -/
def loadWithMaster (call : LoadCall) (blob : List UInt8) :
    EStateM Failure ChunkNode (Option (List UInt8)) := do
  let key ← deriveChunkKey R none call.chunkId call.urandom
  return decryptChunk R blob key

/-- The key of the contact is tried first. -/
def openBlob (call : LoadCall) (blob : List UInt8) :
    EStateM Failure ChunkNode (Option (List UInt8)) := do
  match contactSecret call.session call.sender.1 with
  | some sharedSecret =>
    let key ← deriveChunkKey R (some sharedSecret) call.chunkId call.urandom
    match decryptChunk R blob key with
    | some plaintext => return some plaintext
    | none => loadWithMaster R call blob
  | none => loadWithMaster R call blob

/-- `_load_chunk`. -/
def loadChunk (call : LoadCall) : EStateM Failure ChunkNode (Option (List UInt8)) := do
  let target ← ofExcept (chunkPath R.dir call.sender.1 call.chunkId)
  match (← get).files.get? target with
  | none => return none
  | some file =>
    if chunkTtlSeconds < call.now - file.mtime then
      if call.deletable target then modify fun n => { n with files := n.files.erase target }
      return none
    else if file.data.take chunkMagic.length ≠ chunkMagic then return some file.data
    else openBlob R call file.data

/-! ## What the store is for -/

/-- The file of a chunk. -/
def fileOf (sender : Sender) (chunkId : String) : PosixPath :=
  R.dir.xftpChunkDir.resolve ++ folder R.dir sender.1 ++ [chunkId ++ ".chunk"]

/-- A file in the directory of a sender, and not below it. -/
def InDirectory (sender : Sender) (path : PosixPath) : Prop :=
  ∃ name, path = R.dir.xftpChunkDir.resolve ++ folder R.dir sender.1 ++ [name]

/-- No save of these prunes the file. -/
def Unpruned (path : PosixPath) (calls : List SaveCall) (n : ChunkNode) : Prop :=
  AllMeet (saveChunk R) (fun call n => path ∉ (call.prune n).unlinked) calls n

/-- What was saved is loaded after any saves of other chunks, within the TTL, when the secret of the
contact is the same as at the save or was absent then. -/
def RoundTrips : Prop :=
  ∀ (save : SaveCall) (others : List SaveCall) (load : LoadCall) (n n' : ChunkNode),
    saveChunk R save n = .ok ⟨⟩ n' →
    load.sender = save.sender → load.chunkId = save.chunkId →
    (∀ other ∈ others, (other.sender, other.chunkId) ≠ (save.sender, save.chunkId)) →
    Set.InjOn (dirName R.dir) {a | ∃ call ∈ save :: others, call.sender.1 = some a} →
    Unpruned R (fileOf R save.sender save.chunkId) others n' →
    load.now - save.mtime ≤ chunkTtlSeconds →
    (contactSecret save.session save.sender.1 = none ∨
      contactSecret load.session load.sender.1 = contactSecret save.session save.sender.1) →
    (loadChunk R load (after (saveChunk R) others n')).value? = some (some save.data)

/-- Outside the directory of its sender, a save changes no file but for what it prunes; and a load
changes none, and reads none. -/
structure Contained : Prop where
  save : ∀ call n path, ¬ InDirectory R call.sender path → path ∉ (call.prune n).unlinked →
    (saveChunk R call n).state.files.get? path = n.files.get? path
  load : ∀ call n path, ¬ InDirectory R call.sender path →
    (loadChunk R call n).state.files.get? path = n.files.get? path
  read : ∀ call n n', n'.processFallbackMasterKey = n.processFallbackMasterKey →
    (∀ path, InDirectory R call.sender path → n'.files.get? path = n.files.get? path) →
      (loadChunk R call n').value? = (loadChunk R call n).value?

/-- Two senders whose digests do not collide, or two identifiers, have two files. -/
def Isolated : Prop :=
  ∀ (sender sender' : Sender) (chunkId chunkId' : String) (path : PosixPath),
    Set.InjOn (dirName R.dir) {a | sender.1 = some a ∨ sender'.1 = some a} →
    chunkPath R.dir sender.1 chunkId = .ok path → chunkPath R.dir sender'.1 chunkId' = .ok path →
      sender = sender' ∧ chunkId = chunkId'

end

/-- AES-GCM puts a tag of 16 bytes to what it seals. -/
def HasTag (L : Library) : Prop :=
  ∀ {key : Bytes 32} {nonce : Bytes 12} {data aad sealed},
    L.aesgcmEncrypt key.1 nonce.1 data aad = .ok sealed → 16 ≤ sealed.length

/-! ## Files -/

section

variable {R : ChunkRuntime} {sender sender' : Sender} {chunkId chunkId' : String} {path : PosixPath}

theorem chunkPath_sender : chunkPath R.dir sender.1 chunkId = .ok path ↔
    isChunkId chunkId = true ∧ path = fileOf R sender chunkId := by
  rw [chunkPath_eq_ok_iff]
  refine and_iff_right fun a ha => ?_
  exact sender.2 a (Option.filter_eq_some_iff.mp ha).1

theorem inDirectory_fileOf : InDirectory R sender (fileOf R sender chunkId) := ⟨_, rfl⟩

/-- A sender without an address is not an empty one. -/
theorem filter_sender : sender.1.filter (· ≠ "") = sender.1 := by
  obtain ⟨_ | a, ha⟩ := sender
  · rfl
  · refine Option.filter_eq_some_iff.mpr ⟨rfl, decide_eq_true ?_⟩
    rintro rfl
    exact absurd (ha "" rfl) (by decide)

theorem folder_inj (hdigests : Set.InjOn (dirName R.dir) {a | sender.1 = some a ∨ sender'.1 = some a})
    (h : folder R.dir sender.1 = folder R.dir sender'.1) : sender = sender' := by
  unfold folder at h
  rw [filter_sender, filter_sender] at h
  refine Subtype.ext ?_
  rcases hsender : sender.1 with _ | a
  · rcases hsender' : sender'.1 with _ | b
    · rfl
    · rw [hsender, hsender'] at h
      cases h
  · rcases hsender' : sender'.1 with _ | b
    · rw [hsender, hsender'] at h
      cases h
    · rw [hsender, hsender'] at h
      exact congrArg some (hdigests (.inl hsender) (.inr hsender') (List.singleton_inj.mp h))

theorem isolated (R : ChunkRuntime) : Isolated R := by
  intro sender sender' chunkId chunkId' path hdigests h h'
  obtain ⟨hfolder, hid⟩ := chunkPath_inj h h'
  exact ⟨folder_inj hdigests hfolder, hid⟩

end

/-! ## Keys -/

section

variable {R : ChunkRuntime} {chunkId sharedSecret : String} {urandom : Bytes 32} {n : ChunkNode}
  {sender : Option String} {session : Option Contacts}

theorem contactSecret_ne_empty (h : contactSecret session sender = some sharedSecret) :
    sharedSecret ≠ "" := by
  obtain ⟨session, -, h⟩ := Option.bind_eq_some_iff.mp h
  unfold lookupSharedSecret at h
  split at h
  · cases h
  · split at h
    · exact of_decide_eq_true (Option.filter_eq_some_iff.mp h).2
    · cases h

theorem deriveChunkKey_some (h : sharedSecret ≠ "") :
    deriveChunkKey R (some sharedSecret) chunkId urandom n =
      .ok (chunkKey R chunkId (secretIkm sharedSecret)) n := by
  unfold deriveChunkKey
  rw [Option.filter_some, if_pos (decide_eq_true h)]
  rfl

/-- The master key is made once, and found again. -/
theorem deriveChunkKey_none (R : ChunkRuntime) (chunkId : String) (urandom : Bytes 32)
    (n : ChunkNode) : ∃ ikm n',
      deriveChunkKey R none chunkId urandom n = .ok (chunkKey R chunkId ikm) n' ∧
        n'.files = n.files ∧ n'.masterKey R = some ikm ∧
          ∀ key, n.masterKey R = some key → n' = n := by
  unfold deriveChunkKey masterChunkKey
  rw [Option.filter_none]
  dsimp only
  rw [apply_bind, apply_bind, apply_get]
  dsimp only
  rcases hmaster : n.masterKey R with _ | key
  · -- only a process without a key in the settings draws one
    refine ⟨urandom.1, { n with processFallbackMasterKey := some urandom }, rfl, rfl, ?_, ?_⟩
    · unfold ChunkNode.masterKey at hmaster ⊢
      split_ifs at hmaster ⊢
      rfl
    · intro key hkey
      cases hkey
  · exact ⟨key, n, rfl, rfl, hmaster, fun _ _ => rfl⟩

/-- Nothing that derives a key touches a file, or changes the master key. -/
theorem deriveChunkKey_cases (R : ChunkRuntime) (secret : Option String) (chunkId : String)
    (urandom : Bytes 32) (n : ChunkNode) : ∃ key n',
      deriveChunkKey R secret chunkId urandom n = .ok key n' ∧ n'.files = n.files ∧
        ∀ ikm, n.masterKey R = some ikm → n'.masterKey R = some ikm := by
  rcases hsecret : secret.filter (· ≠ "") with _ | sharedSecret
  · obtain ⟨ikm, n', hkey, hfiles, -, hkept⟩ := deriveChunkKey_none R chunkId urandom n
    refine ⟨chunkKey R chunkId ikm, n', ?_, hfiles, fun ikm' hikm => ?_⟩
    · rw [← hkey]
      unfold deriveChunkKey
      rw [hsecret, Option.filter_none]
    · rw [hkept ikm' hikm]
      exact hikm
  · refine ⟨chunkKey R chunkId (secretIkm sharedSecret), n, ?_, rfl, fun _ h => h⟩
    unfold deriveChunkKey
    rw [hsecret]
    rfl

end

/-! ## A save -/

section

variable {R : ChunkRuntime} {call : SaveCall} {n n' : ChunkNode} {path : PosixPath}

/-- The store after the pruning of a save. -/
def SaveCall.pruned (call : SaveCall) (n : ChunkNode) : ChunkNode :=
  { n with files := (call.prune n).files }

theorem get?_pruned (hpath : path ∉ (call.prune n).unlinked) :
    (call.pruned n).files.get? path = n.files.get? path := by
  unfold SaveCall.prune at hpath
  unfold SaveCall.pruned SaveCall.prune
  rw [pruneExpiredChunks_eq] at hpath ⊢
  exact get?_without.trans (if_neg hpath)

/-- What a save can do: it fails before it writes, or writes the one file. -/
theorem saveChunk_cases (R : ChunkRuntime) (call : SaveCall) (n : ChunkNode) :
    (∃ failure n', saveChunk R call n = .error failure n' ∧ n'.files = (call.pruned n).files ∧
      ∀ ikm, n.masterKey R = some ikm → n'.masterKey R = some ikm) ∨
    (∃ key keyed n' blob, deriveChunkKey R (contactSecret call.session call.sender.1) call.chunkId
        call.urandom (call.pruned n) = .ok key keyed ∧
      encryptChunk R call.data key call.nonce = .ok blob ∧
      saveChunk R call n = .ok ⟨⟩ n' ∧ isChunkId call.chunkId = true ∧
      n'.files = (call.pruned n).files.insert (fileOf R call.sender call.chunkId)
        ⟨blob, call.mtime⟩ ∧
      n'.masterKey R = keyed.masterKey R ∧
      ∀ ikm, n.masterKey R = some ikm → n'.masterKey R = some ikm) := by
  have hpruned : ∀ ikm, n.masterKey R = some ikm → (call.pruned n).masterKey R = some ikm :=
    fun _ h => h
  unfold saveChunk
  rw [apply_bind, apply_modify]
  dsimp only
  rw [apply_bind, apply_ofExcept]
  rcases htarget : chunkPath R.dir call.sender.1 call.chunkId with failure | target
  · exact .inl ⟨failure, call.pruned n, rfl, rfl, hpruned⟩
  · obtain ⟨hid, rfl⟩ := chunkPath_sender.mp htarget
    dsimp only
    obtain ⟨key, keyed, hkey, hfiles, hkept⟩ := deriveChunkKey_cases R
      (contactSecret call.session call.sender.1) call.chunkId call.urandom (call.pruned n)
    have hkey' := hkey
    unfold SaveCall.pruned at hkey'
    rw [apply_bind, hkey']
    dsimp only
    rw [apply_bind, apply_ofExcept]
    rcases hblob : encryptChunk R call.data key call.nonce with failure | blob
    · exact .inl ⟨.internal, keyed, rfl, hfiles, fun ikm h => hkept ikm (hpruned ikm h)⟩
    · refine .inr ⟨key, keyed, _, blob, hkey, hblob, rfl, hid, ?_, rfl,
        fun ikm h => hkept ikm (hpruned ikm h)⟩
      rw [← hfiles]

end

/-! ## A load -/

section

variable {R : ChunkRuntime} {data blob ikm : List UInt8} {key key' : Bytes 32} {nonce : Bytes 12}
  {call : LoadCall} {n n' : ChunkNode} {path : PosixPath}

/-- An encrypted chunk is taken apart as it was put together. -/
theorem decryptChunk_blob (htag : HasTag R.python) (h : encryptChunk R data key nonce = .ok blob) :
    ∃ ct, R.python.aesgcmEncrypt key.1 nonce.1 data [] = .ok ct ∧
      blob.take chunkMagic.length = chunkMagic ∧
      ∀ key', decryptChunk R blob key' = (R.python.aesgcmDecrypt key'.1 nonce.1 ct []).toOption := by
  obtain ⟨ct, hct, hblob⟩ := except_bind_eq_ok_iff.mp h
  obtain rfl : chunkMagic ++ nonce.1 ++ ct = blob := Except.ok.inj hblob
  have hmagic : (chunkMagic ++ nonce.1 ++ ct).take chunkMagic.length = chunkMagic := by
    rw [List.append_assoc, List.take_left]
  refine ⟨ct, hct, hmagic, fun key' => ?_⟩
  have hlength : ¬ (chunkMagic ++ nonce.1 ++ ct).length < chunkMagic.length + 12 + 16 := by
    rw [List.length_append, List.length_append, nonce.2]
    have hct16 := htag hct
    omega
  have hnonce : ((chunkMagic ++ nonce.1 ++ ct).drop chunkMagic.length).take 12 = nonce.1 := by
    rw [List.append_assoc, List.drop_left, List.take_left' nonce.2]
  have hsealed : (chunkMagic ++ nonce.1 ++ ct).drop (chunkMagic.length + 12) = ct := by
    exact List.drop_left' (by rw [List.length_append, nonce.2])
  unfold decryptChunk
  dsimp only
  rw [if_neg hlength, if_neg (not_not.mpr hmagic), hnonce, hsealed]

/-- The key opens what it has sealed. -/
theorem decryptChunk_same (hL : R.python.Documented) (htag : HasTag R.python)
    (h : encryptChunk R data key nonce = .ok blob) : decryptChunk R blob key = some data := by
  obtain ⟨ct, hct, -, hopens⟩ := decryptChunk_blob htag h
  rw [hopens, hL.opens hct]
  rfl

/-- Another key does not. -/
theorem decryptChunk_other (hL : R.python.Documented) (htag : HasTag R.python)
    (h : encryptChunk R data key nonce = .ok blob) (hkey : key' ≠ key) :
    decryptChunk R blob key' = none := by
  obtain ⟨ct, hct, -, hopens⟩ := decryptChunk_blob htag h
  rw [hopens, hL.tagged (hL.opens hct) fun hsame => hkey hsame.1]
  rfl

theorem loadWithMaster_saved (hL : R.python.Documented) (htag : HasTag R.python)
    (h : encryptChunk R data (chunkKey R call.chunkId ikm) nonce = .ok blob)
    (hmaster : n.masterKey R = some ikm) : loadWithMaster R call blob n = .ok (some data) n := by
  obtain ⟨ikm', n', hkey, -, hmaster', hkept⟩ := deriveChunkKey_none R call.chunkId call.urandom n
  obtain rfl := hkept ikm hmaster
  obtain rfl := Option.some.inj (hmaster.symm.trans hmaster')
  unfold loadWithMaster
  rw [apply_bind, hkey]
  show Result.ok (decryptChunk R blob _) _ = _
  rw [decryptChunk_same hL htag h]

/-- The key is that of the contact, as it was; or that of the node, after one of a contact that has
come since. -/
theorem openBlob_saved (hL : R.python.Documented) (htag : HasTag R.python)
    (h : encryptChunk R data key nonce = .ok blob)
    (hkey : (∃ sharedSecret, contactSecret call.session call.sender.1 = some sharedSecret ∧
        key = chunkKey R call.chunkId (secretIkm sharedSecret)) ∨
      ∃ ikm, n.masterKey R = some ikm ∧ key = chunkKey R call.chunkId ikm) :
    openBlob R call blob n = .ok (some data) n := by
  unfold openBlob
  rcases hsecret : contactSecret call.session call.sender.1 with _ | sharedSecret
  · rcases hkey with ⟨_, hfound, -⟩ | ⟨ikm, hmaster, rfl⟩
    · rw [hsecret] at hfound
      cases hfound
    · exact loadWithMaster_saved hL htag h hmaster
  · dsimp only
    rw [apply_bind, deriveChunkKey_some (contactSecret_ne_empty hsecret)]
    dsimp only
    by_cases hsame : chunkKey R call.chunkId (secretIkm sharedSecret) = key
    · rw [hsame, decryptChunk_same hL htag h]
      rfl
    · rw [decryptChunk_other hL htag h hsame]
      rcases hkey with ⟨_, hfound, rfl⟩ | ⟨ikm, hmaster, rfl⟩
      · obtain rfl := Option.some.inj (hsecret.symm.trans hfound)
        exact absurd rfl hsame
      · exact loadWithMaster_saved hL htag h hmaster

theorem loadChunk_error {failure : Failure}
    (h : chunkPath R.dir call.sender.1 call.chunkId = .error failure) :
    loadChunk R call n = .error failure n := by
  unfold loadChunk
  rw [h]
  rfl

section

variable (h : chunkPath R.dir call.sender.1 call.chunkId = .ok path)

include h

/-- A load is decided by the one file. -/
theorem loadChunk_eq : loadChunk R call n =
    match n.files.get? path with
    | none => .ok none n
    | some file =>
      if chunkTtlSeconds < call.now - file.mtime then
        .ok none (if call.deletable path then { n with files := n.files.erase path } else n)
      else if file.data.take chunkMagic.length ≠ chunkMagic then .ok (some file.data) n
      else openBlob R call file.data n := by
  unfold loadChunk
  rw [apply_bind, h, apply_ofExcept_ok]
  dsimp only
  rw [apply_bind, apply_get]
  dsimp only
  rcases n.files.get? path with _ | file
  · rfl
  · dsimp only
    split_ifs <;> rfl

theorem loadChunk_missing (hfile : n.files.get? path = none) :
    loadChunk R call n = .ok none n := by
  rw [loadChunk_eq h, hfile]

variable {file : StoredChunk} (hfile : n.files.get? path = some file)

include hfile

theorem loadChunk_expired (hold : chunkTtlSeconds < call.now - file.mtime) :
    loadChunk R call n = .ok none
      (if call.deletable path then { n with files := n.files.erase path } else n) := by
  rw [loadChunk_eq h, hfile]
  exact if_pos hold

theorem loadChunk_found (hnew : ¬ chunkTtlSeconds < call.now - file.mtime) :
    loadChunk R call n = if file.data.take chunkMagic.length ≠ chunkMagic then
      .ok (some file.data) n else openBlob R call file.data n := by
  rw [loadChunk_eq h, hfile]
  exact if_neg hnew

end

end

/-! ## The directory of a sender -/

section

variable {R : ChunkRuntime} {call : LoadCall} {n n' : ChunkNode} {path : PosixPath}

theorem keeps_deriveChunkKey (secret : Option String) (chunkId : String) (urandom : Bytes 32) :
    Keeps ChunkNode.files (deriveChunkKey R secret chunkId urandom) := by
  intro n
  obtain ⟨key, n', hkey, hfiles, -⟩ := deriveChunkKey_cases R secret chunkId urandom n
  rw [hkey]
  exact hfiles

theorem keeps_openBlob (blob : List UInt8) : Keeps ChunkNode.files (openBlob R call blob) := by
  have hmaster : Keeps ChunkNode.files (loadWithMaster R call blob) :=
    Keeps.bind (keeps_deriveChunkKey _ _ _) fun _ => Keeps.pure _
  unfold openBlob
  cases contactSecret call.session call.sender.1 with
  | none => exact hmaster
  | some sharedSecret =>
    refine Keeps.bind (keeps_deriveChunkKey _ _ _) fun key => ?_
    cases decryptChunk R blob key with
    | none => exact hmaster
    | some plaintext => exact Keeps.pure _

/-- The key that a call derives depends on the master key only. -/
theorem deriveChunkKey_congr (secret : Option String) (chunkId : String) (urandom : Bytes 32)
    (h : n'.processFallbackMasterKey = n.processFallbackMasterKey) : ∃ key m m',
      deriveChunkKey R secret chunkId urandom n = .ok key m ∧
        deriveChunkKey R secret chunkId urandom n' = .ok key m' ∧
          m'.processFallbackMasterKey = m.processFallbackMasterKey := by
  have hmaster : n'.masterKey R = n.masterKey R := by
    unfold ChunkNode.masterKey
    rw [h]
  unfold deriveChunkKey
  rcases secret.filter (· ≠ "") with _ | sharedSecret
  · unfold masterChunkKey
    dsimp only
    rw [apply_bind, apply_bind, apply_bind, apply_bind, apply_get, apply_get]
    dsimp only
    rw [hmaster]
    rcases n.masterKey R with _ | key
    · exact ⟨_, _, _, rfl, rfl, rfl⟩
    · exact ⟨_, n, n', rfl, rfl, h⟩
  · exact ⟨_, n, n', rfl, rfl, h⟩

theorem openBlob_congr (blob : List UInt8)
    (h : n'.processFallbackMasterKey = n.processFallbackMasterKey) :
    (openBlob R call blob n').value? = (openBlob R call blob n).value? := by
  have hmaster : ∀ {n n' : ChunkNode}, n'.processFallbackMasterKey = n.processFallbackMasterKey →
      (loadWithMaster R call blob n').value? = (loadWithMaster R call blob n).value? := by
    intro n n' h
    obtain ⟨key, m, m', hkey, hkey', -⟩ :=
      deriveChunkKey_congr (R := R) none call.chunkId call.urandom h
    unfold loadWithMaster
    rw [apply_bind, apply_bind, hkey, hkey']
    rfl
  unfold openBlob
  cases contactSecret call.session call.sender.1 with
  | none => exact hmaster h
  | some sharedSecret =>
    obtain ⟨key, m, m', hkey, hkey', hm⟩ :=
      deriveChunkKey_congr (R := R) (some sharedSecret) call.chunkId call.urandom h
    dsimp only
    rw [apply_bind, apply_bind, hkey, hkey']
    dsimp only
    cases decryptChunk R blob key with
    | none => exact hmaster hm
    | some plaintext => rfl

variable (R)

theorem contained : Contained R where
  save call n path houtside hkept := by
    have hpruned := get?_pruned hkept
    have hne : path ≠ fileOf R call.sender call.chunkId := by
      rintro rfl
      exact houtside inDirectory_fileOf
    -- only the file of the call is written, and it is in the directory
    rcases saveChunk_cases R call n with
      ⟨failure, n', hsave, hfiles, -⟩ | ⟨key, keyed, n', blob, -, -, hsave, -, hfiles, -⟩
    · rw [hsave]
      exact (congrArg (·.get? path) hfiles).trans hpruned
    · rw [hsave]
      show n'.files.get? path = _
      rw [hfiles, Dict.get?_insert, if_neg hne, hpruned]
  load call n path houtside := by
    rcases htarget : chunkPath R.dir call.sender.1 call.chunkId with failure | target
    · rw [loadChunk_error htarget]
      rfl
    · have hne : path ≠ target := by
        rintro rfl
        rw [(chunkPath_sender.mp htarget).2] at houtside
        exact houtside inDirectory_fileOf
      rcases hfile : n.files.get? target with _ | file
      · rw [loadChunk_missing htarget hfile]
        rfl
      · by_cases hold : chunkTtlSeconds < call.now - file.mtime
        · rw [loadChunk_expired htarget hfile hold, Result.state_ok]
          split_ifs
          · rw [Dict.get?_erase, if_neg hne]
          · rfl
        · rw [loadChunk_found htarget hfile hold]
          split_ifs
          · rfl
          · exact congrArg (·.get? path) (keeps_openBlob file.data n)
  read call n n' hmaster hsame := by
    rcases htarget : chunkPath R.dir call.sender.1 call.chunkId with failure | target
    · rw [loadChunk_error htarget, loadChunk_error htarget]
      rfl
    · have hfile' : n'.files.get? target = n.files.get? target := by
        rw [(chunkPath_sender.mp htarget).2]
        exact hsame _ inDirectory_fileOf
      rcases hfile : n.files.get? target with _ | file
      · rw [hfile] at hfile'
        rw [loadChunk_missing htarget hfile, loadChunk_missing htarget hfile']
        rfl
      · rw [hfile] at hfile'
        by_cases hold : chunkTtlSeconds < call.now - file.mtime
        · rw [loadChunk_expired htarget hfile hold, loadChunk_expired htarget hfile' hold]
          rfl
        · rw [loadChunk_found htarget hfile hold, loadChunk_found htarget hfile' hold]
          split_ifs
          · rfl
          · exact openBlob_congr file.data hmaster

end

/-! ## Round trips -/

section

variable {R : ChunkRuntime} {n : ChunkNode} {path : PosixPath} {file : StoredChunk}

/-- A file stays as it is in a save of another one, unless it is pruned, and so does the master key. -/
theorem saveChunk_kept {call : SaveCall} (hother : path ≠ fileOf R call.sender call.chunkId)
    (hkept : path ∉ (call.prune n).unlinked) (hfile : n.files.get? path = some file) :
    (saveChunk R call n).state.files.get? path = some file ∧
      ∀ ikm, n.masterKey R = some ikm → (saveChunk R call n).state.masterKey R = some ikm := by
  have hpruned := (get?_pruned hkept).trans hfile
  rcases saveChunk_cases R call n with
    ⟨failure, n', hsave, hfiles, hmaster⟩ | ⟨key, keyed, n', blob, -, -, hsave, -, hfiles, -, hmaster⟩
  · rw [hsave]
    exact ⟨(congrArg (·.get? path) hfiles).trans hpruned, hmaster⟩
  · rw [hsave]
    refine ⟨?_, hmaster⟩
    show n'.files.get? path = _
    rw [hfiles, Dict.get?_insert, if_neg hother, hpruned]

/-- Over a run of saves of other files. -/
theorem after_kept {calls : List SaveCall} {ikm : Option (List UInt8)}
    (hothers : ∀ call ∈ calls, path ≠ fileOf R call.sender call.chunkId)
    (hunpruned : Unpruned R path calls n) (hfile : n.files.get? path = some file)
    (hikm : ∀ key ∈ ikm, n.masterKey R = some key) :
    (after (saveChunk R) calls n).files.get? path = some file ∧
      ∀ key ∈ ikm, (after (saveChunk R) calls n).masterKey R = some key := by
  induction calls generalizing n with
  | nil => exact ⟨hfile, hikm⟩
  | cons call calls ih =>
    obtain ⟨hkept, hmaster⟩ :=
      saveChunk_kept (hothers call List.mem_cons_self) hunpruned.1 hfile
    exact ih (fun other hmem => hothers other (List.mem_cons_of_mem _ hmem)) hunpruned.2 hkept
      fun key hkey => hmaster key (hikm key hkey)

/-- The key of a save comes from the secret that it finds, or from the master key. -/
theorem key_of_save {call : SaveCall} {key : Bytes 32} {keyed : ChunkNode}
    (h : deriveChunkKey R (contactSecret call.session call.sender.1) call.chunkId call.urandom n =
      .ok key keyed) :
    (∃ sharedSecret, contactSecret call.session call.sender.1 = some sharedSecret ∧
      key = chunkKey R call.chunkId (secretIkm sharedSecret)) ∨
    (contactSecret call.session call.sender.1 = none ∧
      ∃ ikm, keyed.masterKey R = some ikm ∧ key = chunkKey R call.chunkId ikm) := by
  rcases hsecret : contactSecret call.session call.sender.1 with _ | sharedSecret
  · rw [hsecret] at h
    obtain ⟨ikm, n', hkey, -, hmaster, -⟩ := deriveChunkKey_none R call.chunkId call.urandom n
    obtain ⟨rfl, rfl⟩ := Result.ok.inj (hkey.symm.trans h)
    exact .inr ⟨rfl, ikm, hmaster, rfl⟩
  · rw [hsecret, deriveChunkKey_some (contactSecret_ne_empty hsecret)] at h
    obtain ⟨rfl, -⟩ := Result.ok.inj h
    exact .inl ⟨sharedSecret, rfl, rfl⟩

variable (R)

theorem roundTrips (hL : R.python.Documented) (htag : HasTag R.python) : RoundTrips R := by
  intro save others load n n' hsaved hsender hid hothers hdigests hunpruned httl hsecret
  rcases saveChunk_cases R save n with
    ⟨failure, _, hfailed, -⟩ | ⟨key, keyed, _, blob, hkey, hblob, hsave, hvalid, hfiles, hmaster, -⟩
  · rw [hsaved] at hfailed
    cases hfailed
  · obtain ⟨-, rfl⟩ := Result.ok.inj (hsaved.symm.trans hsave)
    have hfile : n'.files.get? (fileOf R save.sender save.chunkId) = some ⟨blob, save.mtime⟩ := by
      rw [hfiles, Dict.get?_insert, if_pos rfl]
    -- no other chunk has the file
    have hne : ∀ other ∈ others,
        fileOf R save.sender save.chunkId ≠ fileOf R other.sender other.chunkId := by
      intro other hmem hsame
      obtain ⟨hfolders, hnames⟩ := List.append_inj' hsame rfl
      have hsenders := folder_inj (hdigests.mono ?_) (List.append_cancel_left hfolders)
      · have hids := (String.append_left_inj _).mp (List.singleton_inj.mp hnames)
        exact hothers other hmem (by rw [hsenders, hids])
      · rintro a (ha | ha)
        · exact ⟨save, List.mem_cons_self, ha⟩
        · exact ⟨other, List.mem_cons_of_mem _ hmem, ha⟩
    have htarget : chunkPath R.dir load.sender.1 load.chunkId =
        .ok (fileOf R save.sender save.chunkId) := by
      rw [hsender, hid]
      exact chunkPath_sender.mpr ⟨hvalid, rfl⟩
    obtain ⟨ct, -, hmagic, -⟩ := decryptChunk_blob htag hblob
    have hthere : ∀ key ∈ n'.masterKey R, n'.masterKey R = some key := fun _ h => h
    obtain ⟨hstored, hikm⟩ := after_kept hne hunpruned hfile hthere
    rw [loadChunk_found htarget hstored (not_lt.mpr httl), if_neg (not_not.mpr hmagic)]
    rw [openBlob_saved hL htag hblob]
    · rfl
    · rw [hid]
      rcases key_of_save hkey with ⟨sharedSecret, hfound, rfl⟩ | ⟨hnone, ikm, hikm', rfl⟩
      · -- the secret is still the same
        rw [hfound] at hsecret
        rcases hsecret with hnone | hsame
        · cases hnone
        · exact .inl ⟨sharedSecret, hsame, rfl⟩
      · exact .inr ⟨ikm, hikm ikm (hmaster.trans hikm'), rfl⟩

/-- **The store of chunks** gives back what was saved, each chunk in a file of its own in the
directory of its sender. -/
theorem chunkStore_sound (hL : R.python.Documented) (htag : HasTag R.python) :
    RoundTrips R ∧ Contained R ∧ Isolated R :=
  ⟨roundTrips R hL htag, contained R, isolated R⟩

end

/-! ## A contact that is added after the upload -/

theorem hasTag_taggingLibrary : HasTag Python.taggingLibrary := by
  rintro key nonce data aad sealed ⟨⟩
  show 16 ≤ (Python.tagOf key.1 aad ++ data).length
  unfold Python.tagOf
  rw [List.length_append, List.length_append, List.length_append, key.2]
  omega

def plainRuntime : ChunkRuntime where
  dir    := ⟨["tmp", "anonymus_xftp_chunks"], fun _ => Bytes.replicate 32 0⟩
  python := Python.taggingLibrary
  hkdf   := Python.Mls.sampleHkdf
  dbKey  := "db"

def noSender : Sender := ⟨none, fun _ h => absurd h (Option.not_mem_none _)⟩

def zeroOnion : String := onionV3 (Bytes.replicate 32 0) (Bytes.replicate 2 0)

def zeroSender : Sender :=
  ⟨some zeroOnion, fun _ h => Option.some.inj h ▸ isOnionV3_onionV3 _ _⟩

def plainSave (sender : Sender) (data : List UInt8) : SaveCall where
  chunkId   := "chunk"
  data      := data
  sender    := sender
  session   := some fun _ => .ok none
  now       := 0
  deletable := fun _ => true
  urandom   := Bytes.replicate 32 0
  nonce     := Bytes.replicate 12 0
  mtime     := 0

/-- By now the sender is a contact. -/
def plainLoad : LoadCall where
  chunkId   := "chunk"
  sender    := zeroSender
  session   := some fun _ => .ok (some (some "AAAA"))
  now       := 900
  deletable := fun _ => true
  urandom   := Bytes.replicate 32 0

def emptyNode : ChunkNode := ⟨Dict.empty, none⟩

def plainSaved : ChunkNode := (saveChunk plainRuntime (plainSave zeroSender [1, 2, 3]) emptyNode).state

theorem plainSaved_eq : saveChunk plainRuntime (plainSave zeroSender [1, 2, 3]) emptyNode =
    .ok ⟨⟩ plainSaved := rfl

theorem unpruned_plainSaved : Unpruned plainRuntime (fileOf plainRuntime zeroSender "chunk")
    [plainSave noSender [4]] plainSaved := by
  unfold Unpruned
  decide +kernel

theorem chunkStore_sound_plain :
    Python.taggingLibrary.Documented ∧ HasTag Python.taggingLibrary ∧
    saveChunk plainRuntime (plainSave zeroSender [1, 2, 3]) emptyNode = .ok ⟨⟩ plainSaved ∧
    (loadChunk plainRuntime plainLoad
      (after (saveChunk plainRuntime) [plainSave noSender [4]] plainSaved)).value? =
        some (some [1, 2, 3]) := by
  refine ⟨Python.documented_taggingLibrary, hasTag_taggingLibrary, plainSaved_eq, ?_⟩
  refine (chunkStore_sound plainRuntime Python.documented_taggingLibrary hasTag_taggingLibrary).1
    (plainSave zeroSender [1, 2, 3]) [plainSave noSender [4]] plainLoad emptyNode plainSaved
    plainSaved_eq rfl rfl ?_ ?_ unpruned_plainSaved ?_ (.inl ?_)
  · intro other hother
    rw [List.mem_singleton.mp hother]
    intro hsame
    cases congrArg (fun pair => pair.1.1) hsame
  · -- there is one address only
    have hone : ∀ a, (∃ call ∈ [plainSave zeroSender [1, 2, 3], plainSave noSender [4]],
        call.sender.1 = some a) → a = zeroOnion := by
      rintro a ⟨call, hcall, ha⟩
      rcases List.mem_pair.mp hcall with rfl | rfl
      · exact (Option.some.inj ha).symm
      · cases ha
    intro a ha b hb _
    rw [hone a ha, hone b hb]
  · decide +kernel
  · decide +kernel

end AnonyMus.P2p.Chunks
