import Mathlib.Algebra.Order.Field.Rat
import Mathlib.Data.Set.Function
import Mathlib.Tactic.Linarith
import AnonyMus.Lib.Simulation
import AnonyMus.Lib.Window
import AnonyMus.P2p.ChunkPaths

/-!
# Uploads of peers, and their quota

`p2p_upload` of `transports/p2p/routers/files.py`. A request is signed with the key that its sender
address spells, is counted by the limiter, and its chunk is stored. The key is read from the first
characters of the address; the limiter and the store take the address as it is.

* `checkAndRecord`, `p2pUpload` — the limiter, and the handler;
* `senderKey`, `verify_senderKey` — the key of an address, which several addresses spell;
* `PerIdentity` — what the limit and the store mean for a key;
* `occupied_limiterAfter` — what the queues of all its addresses remember;
* `perIdentity_iff` — when the limit holds for a key, and its chunks are stored once.
-/

namespace AnonyMus.P2p.Uploads

open EStateM
open Window
open Chunks
open Python (b64decode)

/-! ## The limiter -/

/-- `_P2PUploadRateLimiter._uploads`. -/
abbrev UploadTimes := Dict String (List ℚ)

def windowSeconds : ℚ := 300

def maxUploadsPerWindow : ℕ := 50

/-- `not now - t > WINDOW_SECONDS`. -/
def Lasting (t now : ℚ) : Prop := now - t ≤ windowSeconds

instance : DecidableRel Lasting := fun t now =>
  inferInstanceAs (Decidable (now - t ≤ windowSeconds))

/-- The queue of an uploader, without what has left the window. -/
def pruned (uploader : String) (now : ℚ) (uploads : UploadTimes) : List ℚ :=
  ((uploads.get? uploader).getD []).dropWhile fun t => ¬ Lasting t now

/-- The queue has room. -/
def HasRoom (uploader : String) (now : ℚ) (uploads : UploadTimes) : Prop :=
  (pruned uploader now uploads).length < maxUploadsPerWindow

instance (uploader : String) (now : ℚ) (uploads : UploadTimes) :
    Decidable (HasRoom uploader now uploads) :=
  inferInstanceAs (Decidable (_ < _))

def checkAndRecord (uploader : String) (now : ℚ) (uploads : UploadTimes) : Bool × UploadTimes :=
  let q := pruned uploader now uploads
  if maxUploadsPerWindow ≤ q.length then (false, uploads.insert uploader q)
  else (true, uploads.insert uploader (q ++ [now]))

/-! ## The handler -/

structure UploadRequest where
  chunkId      : String
  senderOnion  : String
  timestamp    : String
  signatureB64 : String
  body         : List UInt8
  /-- The wall clock, in UTC. -/
  utcNow       : DateTime
  /-- `time.monotonic()`. -/
  now          : ℚ

section

variable (S : SignatureLibrary) (K : ChunkDir)

/-- The headers are there, and the signature verifies. -/
def authenticate (r : UploadRequest) : Except Failure Unit :=
  if r.senderOnion = "" ∨ r.timestamp = "" ∨ r.signatureB64 = "" then
    .error (.http 401 ("P2P upload requires X-Sender-Onion, X-Timestamp, and " ++
      "X-Signature headers (audit fix ANO-SEC-004)"))
  else
    verifyP2pUploadSignature S r.chunkId r.timestamp r.signatureB64 r.senderOnion r.utcNow
      maxSkewSeconds

def checkBody (r : UploadRequest) : Except Failure Unit :=
  if r.body = [] then .error (.http 400 "Empty request body")
  else if 10 * 1024 * 1024 < r.body.length then .error (.http 413 "Chunk size too large")
  else .ok ⟨⟩

/-- `p2p_upload`. It returns the file that `_save_chunk` writes. -/
def p2pUpload (r : UploadRequest) : EStateM Failure UploadTimes PosixPath := do
  ofExcept (authenticate S r)
  let passes ← modifyGet (checkAndRecord r.senderOnion r.now)
  if passes = false then
    throw (.http 429 "Per-uploader rate limit exceeded; try again later")
  ofExcept (checkBody r)
  ofExcept (chunkPath K (some r.senderOnion) r.chunkId)

/-- The limiter after the requests, from the start of the node. -/
def limiterAfter (requests : List UploadRequest) : UploadTimes :=
  after (p2pUpload S K) requests Dict.empty

/-! ## Keys -/

/-- The Ed25519 key that an address spells: what follows the key in it is not looked at. -/
def senderKey (senderOnion : String) : Option (List UInt8) :=
  let pubkeyB32 := senderOnion.toList.take 56
  (b32decode (pubkeyB32 ++ List.replicate ((8 - pubkeyB32.length % 8) % 8) '=')).map (·.take 32)

/-- The request passes the verification under the key. -/
def PassesUnder (key : List UInt8) (r : UploadRequest) : Prop :=
  authenticate S r = .ok ⟨⟩ ∧ senderKey r.senderOnion = some key

instance (key : List UInt8) (r : UploadRequest) : Decidable (PassesUnder S key r) :=
  decidable_of_iff ((authenticate S r).toOption = some ⟨⟩ ∧ senderKey r.senderOnion = some key) (by
    unfold PassesUnder
    cases authenticate S r <;> simp [Except.toOption])

/-- When a request of the key passes the limiter. -/
def passedAt (key : List UInt8) (r : UploadRequest) (uploads : UploadTimes) : Option ℚ :=
  if PassesUnder S key r ∧ HasRoom r.senderOnion r.now uploads then some r.now else none

/-- The times at which requests of the key pass the limiter. -/
def admitted (key : List UInt8) (requests : List UploadRequest) : List ℚ :=
  outputs (p2pUpload S K) (passedAt S key) requests Dict.empty

/-- What the limit and the store are to mean for a key. -/
structure PerIdentity (key : List UInt8) (requests : List UploadRequest) : Prop where
  quota : ∀ w, within Lasting w (admitted S K key requests) ≤ maxUploadsPerWindow
  file  : ∀ done r mid r' todo, requests = done ++ r :: (mid ++ r' :: todo) →
    PassesUnder S key r → PassesUnder S key r' → r.chunkId = r'.chunkId →
      ∀ path ∈ (p2pUpload S K r (limiterAfter S K done)).value?,
        ∀ path' ∈ (p2pUpload S K r' (limiterAfter S K (done ++ r :: mid))).value?, path = path'

/-- The timestamps that the limiter has of the last 300 seconds under all addresses of the key. -/
def occupied (key : List UInt8) (now : ℚ) (uploads : UploadTimes) : ℕ :=
  uploads.weigh fun sender q => if senderKey sender = some key then recent Lasting now q else 0

/-- The request gets as far as the store. -/
def Stores (key : List UInt8) (r : UploadRequest) (uploads : UploadTimes) : Prop :=
  PassesUnder S key r ∧ HasRoom r.senderOnion r.now uploads ∧ checkBody r = .ok ⟨⟩ ∧
    isChunkId r.chunkId = true

/-- Whenever the queue of its own address has room for a request of the key, the queues of all its
addresses have room together; and requests that store a chunk of one identifier come from one
address. -/
structure Separate (key : List UInt8) (requests : List UploadRequest) : Prop where
  room    : ∀ done r todo, requests = done ++ r :: todo → PassesUnder S key r →
    HasRoom r.senderOnion r.now (limiterAfter S K done) →
      occupied key r.now (limiterAfter S K done) < maxUploadsPerWindow
  address : ∀ done r mid r' todo, requests = done ++ r :: (mid ++ r' :: todo) →
    Stores S key r (limiterAfter S K done) →
      Stores S key r' (limiterAfter S K (done ++ r :: mid)) → r.chunkId = r'.chunkId →
        r.senderOnion = r'.senderOnion

/-- The requests come one after another. -/
def InTime (requests : List UploadRequest) : Prop :=
  requests.Pairwise fun r later => r.now ≤ later.now

end

/-! ## What a request can do -/

section

variable {S : SignatureLibrary} {K : ChunkDir} {key : List UInt8} {requests done : List UploadRequest}
  {r : UploadRequest} {uploads : UploadTimes} {now later : ℚ} {uploader : String}

/-- What is verified is signed under the key that the address spells. -/
theorem verify_senderKey {chunkId timestamp signatureB64 senderOnion : String} {utcNow : DateTime}
    {skew : ℕ} (h : verifyP2pUploadSignature S chunkId timestamp signatureB64 senderOnion utcNow
      skew = .ok ⟨⟩) :
    ∃ key signature, senderKey senderOnion = some key ∧
      b64decode (.text signatureB64.toList) = .ok signature ∧
      S.verify key signature (chunkId ++ "|" ++ timestamp).toUTF8.toList = true := by
  unfold verifyP2pUploadSignature at h
  split at h
  · cases h
  · unfold verifySigned at h
    dsimp only at h
    rw [String.toList_ofList, List.take_take] at h
    split at h
    · cases h
    · rename_i pubkeyBytes hdecode
      have hkey : senderKey senderOnion = some (pubkeyBytes.take 32) := by
        unfold senderKey
        dsimp only
        rw [show (56 : ℕ) = min 56 62 by decide, hdecode]
        rfl
      -- the checks of the key's length, the timestamp and the signature
      split_ifs at h
      split at h
      · cases h
      · split at h
        · cases h
        · split_ifs at h
          split at h
          · cases h
          · rename_i signature hsignature
            split_ifs at h with hverify
            exact ⟨_, signature, hkey, hsignature, hverify⟩

theorem checkAndRecord_fst :
    (checkAndRecord uploader now uploads).1 = decide (HasRoom uploader now uploads) := by
  unfold checkAndRecord HasRoom
  dsimp only
  split_ifs with hfull
  · exact (decide_eq_false (not_lt.mpr hfull)).symm
  · exact (decide_eq_true (not_le.mp hfull)).symm

theorem closing_lasting : Closing Lasting := by
  intro w w' t t' hw ht h
  unfold Lasting at h ⊢
  linarith

theorem lasting_self (t : ℚ) : Lasting t t := by
  unfold Lasting windowSeconds
  norm_num

/-- The limiter counts a request that it lets through, and forgets what is not recent. -/
theorem checkAndRecord_snd : ∃ q, (checkAndRecord uploader now uploads).2 = uploads.insert uploader q ∧
    ∀ later, now ≤ later → recent Lasting later q =
      recent Lasting later ((uploads.get? uploader).getD []) +
        if HasRoom uploader now uploads then recent Lasting later [now] else 0 := by
  unfold checkAndRecord
  dsimp only
  split_ifs with hfull hroom hroom
  · exact absurd hroom (not_lt.mpr hfull)
  · exact ⟨_, rfl, fun later hlater => recent_dropWhile closing_lasting hlater⟩
  · refine ⟨_, rfl, fun later hlater => ?_⟩
    rw [recent_append, pruned, recent_dropWhile closing_lasting hlater]
  · exact absurd (not_le.mp hfull) hroom

/-- The handler after the signature. -/
theorem p2pUpload_apply (hsigned : authenticate S r = .ok ⟨⟩) :
    p2pUpload S K r uploads = (do
      if (checkAndRecord r.senderOnion r.now uploads).1 = false then
        throw (.http 429 "Per-uploader rate limit exceeded; try again later")
      ofExcept (checkBody r)
      ofExcept (chunkPath K (some r.senderOnion) r.chunkId) : EStateM Failure UploadTimes PosixPath)
        (checkAndRecord r.senderOnion r.now uploads).2 := by
  unfold p2pUpload
  rw [hsigned]
  rfl

/-- A request that does not verify does not reach the limiter. -/
theorem p2pUpload_state : (p2pUpload S K r uploads).state =
    if authenticate S r = .ok ⟨⟩ then (checkAndRecord r.senderOnion r.now uploads).2
    else uploads := by
  split_ifs with hsigned
  · rw [p2pUpload_apply hsigned]
    -- what follows the limiter does not change it
    have hkeeps : Keeps id (do
        if (checkAndRecord r.senderOnion r.now uploads).1 = false then
          throw (.http 429 "Per-uploader rate limit exceeded; try again later")
        ofExcept (checkBody r)
        ofExcept (chunkPath K (some r.senderOnion) r.chunkId) :
          EStateM Failure UploadTimes PosixPath) :=
      Keeps.ite (Keeps.throw _) (Keeps.bind (Keeps.ofExcept _) fun _ => Keeps.ofExcept _)
    exact hkeeps _
  · unfold p2pUpload
    rw [apply_bind, apply_ofExcept]
    rcases hfailed : authenticate S r with failure | ⟨⟨⟩⟩
    · rfl
    · exact absurd hfailed hsigned

/-- A request that stores its chunk has passed the limiter. -/
theorem p2pUpload_value {path : PosixPath} :
    (p2pUpload S K r uploads).value? = some path ↔
      authenticate S r = .ok ⟨⟩ ∧ HasRoom r.senderOnion r.now uploads ∧ checkBody r = .ok ⟨⟩ ∧
        chunkPath K (some r.senderOnion) r.chunkId = .ok path := by
  rcases hsigned : authenticate S r with failure | ⟨⟨⟩⟩
  · unfold p2pUpload
    rw [hsigned]
    exact iff_of_false (by rintro ⟨⟩) (by rintro ⟨⟨⟩, -⟩)
  · rw [p2pUpload_apply hsigned, checkAndRecord_fst]
    by_cases hroom : HasRoom r.senderOnion r.now uploads
    · rw [if_neg (by simpa using hroom)]
      show ((ofExcept (checkBody r) >>= fun _ => ofExcept (chunkPath K (some r.senderOnion) r.chunkId) :
        EStateM Failure UploadTimes PosixPath)
          (checkAndRecord r.senderOnion r.now uploads).2).value? = _ ↔ _
      rw [apply_bind, apply_ofExcept]
      rcases hbody : checkBody r with failure | ⟨⟨⟩⟩
      · exact iff_of_false (by rintro ⟨⟩) (by rintro ⟨-, -, ⟨⟩, -⟩)
      · dsimp only
        rw [apply_ofExcept]
        rcases chunkPath K (some r.senderOnion) r.chunkId with failure | path'
        · exact iff_of_false (by rintro ⟨⟩) (by rintro ⟨-, -, -, ⟨⟩⟩)
        · show some path' = some path ↔ _
          simp [hroom]
    · rw [if_pos (by simpa using hroom)]
      exact iff_of_false (by rintro ⟨⟩) (fun h => hroom h.2.1)

/-! ## What the queues remember -/

theorem limiterAfter_concat : limiterAfter S K (done ++ [r]) =
    if authenticate S r = .ok ⟨⟩ then
      (checkAndRecord r.senderOnion r.now (limiterAfter S K done)).2
    else limiterAfter S K done := by
  rw [limiterAfter, after_append, ← p2pUpload_state (K := K)]
  rfl

theorem admitted_concat : admitted S K key (done ++ [r]) =
    admitted S K key done ++ (passedAt S key r (limiterAfter S K done)).toList := by
  rw [admitted, outputs_append, outputs, outputs, List.append_nil]
  rfl

/-- A queue is replaced: what it remembers for its key changes, and nothing else. -/
theorem occupied_insert (key : List UInt8) (q : List ℚ) :
    occupied key later (uploads.insert uploader q) +
        (if senderKey uploader = some key then
          recent Lasting later ((uploads.get? uploader).getD []) else 0) =
      occupied key later uploads +
        if senderKey uploader = some key then recent Lasting later q else 0 := by
  have hweigh := Dict.weigh_insert (fun sender q =>
    if senderKey sender = some key then recent Lasting later q else 0) uploads uploader q
  unfold occupied
  rcases huploader : uploads.get? uploader with _ | old
  · rw [huploader] at hweigh
    -- an address without a queue has nothing to forget
    simpa [recent] using hweigh
  · rw [huploader] at hweigh
    exact hweigh

/-- **All queues of a key together** remember what the limiter has let through for it. -/
theorem occupied_limiterAfter (hlater : ∀ r ∈ requests, r.now ≤ later) :
    occupied key later (limiterAfter S K requests) =
      recent Lasting later (admitted S K key requests) := by
  -- over the requests from the last
  induction requests using List.reverseRecOn with
  | nil => rfl
  | append_singleton done r ih =>
    have hnow : r.now ≤ later := hlater r (List.mem_append_right _ List.mem_cons_self)
    have ih := ih fun r' hr' => hlater r' (List.mem_append_left _ hr')
    rw [limiterAfter_concat, admitted_concat, recent_append]
    by_cases hsigned : authenticate S r = .ok ⟨⟩
    · obtain ⟨q, hq, hrecent⟩ := @checkAndRecord_snd (limiterAfter S K done) r.now r.senderOnion
      have hinsert := @occupied_insert (limiterAfter S K done) later r.senderOnion key q
      rw [if_pos hsigned, hq]
      by_cases hkey : senderKey r.senderOnion = some key
      · rw [if_pos hkey, if_pos hkey, hrecent later hnow] at hinsert
        unfold passedAt PassesUnder
        by_cases hroom : HasRoom r.senderOnion r.now (limiterAfter S K done)
        · rw [if_pos hroom] at hinsert
          rw [if_pos ⟨⟨hsigned, hkey⟩, hroom⟩, Option.toList_some]
          omega
        · rw [if_neg hroom] at hinsert
          rw [if_neg (fun h => hroom h.2), Option.toList_none]
          show _ = _ + 0
          omega
      · -- the address spells another key
        rw [if_neg hkey, if_neg hkey] at hinsert
        unfold passedAt PassesUnder
        rw [if_neg (fun h => hkey h.1.2), Option.toList_none]
        show _ = _ + 0
        omega
    · unfold passedAt PassesUnder
      rw [if_neg hsigned, if_neg (fun h => hsigned h.1.1), ih]
      rfl

theorem admitted_sublist (key : List UInt8) (requests : List UploadRequest) :
    (admitted S K key requests).Sublist (requests.map UploadRequest.now) := by
  induction requests using List.reverseRecOn with
  | nil => exact .slnil
  | append_singleton done r ih =>
    rw [admitted_concat, List.map_append]
    refine ih.append ?_
    unfold passedAt
    split_ifs
    · exact .refl _
    · exact List.nil_sublist _

theorem InTime.before {todo : List UploadRequest} (h : InTime (done ++ r :: todo)) :
    ∀ r' ∈ done, r'.now ≤ r.now :=
  fun r' hr' => (List.pairwise_append.mp h).2.2 r' hr' r List.mem_cons_self

/-- The limit, request by request. -/
theorem quota_iff (htime : InTime requests) :
    (∀ w, within Lasting w (admitted S K key requests) ≤ maxUploadsPerWindow) ↔
      ∀ done r todo, requests = done ++ r :: todo → PassesUnder S key r →
        HasRoom r.senderOnion r.now (limiterAfter S K done) →
          occupied key r.now (limiterAfter S K done) < maxUploadsPerWindow := by
  have hsorted : (admitted S K key requests).Pairwise (· ≤ ·) :=
    (List.pairwise_map.mpr htime).sublist (admitted_sublist key requests)
  rw [within_le_iff closing_lasting lasting_self hsorted]
  refine EStateM.forall_outputs_iff.trans ⟨?_, ?_⟩
  · rintro h done r todo rfl hkey hroom
    rw [occupied_limiterAfter htime.before]
    exact h done r todo rfl _ (if_pos ⟨hkey, hroom⟩)
  · rintro h done r todo rfl t ht
    obtain ⟨⟨hkey, hroom⟩, hnow⟩ := Option.ite_none_right_eq_some.mp ht
    have hfree := h done r todo rfl hkey hroom
    rw [occupied_limiterAfter htime.before] at hfree
    rw [← Option.some.inj hnow]
    exact hfree

/-! ## When a key is one identity -/

/-- What verifies has the address of a node for a sender. -/
theorem validSender_of_authenticate (hsigned : authenticate S r = .ok ⟨⟩) :
    r.senderOnion ≠ "" ∧ ValidSender (some r.senderOnion) := by
  unfold authenticate at hsigned
  split_ifs at hsigned with hmissing
  refine ⟨fun hempty => hmissing (.inl hempty), ?_⟩
  unfold verifyP2pUploadSignature at hsigned
  split at hsigned
  · cases hsigned
  · rename_i rest hmatch
    intro s hs
    obtain ⟨hs, -⟩ := Option.filter_eq_some_iff.mp hs
    obtain rfl := Option.some.inj hs
    unfold isOnionV3
    rw [hmatch]
    rfl

/-- What gets as far as the store is stored in the directory of the address. -/
theorem stores_iff : Stores S key r uploads ↔ PassesUnder S key r ∧
    (p2pUpload S K r uploads).value? =
      some (K.xftpChunkDir.resolve ++ [dirName K r.senderOnion] ++ [r.chunkId ++ ".chunk"]) := by
  unfold Stores
  refine and_congr_right fun hkey => ?_
  obtain ⟨hempty, hvalid⟩ := validSender_of_authenticate hkey.1
  have hfolder : folder K (some r.senderOnion) = [dirName K r.senderOnion] := by
    unfold folder
    rw [Option.filter_some, if_pos (decide_eq_true hempty)]
    rfl
  rw [p2pUpload_value, chunkPath_eq_ok_iff, hfolder]
  simp [hkey.1, hvalid]

/-- A chunk is stored nowhere else. -/
theorem stores_of_value {path : PosixPath} (hkey : PassesUnder S key r)
    (h : (p2pUpload S K r uploads).value? = some path) : Stores S key r uploads := by
  obtain ⟨-, hroom, hbody, hpath⟩ := p2pUpload_value.mp h
  exact ⟨hkey, hroom, hbody, (chunkPath_eq_ok_iff.mp hpath).2.1⟩

variable (S K)

/-- **The quota is per identity** exactly when the addresses of the key keep together to what each
of them is allowed, and store no chunk twice. -/
theorem perIdentity_iff (key : List UInt8) {requests : List UploadRequest} (htime : InTime requests)
    (hdigests : Set.InjOn (dirName K) {s | ∃ r ∈ requests, r.senderOnion = s}) :
    PerIdentity S K key requests ↔ Separate S K key requests := by
  constructor
  · rintro ⟨hquota, hfile⟩
    refine ⟨(quota_iff htime).mp hquota, ?_⟩
    rintro done r mid r' todo rfl hstores hstores' hid
    obtain ⟨hkey, hvalue⟩ := (stores_iff (K := K)).mp hstores
    obtain ⟨hkey', hvalue'⟩ := (stores_iff (K := K)).mp hstores'
    have hpath := hfile done r mid r' todo rfl hkey hkey' hid _ hvalue _ hvalue'
    -- one path is in one directory
    obtain ⟨hfolder, -⟩ := List.append_inj' hpath rfl
    have hname := List.singleton_inj.mp (List.append_cancel_left hfolder)
    exact hdigests ⟨r, by simp, rfl⟩ ⟨r', by simp, rfl⟩ hname
  · rintro ⟨hroom, haddress⟩
    refine ⟨(quota_iff htime).mpr hroom, ?_⟩
    rintro done r mid r' todo rfl hkey hkey' hid path hvalue path' hvalue'
    have hstores := stores_of_value hkey hvalue
    have hstores' := stores_of_value hkey' hvalue'
    have hsame := haddress done r mid r' todo rfl hstores hstores' hid
    rw [(stores_iff.mp hstores).2] at hvalue
    rw [(stores_iff.mp hstores').2, ← hsame, ← hid] at hvalue'
    exact (Option.some.inj hvalue).symm.trans (Option.some.inj hvalue')

end

/-! ## Two addresses of a key -/

/-- Digests that tell the length of what they are taken of. -/
def lengthDir : ChunkDir where
  xftpChunkDir := ["tmp", "anonymus_xftp_chunks"]
  sha256 l     := Bytes.replicate 32 (UInt8.ofNat l.length)

/-- Signatures that are the beginning of the key. -/
def shortSignatures : SignatureLibrary :=
  { plainSignatures with verify := fun key signature _ => signature == key.take 3 }

def twosOnion : String := String.ofList (List.replicate 56 '2') ++ ".onion"

def twosKey : List UInt8 :=
  (List.replicate 6 [0xd6, 0xb5, 0xad, 0x6b, 0x5a]).flatten ++ [0xd6, 0xb5]

/-- A chunk signed with the key, under one of its addresses. -/
def twosRequest (senderOnion : String) : UploadRequest where
  chunkId      := "chunk"
  senderOnion  := senderOnion
  timestamp    := "2023-11-15T09:30:05Z"
  signatureB64 := "1rWt"
  body         := [1]
  utcNow       := aMoment
  now          := 0

/-- Fifty chunks under one address, and one more under the same address with a port. -/
def twosRequests : List UploadRequest :=
  List.replicate 50 (twosRequest twosOnion) ++ [twosRequest (twosOnion ++ ":1")]

theorem inTime_twosRequests : InTime twosRequests := by
  refine List.pairwise_of_forall_mem_list fun r hr later hlater => ?_
  have hnow : ∀ r ∈ twosRequests, r.now = 0 := by
    intro r hr
    rcases List.mem_append.mp hr with hr | hr
    · rw [List.eq_of_mem_replicate hr]
      rfl
    · rw [List.mem_singleton.mp hr]
      rfl
  rw [hnow r hr, hnow later hlater]

theorem injOn_twosRequests :
    Set.InjOn (dirName lengthDir) {s | ∃ r ∈ twosRequests, r.senderOnion = s} := by
  have hsender : ∀ s, (∃ r ∈ twosRequests, r.senderOnion = s) →
      s = twosOnion ∨ s = twosOnion ++ ":1" := by
    rintro s ⟨r, hr, rfl⟩
    rcases List.mem_append.mp hr with hr | hr
    · exact .inl (congrArg UploadRequest.senderOnion (List.eq_of_mem_replicate hr))
    · exact .inr (congrArg UploadRequest.senderOnion (List.mem_singleton.mp hr))
  have hother : dirName lengthDir twosOnion ≠ dirName lengthDir (twosOnion ++ ":1") := by
    decide +kernel
  intro s hs s' hs' hname
  rcases hsender s hs with rfl | rfl <;> rcases hsender s' hs' with rfl | rfl
  · rfl
  · exact absurd hname hother
  · exact absurd hname.symm hother
  · rfl

theorem perIdentity_twosRequests :
    InTime twosRequests ∧
    Set.InjOn (dirName lengthDir) {s | ∃ r ∈ twosRequests, r.senderOnion = s} ∧
    (PerIdentity shortSignatures lengthDir twosKey twosRequests ↔
      Separate shortSignatures lengthDir twosKey twosRequests) :=
  ⟨inTime_twosRequests, injOn_twosRequests,
    perIdentity_iff shortSignatures lengthDir twosKey inTime_twosRequests injOn_twosRequests⟩

/-- With a second address, 51 uploads of a key pass in one moment. -/
theorem not_perIdentity_twosRequests :
    InTime twosRequests ∧ ¬ PerIdentity shortSignatures lengthDir twosKey twosRequests := by
  have hmany : within Lasting 0 (admitted shortSignatures lengthDir twosKey twosRequests) = 51 := by
    decide +kernel
  refine ⟨inTime_twosRequests, fun h => ?_⟩
  have hquota := h.quota 0
  rw [hmany] at hquota
  exact absurd hquota (by decide)

end AnonyMus.P2p.Uploads
