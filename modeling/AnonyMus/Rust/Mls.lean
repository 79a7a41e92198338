import AnonyMus.Lib.HashChain
import AnonyMus.Lib.Simulation
import AnonyMus.Lib.Utf8
import AnonyMus.Rust.Crypto

/-!
# Rust core — the group session

`core/rust/src/protocol/mls.rs` over `crypto/aead.rs`. A group derives one secret per epoch from the
last one and a path secret, and one key per epoch and sender. HKDF and AES-256-GCM come from
third-party crates and are parameters; the nonce that the system's generator returns is an argument.

* `Aead.encrypt`, `Aead.decrypt` — `crypto/aead.rs`;
* `MlsGroup`, `advanceEpoch`, `deriveSenderKey`, `encryptMessage`, `decryptMessage` — the session;
* `replica_eq` — the epoch secrets are a hash chain;
* `senderInfo_injective` — the info of a sender key tells the sender and the epoch, though the name
  has no frame;
* `senderKey_eq_iff` — a sender key tells the path secrets and the sender;
* `key_separation` — over all pairs of histories and senders.
-/

namespace AnonyMus.Rust

/-! ## AES-256-GCM -/

/-- The cipher of the crate; its errors as text. -/
structure Aes256Gcm where
  encrypt : Bytes 32 → Bytes 12 → List UInt8 → Except String (List UInt8)
  decrypt : Bytes 32 → Bytes 12 → List UInt8 → Except String (List UInt8)

namespace Aead

def nonceLen : ℕ := 12

def tagLen : ℕ := 16

/-- Returns `nonce || ciphertext || tag`. -/
def encrypt (cipher : Aes256Gcm) (nonce : Bytes 12) (key : Bytes 32) (plaintext : List UInt8) :
    Except AnonymusError (List UInt8) :=
  match cipher.encrypt key nonce plaintext with
  | .ok ciphertext => .ok (nonce.1 ++ ciphertext)
  | .error e => .error (.encrypt e)

/-- Decrypt a blob produced by `encrypt`. -/
def decrypt (cipher : Aes256Gcm) (key : Bytes 32) (blob : List UInt8) :
    Except AnonymusError (List UInt8) :=
  if h : blob.length < nonceLen + tagLen then .error (.decrypt "ciphertext too short")
  else
    let nonce : Bytes 12 := ⟨blob.take nonceLen, by
      rw [List.length_take]
      unfold nonceLen tagLen at *
      omega⟩
    match cipher.decrypt key nonce (blob.drop nonceLen) with
    | .ok plaintext => .ok plaintext
    | .error e => .error (.decrypt e)

/-- An ideal cipher on these keys: what was encrypted opens under its key, and under no other. -/
structure Ideal (cipher : Aes256Gcm) (keys : Set (Bytes 32)) : Prop where
  opens   : ∀ key ∈ keys, ∀ nonce plaintext ciphertext,
    cipher.encrypt key nonce plaintext = .ok ciphertext →
      tagLen ≤ ciphertext.length ∧ cipher.decrypt key nonce ciphertext = .ok plaintext
  rejects : ∀ key ∈ keys, ∀ key' ∈ keys, key' ≠ key → ∀ nonce plaintext ciphertext,
    cipher.encrypt key nonce plaintext = .ok ciphertext →
      ∃ e, cipher.decrypt key' nonce ciphertext = .error e

variable {cipher : Aes256Gcm} {keys : Set (Bytes 32)} {key key' : Bytes 32} {nonce : Bytes 12}
  {plaintext blob : List UInt8}

/-- A blob is its nonce and what the cipher made. -/
theorem decrypt_of_encrypt (hideal : Ideal cipher keys) (hkey : key ∈ keys)
    (h : encrypt cipher nonce key plaintext = .ok blob) :
    ∃ ciphertext, cipher.encrypt key nonce plaintext = .ok ciphertext ∧
      ∀ key', decrypt cipher key' blob = match cipher.decrypt key' nonce ciphertext with
        | .ok plaintext => .ok plaintext
        | .error e => .error (.decrypt e) := by
  rw [encrypt] at h
  rcases hct : cipher.encrypt key nonce plaintext with e | ciphertext
  · rw [hct] at h
    cases h
  · rw [hct] at h
    obtain rfl := Except.ok.inj h
    refine ⟨ciphertext, rfl, fun key' => ?_⟩
    have htag := (hideal.opens key hkey nonce plaintext ciphertext hct).1
    have hlength : (nonce.1 ++ ciphertext).length = 12 + ciphertext.length := by
      rw [List.length_append, nonce.2]
    have htake : (nonce.1 ++ ciphertext).take nonceLen = nonce.1 := List.take_left' nonce.2
    have hdrop : (nonce.1 ++ ciphertext).drop nonceLen = ciphertext := List.drop_left' nonce.2
    rw [decrypt, dif_neg (by rw [hlength]; unfold nonceLen; omega)]
    simp only [htake, hdrop]

theorem decrypt_same (hideal : Ideal cipher keys) (hkey : key ∈ keys)
    (h : encrypt cipher nonce key plaintext = .ok blob) :
    decrypt cipher key blob = .ok plaintext := by
  obtain ⟨ciphertext, hct, hdecrypt⟩ := decrypt_of_encrypt hideal hkey h
  rw [hdecrypt, (hideal.opens key hkey nonce plaintext ciphertext hct).2]

theorem decrypt_other (hideal : Ideal cipher keys) (hkey : key ∈ keys) (hkey' : key' ∈ keys)
    (hne : key' ≠ key) (h : encrypt cipher nonce key plaintext = .ok blob) :
    ∃ e, decrypt cipher key' blob = .error e := by
  obtain ⟨ciphertext, hct, hdecrypt⟩ := decrypt_of_encrypt hideal hkey h
  obtain ⟨e, he⟩ := hideal.rejects key hkey key' hkey' hne nonce plaintext ciphertext hct
  exact ⟨.decrypt e, by rw [hdecrypt, he]⟩

end Aead

namespace Mls

/-! ## The session -/

structure MlsGroup where
  groupId         : List UInt8
  epoch           : UInt64
  epochSecret     : Bytes 32
  memberUsernames : List String
deriving DecidableEq

def epochInfo (groupId : List UInt8) (epoch : UInt64) : List UInt8 :=
  "MLSEpochSecret".toUTF8.toList ++ groupId ++ be64 epoch

def senderInfo (senderUsername : String) (epoch : UInt64) : List UInt8 :=
  "MLSSenderKey".toUTF8.toList ++ senderUsername.toUTF8.toList ++ be64 epoch

section

variable (hk : Hkdf) (cipher : Aes256Gcm)

def MlsGroup.new (groupId : List UInt8) (initialSecret : Bytes 32) (members : List String) :
    MlsGroup where
  groupId := groupId
  epoch := 0
  epochSecret := initialSecret
  memberUsernames := members

/-- The epoch is a `u64` and wraps, as in a release build. -/
def advanceEpoch (pathSecret : Bytes 32) : EStateM AnonymusError MlsGroup Unit := do
  modify fun g => { g with epoch := g.epoch + 1 }
  let g ← get
  -- Use previous_epoch_secret as salt, path_secret as IKM
  let nextEpochSecret ← ofExcept
    (derive32 hk pathSecret.1 (some g.epochSecret.1) (epochInfo g.groupId g.epoch))
  modify fun g => { g with epochSecret := nextEpochSecret }

def deriveSenderKey (g : MlsGroup) (senderUsername : String) : Except AnonymusError (Bytes 32) :=
  derive32 hk g.epochSecret.1 none (senderInfo senderUsername g.epoch)

def notMember : AnonymusError := .internal "sender is not a member of this group"

def encryptMessage (g : MlsGroup) (nonce : Bytes 12) (senderUsername : String)
    (plaintext : List UInt8) : Except AnonymusError (List UInt8) := do
  if senderUsername ∉ g.memberUsernames then throw notMember
  let senderKey ← deriveSenderKey hk g senderUsername
  Aead.encrypt cipher nonce senderKey plaintext

def decryptMessage (g : MlsGroup) (senderUsername : String) (ciphertext : List UInt8) :
    Except AnonymusError (List UInt8) := do
  if senderUsername ∉ g.memberUsernames then throw notMember
  let senderKey ← deriveSenderKey hk g senderUsername
  Aead.decrypt cipher senderKey ciphertext

end

/-! ## Keys -/

/-- What HKDF is applied to. -/
structure KdfInput where
  salt : Option (List UInt8)
  ikm  : List UInt8
  info : List UInt8
deriving DecidableEq

section

variable (hk : Hkdf) (groupId : List UInt8) (initialSecret : Bytes 32) (members : List String)

def kdf32 (input : KdfInput) : Bytes 32 := hk input.ikm input.salt input.info 32

/-- The input of the secret of epoch `n`. -/
def epochInput (n : ℕ) (epochSecret pathSecret : Bytes 32) : KdfInput where
  salt := some epochSecret.1
  ikm := pathSecret.1
  info := epochInfo groupId (UInt64.ofNat n)

def senderInput (epochSecret : Bytes 32) (n : ℕ) (senderUsername : String) : KdfInput where
  salt := none
  ikm := epochSecret.1
  info := senderInfo senderUsername (UInt64.ofNat n)

/-- The epoch secret after the path secrets. -/
def secretAfter (paths : List (Bytes 32)) : Bytes 32 :=
  HashChain.value (kdf32 hk) (epochInput groupId) initialSecret paths.reverse

def senderKey (paths : List (Bytes 32)) (senderUsername : String) : Bytes 32 :=
  kdf32 hk (senderInput (secretAfter hk groupId initialSecret paths) paths.length senderUsername)

/-- What a replica derives up to the sender key after these path secrets. -/
def usedInputs (paths : List (Bytes 32)) (senderUsername : String) : Set KdfInput :=
  insert (senderInput (secretAfter hk groupId initialSecret paths) paths.length senderUsername)
    (HashChain.inputs (kdf32 hk) (epochInput groupId) initialSecret paths.reverse)

/-- A replica that has been advanced with the path secrets. -/
def replica (paths : List (Bytes 32)) : MlsGroup :=
  EStateM.after (advanceEpoch hk) paths (.new groupId initialSecret members)

theorem advanceEpoch_eq (pathSecret : Bytes 32) (g : MlsGroup) :
    advanceEpoch hk pathSecret g = .ok () { g with
      epoch := g.epoch + 1
      epochSecret := kdf32 hk ⟨some g.epochSecret.1, pathSecret.1,
        epochInfo g.groupId (g.epoch + 1)⟩ } := rfl

theorem secretAfter_append (paths : List (Bytes 32)) (p : Bytes 32) :
    secretAfter hk groupId initialSecret (paths ++ [p]) =
      kdf32 hk (epochInput groupId (paths.length + 1) (secretAfter hk groupId initialSecret paths)
        p) := by
  rw [secretAfter, List.reverse_append, List.reverse_singleton, List.singleton_append,
    HashChain.value, List.length_reverse, secretAfter]

/-- The epochs count the path secrets, and their secrets are a hash chain. -/
theorem replica_eq (paths : List (Bytes 32)) :
    replica hk groupId initialSecret members paths =
      ⟨groupId, UInt64.ofNat paths.length, secretAfter hk groupId initialSecret paths, members⟩ := by
  induction paths using List.reverseRecOn with
  | nil => rfl
  | append_singleton paths p ih =>
    have hepoch : UInt64.ofNat (paths ++ [p]).length = UInt64.ofNat paths.length + 1 := by
      rw [List.length_append, List.length_singleton, UInt64.ofNat_add]
      rfl
    rw [replica] at ih
    rw [replica, EStateM.after_append, ih, EStateM.after_cons, EStateM.after_nil, advanceEpoch_eq,
      EStateM.Result.state_ok, secretAfter_append, hepoch, epochInput, UInt64.ofNat_add]
    rfl

theorem deriveSenderKey_replica (paths : List (Bytes 32)) (senderUsername : String) :
    deriveSenderKey hk (replica hk groupId initialSecret members paths) senderUsername =
      .ok (senderKey hk groupId initialSecret paths senderUsername) := by
  rw [replica_eq]
  rfl

end

/-! ## Key separation -/

/-- The epoch takes the last eight bytes, so what is before it is the name. -/
theorem senderInfo_injective {u v : String} {e e' : UInt64} (h : senderInfo u e = senderInfo v e') :
    u = v ∧ e = e' := by
  obtain ⟨hfront, hepoch⟩ := List.append_inj' h rfl
  exact ⟨Utf8.toUTF8_injective (List.append_cancel_left hfront), be64_injective hepoch⟩

variable {hk : Hkdf} {cipher : Aes256Gcm} {groupId : List UInt8} {initialSecret : Bytes 32}
  {members : List String} {ps qs : List (Bytes 32)} {u v : String}

/-- A sender key tells the path secrets and the sender. -/
theorem senderKey_eq_iff (hps : ps.length < 2 ^ 64) (hqs : qs.length < 2 ^ 64)
    (hinj : Set.InjOn (kdf32 hk)
      (usedInputs hk groupId initialSecret ps u ∪ usedInputs hk groupId initialSecret qs v)) :
    senderKey hk groupId initialSecret ps u = senderKey hk groupId initialSecret qs v ↔
      ps = qs ∧ u = v := by
  constructor
  · intro h
    have hinput := hinj (.inl (.inl rfl)) (.inr (.inl rfl)) h
    obtain ⟨-, hsecret, hinfo⟩ := KdfInput.mk.inj hinput
    obtain ⟨huser, hepoch⟩ := senderInfo_injective hinfo
    -- the histories are as long as each other, for no epoch has wrapped
    have hlength : ps.length = qs.length := by
      have hnat := congrArg UInt64.toNat hepoch
      rwa [UInt64.toNat_ofNat_of_lt' hps, UInt64.toNat_ofNat_of_lt' hqs] at hnat
    have hvalue : HashChain.value (kdf32 hk) (epochInput groupId) initialSecret ps.reverse =
        HashChain.value (kdf32 hk) (epochInput groupId) initialSecret qs.reverse :=
      Subtype.ext hsecret
    have hchains : ps.reverse = qs.reverse := by
      refine HashChain.items_eq_of_value_eq ?_ (hinj.mono ?_) (by simpa using hlength) hvalue
      · intro n s p s' p' hsame
        obtain ⟨hsalt, hikm, -⟩ := KdfInput.mk.inj hsame
        exact ⟨Subtype.ext (Option.some.inj hsalt), Subtype.ext hikm⟩
      · exact Set.union_subset_union (Set.subset_insert _ _) (Set.subset_insert _ _)
    exact ⟨List.reverse_injective hchains, huser⟩
  · rintro ⟨rfl, rfl⟩
    rfl

/-- Both methods ask for a member, and go on with the member's key. -/
theorem asMember_replica (f : Bytes 32 → Except AnonymusError (List UInt8)) :
    (do
      if u ∉ (replica hk groupId initialSecret members ps).memberUsernames then throw notMember
      let key ← deriveSenderKey hk (replica hk groupId initialSecret members ps) u
      f key) =
    if u ∈ members then f (senderKey hk groupId initialSecret ps u) else .error notMember := by
  have hmembers : (replica hk groupId initialSecret members ps).memberUsernames = members := by
    rw [replica_eq]
  rw [hmembers, deriveSenderKey_replica]
  by_cases hu : u ∈ members
  · rw [if_pos hu, if_neg (not_not.mpr hu)]
    rfl
  · rw [if_neg hu, if_pos hu]
    rfl

theorem encryptMessage_replica (nonce : Bytes 12) (plaintext : List UInt8) :
    encryptMessage hk cipher (replica hk groupId initialSecret members ps) nonce u plaintext =
      if u ∈ members then
        Aead.encrypt cipher nonce (senderKey hk groupId initialSecret ps u) plaintext
      else .error notMember :=
  asMember_replica fun key => Aead.encrypt cipher nonce key plaintext

theorem decryptMessage_replica (ciphertext : List UInt8) :
    decryptMessage hk cipher (replica hk groupId initialSecret members qs) v ciphertext =
      if v ∈ members then
        Aead.decrypt cipher (senderKey hk groupId initialSecret qs v) ciphertext
      else .error notMember :=
  asMember_replica fun key => Aead.decrypt cipher key ciphertext

/-- For two replicas of one group, HKDF injective on what they derive and the cipher ideal on the two
sender keys: what `u` has encrypted on one is decrypted on the other as from `v` exactly when both have
applied the same path secrets and `u` is `v`, a member; all else is rejected. -/
theorem key_separation (hps : ps.length < 2 ^ 64) (hqs : qs.length < 2 ^ 64)
    (hinj : Set.InjOn (kdf32 hk)
      (usedInputs hk groupId initialSecret ps u ∪ usedInputs hk groupId initialSecret qs v))
    (hideal : Aead.Ideal cipher
      {senderKey hk groupId initialSecret ps u, senderKey hk groupId initialSecret qs v})
    {nonce : Bytes 12} {plaintext ciphertext : List UInt8}
    (henc : encryptMessage hk cipher (replica hk groupId initialSecret members ps) nonce u plaintext =
      .ok ciphertext) :
    (decryptMessage hk cipher (replica hk groupId initialSecret members qs) v ciphertext =
        .ok plaintext ↔ ps = qs ∧ u = v ∧ u ∈ members) ∧
      (¬ (ps = qs ∧ u = v ∧ u ∈ members) →
        ∃ e, decryptMessage hk cipher (replica hk groupId initialSecret members qs) v ciphertext =
          .error e) := by
  rw [encryptMessage_replica] at henc
  have hmember : u ∈ members := by
    by_contra hnot
    rw [if_neg hnot] at henc
    cases henc
  rw [if_pos hmember] at henc
  have hkeys := senderKey_eq_iff hps hqs hinj
  have hrejected : ¬ (ps = qs ∧ u = v ∧ u ∈ members) →
      ∃ e, decryptMessage hk cipher (replica hk groupId initialSecret members qs) v ciphertext =
        .error e := by
    intro hother
    rw [decryptMessage_replica]
    by_cases hv : v ∈ members
    · -- the two sender keys differ
      rw [if_pos hv]
      refine Aead.decrypt_other hideal (.inl rfl) (.inr rfl) ?_ henc
      intro hsame
      obtain ⟨hhistory, huser⟩ := hkeys.mp hsame.symm
      exact hother ⟨hhistory, huser, hmember⟩
    · exact ⟨notMember, if_neg hv⟩
  refine ⟨⟨?_, ?_⟩, hrejected⟩
  · intro hok
    by_contra hother
    obtain ⟨e, he⟩ := hrejected hother
    rw [he] at hok
    cases hok
  · rintro ⟨rfl, rfl, -⟩
    rw [decryptMessage_replica, if_pos hmember]
    exact Aead.decrypt_same hideal (.inl rfl) henc

/-! ## An old epoch -/

def groupId123 : List UInt8 := "group-123".toUTF8.toList

def epochSecret1 : Bytes 32 :=
  .ofNat 32 0x03b15208486a2a9e013bcfbb04cf6ed716de7b06504a10eec5091768e328d027

def aliceKey0 : Bytes 32 :=
  .ofNat 32 0x7bc34b31db98e51f5b67d9cb3eedddf41435d3700591d842e0e5be02cc69d381

def aliceKey1 : Bytes 32 :=
  .ofNat 32 0xe89f28e3d7729f239bcb78b098f53f8eafbbb02d3a54aa384b64a74fefaf8dc3

/-- The values of HKDF-SHA256 that two replicas derive, one of them an epoch ahead. -/
def derivations : List (KdfInput × Bytes 32) :=
  [(epochInput groupId123 1 (.replicate 32 1) (.replicate 32 9), epochSecret1),
    (senderInput (.replicate 32 1) 0 "alice", aliceKey0),
    (senderInput epochSecret1 1 "alice", aliceKey1)]

def sampleHkdf : Hkdf := fun ikm salt info len =>
  if h : 32 = len then h ▸ (derivations.lookup ⟨salt, ikm, info⟩).getD (.replicate 32 0)
  else .replicate len 0

def plaintext0 : List UInt8 := "Top secret for epoch 0".toUTF8.toList

/-- The plaintext under Alice's first key and the nonce of sevens. -/
def ciphertext0 : Bytes 38 :=
  .ofNat 38 0x5c9c8b62e76b874f591030adbabdefbaf6f6008bf3ef622474ac544eda8f8b16bbddb2bbd1af

/-- AES-256-GCM on that plaintext and that ciphertext. -/
def sampleCipher : Aes256Gcm where
  encrypt key nonce plaintext :=
    if key = aliceKey0 ∧ nonce = .replicate 12 7 ∧ plaintext = plaintext0 then .ok ciphertext0.1
    else .error "aead::Error"
  decrypt key nonce ciphertext :=
    if key = aliceKey0 ∧ nonce = .replicate 12 7 ∧ ciphertext = ciphertext0.1 then .ok plaintext0
    else .error "aead::Error"

theorem sampleCipher_ideal (keys : Set (Bytes 32)) : Aead.Ideal sampleCipher keys := by
  constructor
  · intro key _ nonce plaintext ciphertext h
    simp only [sampleCipher] at h ⊢
    split_ifs at h with hinput
    obtain rfl := Except.ok.inj h
    obtain ⟨rfl, rfl, rfl⟩ := hinput
    exact ⟨by rw [ciphertext0.2]; decide, if_pos ⟨rfl, rfl, rfl⟩⟩
  · intro key _ key' _ hne nonce plaintext ciphertext h
    simp only [sampleCipher] at h ⊢
    split_ifs at h with hinput
    exact ⟨_, if_neg fun hsame => hne (hsame.1.trans hinput.1.symm)⟩

theorem secretAfter_path :
    secretAfter sampleHkdf groupId123 (.replicate 32 1) [.replicate 32 9] = epochSecret1 := by
  decide +kernel

theorem sampleHkdf_injOn :
    Set.InjOn (kdf32 sampleHkdf)
      (usedInputs sampleHkdf groupId123 (.replicate 32 1) [] "alice" ∪
        usedInputs sampleHkdf groupId123 (.replicate 32 1) [.replicate 32 9] "alice") := by
  have hall : ∀ x ∈ derivations.map Prod.fst, ∀ y ∈ derivations.map Prod.fst,
      kdf32 sampleHkdf x = kdf32 sampleHkdf y → x = y := by decide +kernel
  have hused : usedInputs sampleHkdf groupId123 (.replicate 32 1) [] "alice" ∪
      usedInputs sampleHkdf groupId123 (.replicate 32 1) [.replicate 32 9] "alice" ⊆
        {x | x ∈ derivations.map Prod.fst} := by
    rintro x ((rfl | hnone) | (rfl | rfl | hnone))
    · exact List.mem_cons_of_mem _ List.mem_cons_self
    · exact absurd hnone (Set.notMem_empty x)
    · rw [secretAfter_path]
      exact List.mem_cons_of_mem _ (List.mem_cons_of_mem _ List.mem_cons_self)
    · exact List.mem_cons_self
    · exact absurd hnone (Set.notMem_empty x)
  exact Set.InjOn.mono hused fun x hx y hy h => hall x hx y hy h

theorem encrypt_plaintext0 :
    encryptMessage sampleHkdf sampleCipher
      (replica sampleHkdf groupId123 (.replicate 32 1) ["alice", "bob"] []) (.replicate 12 7) "alice"
      plaintext0 = .ok ((Bytes.replicate 12 7).1 ++ ciphertext0.1) := by
  rw [encryptMessage_replica]
  decide +kernel

/-- A message of the epoch before is rejected by a replica that has been advanced. -/
theorem key_separation_advanced :
    ∃ e, decryptMessage sampleHkdf sampleCipher
      (replica sampleHkdf groupId123 (.replicate 32 1) ["alice", "bob"] [.replicate 32 9]) "alice"
      ((Bytes.replicate 12 7).1 ++ ciphertext0.1) = .error e :=
  (key_separation (by decide) (by decide) sampleHkdf_injOn (sampleCipher_ideal _)
    encrypt_plaintext0).2 fun h => absurd h.1 (by simp)

end Mls

end AnonyMus.Rust
