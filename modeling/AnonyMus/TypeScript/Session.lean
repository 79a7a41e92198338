import AnonyMus.Lib.Binary64
import AnonyMus.Lib.Bytes
import AnonyMus.Lib.Dict
import AnonyMus.Lib.EState
import AnonyMus.Lib.RatchetOnce
import Mathlib.Data.Int.Notation
import Std.Data.String.ToInt

/-!
# TypeScript SDK — the double ratchet session

`packages/typescript-sdk/src/crypto.ts`. A method of the session is an
`EStateM` action, so that a throw keeps the assignments made before it; the keys
of the browser's `SubtleCrypto` are opaque, and the key pair that `generateKey`
would return is an argument. Unlike the web client, nothing is ever evicted from
`skippedMessageKeys`.

* `DoubleRatchetSession`, `initAlice`, `initBob`, `encrypt`, `decrypt` — the code;
* `Shows` — the session stands for a party of the abstract ratchet;
* `Shows.encrypt`, `Shows.skipMessages`, `Shows.turnTo` — one operation each;
* `Shows.decrypt` — `decrypt` takes the key that the abstract ratchet takes.
-/

namespace AnonyMus.TypeScript

open Binary64 (round64 round64_of_le le_round64)
open Ratchet (Party)

/-! ## Exceptions and primitives -/

/-- What a promise may be rejected with. -/
inductive SdkError
  | error (msg : String)
  | dataError
  | operationError
  | typeError
  | syntaxError
  | uriError
  | invalidCharacter
deriving DecidableEq, Repr

/-- `SubtleCrypto` with X25519, HKDF and AES-GCM. -/
structure Subtle (Priv : Type) where
  publicKey : Priv → Bytes 32
  /-- `deriveBits`; `none` when the shared secret is all zeros, for which it rejects. -/
  deriveBits : Priv → Bytes 32 → Option (Bytes 32)
  /-- HKDF with an output of 512 bits. -/
  hkdf : (salt info ikm : List UInt8) → Bytes 64
  gcmEncrypt : (key iv plaintext : List UInt8) → List UInt8
  gcmDecrypt : (key iv ciphertext : List UInt8) → Option (List UInt8)

def rootInfo : List UInt8 := "AnonyMus-DR-RootRatchet".toUTF8.toList
def chainInfo : List UInt8 := "AnonyMus-DR-ChainRatchet".toUTF8.toList

/-- `importKey('raw', data, X25519)`. -/
def importRaw (data : List UInt8) : Except SdkError (Bytes 32) :=
  if h : data.length = 32 then .ok ⟨data, h⟩ else .error .dataError

/-- The key of a skipped message: the template string of the peer key and the number. -/
def skipKey (peerDhPubBytes : List UInt8) (seq : ℤ) : List Char :=
  b64encode peerDhPubBytes ++ '_' :: (toString seq).toList

/-- `fromHex`, of text that `toHex` has made. -/
def bytesOfHex (hex : List Char) : List UInt8 := (fromHex hex).getD []

/-! ## Session state -/

structure DoubleRatchetSession (Priv : Type) where
  dhPrivateKey       : Option Priv
  dhPublicKey        : Option (Bytes 32)
  dhRemotePublicKey  : Option (Bytes 32)
  rootKey            : Option (List UInt8)
  sendingChainKey    : Option (Bytes 32)
  receivingChainKey  : Option (Bytes 32)
  seqSend            : ℕ
  seqRecv            : ℕ
  prevChainLength    : ℕ
  skippedMessageKeys : Dict (List Char) (List Char)
deriving DecidableEq

section

variable {Priv : Type} (C : Subtle Priv)

def computeDH (privateKey : Priv) (publicKey : Bytes 32) : Except SdkError (Bytes 32) :=
  match C.deriveBits privateKey publicKey with
  | some shared => .ok shared
  | none => .error .operationError

/-- `hkdfDerive512` for the root chain, cut into the root key and the chain key. -/
def rootRatchet (rootKey : List UInt8) (dhOut : Bytes 32) : List UInt8 × Bytes 32 :=
  let derived := C.hkdf rootKey rootInfo dhOut.1
  ((derived.take 32).1, derived.drop 32)

/-- `hkdfDerive512` for a message chain, cut into the message key and the chain key. -/
def chainRatchet (chainKey : Bytes 32) : Bytes 32 × Bytes 32 :=
  let derived := C.hkdf chainKey.1 chainInfo (List.replicate 32 0)
  (derived.take 32, derived.drop 32)

def initAlice (sharedSecret peerDhPubBytes : List UInt8) (generated : Priv) :
    Except SdkError (DoubleRatchetSession Priv) := do
  let dhRemotePublicKey ← importRaw peerDhPubBytes
  let dhOut ← computeDH C generated dhRemotePublicKey
  let derived := rootRatchet C sharedSecret dhOut
  return { dhPrivateKey := some generated, dhPublicKey := some (C.publicKey generated)
           dhRemotePublicKey := some dhRemotePublicKey, rootKey := some derived.1
           sendingChainKey := some derived.2, receivingChainKey := none, seqSend := 0
           seqRecv := 0, prevChainLength := 0, skippedMessageKeys := Dict.empty }

/-- `initBob`, which gets the private key as text of its own and sets no public key. -/
def initBob (sharedSecret : List UInt8) (myDhPriv : Priv) : DoubleRatchetSession Priv where
  dhPrivateKey := some myDhPriv
  dhPublicKey := none
  dhRemotePublicKey := none
  rootKey := some sharedSecret
  sendingChainKey := none
  receivingChainKey := none
  seqSend := 0
  seqRecv := 0
  prevChainLength := 0
  skippedMessageKeys := Dict.empty

/-! ## Sending -/

/-- `encrypt` up to its first wait: the chain key to derive from. -/
def readChain (s : DoubleRatchetSession Priv) : Except SdkError (Bytes 32) :=
  match s.sendingChainKey with
  | some sendingChainKey => .ok sendingChainKey
  | none => .error (.error "Sending chain key not initialized")

/-- `encrypt` from the derived keys to the export of the public key. -/
def storeChain (sendingChainKey : Bytes 32) :
    EStateM SdkError (DoubleRatchetSession Priv) (Bytes 32 × Bytes 32) := do
  let derived := chainRatchet C sendingChainKey
  modify fun s => { s with sendingChainKey := some derived.2 }
  match (← get).dhPublicKey with
  | some dhPublicKey => return (derived.1, dhPublicKey)
  -- a `CryptoKey` has no property `publicKey`, and `exportKey` rejects `undefined`
  | none => throw .typeError

/-- The rest of `encrypt`: the number, and the length of the chain before. -/
def takeSeq : EStateM SdkError (DoubleRatchetSession Priv) (ℕ × ℕ) := do
  let seq := (← get).seqSend
  modify fun s => { s with seqSend := round64 (s.seqSend + 1) }
  return (seq, (← get).prevChainLength)

/-- The message key, the own ratchet key, the number and the previous length. -/
def encrypt : EStateM SdkError (DoubleRatchetSession Priv) (Bytes 32 × Bytes 32 × ℕ × ℕ) := do
  let sendingChainKey ← ofExcept (readChain (← get))
  let (messageKey, myPubBytes) ← storeChain C sendingChainKey
  let (seq, prevChainLen) ← takeSeq
  return (messageKey, myPubBytes, seq, prevChainLen)

/-! ## Receiving -/

/-- The body of the loop of `skipMessages`. -/
def skipRound : EStateM SdkError (DoubleRatchetSession Priv) Unit := do
  match (← get).receivingChainKey with
  | none => return
  | some receivingChainKey =>
    let derived := chainRatchet C receivingChainKey
    modify fun s => { s with receivingChainKey := some derived.2 }
    match (← get).dhRemotePublicKey with
    | none => throw (.error "Remote DH public key not set for skipped messages")
    | some dhRemotePublicKey =>
      modify fun s => { s with
        skippedMessageKeys :=
          s.skippedMessageKeys.insert (skipKey dhRemotePublicKey.1 s.seqRecv)
            (toHex derived.1.1) }
      modify fun s => { s with seqRecv := round64 (s.seqRecv + 1) }

/-- `while (this.seqRecv < untilSeq)`, in at most `fuel` rounds. -/
def skipLoop (untilSeq : ℤ) : ℕ → EStateM SdkError (DoubleRatchetSession Priv) Unit
  | 0 => return
  | fuel + 1 => do
    if ((← get).seqRecv : ℤ) < untilSeq then
      skipRound C
      skipLoop untilSeq fuel

def skipMessages (untilSeq : ℤ) : EStateM SdkError (DoubleRatchetSession Priv) Unit := do
  let s ← get
  match s.receivingChainKey with
  | none => return
  | some _ =>
    if (round64 (s.seqRecv + 100) : ℤ) < untilSeq then
      throw (.error "Too many skipped messages")
    skipLoop C untilSeq (untilSeq - s.seqRecv).toNat

/-- The DH ratchet step of `decrypt`, once the old chain has been skipped. -/
def ratchetStep (peerDhPub : Bytes 32) (generated : Priv) :
    EStateM SdkError (DoubleRatchetSession Priv) Unit := do
  modify fun s => { s with dhRemotePublicKey := some peerDhPub }
  let s ← get
  match s.dhPrivateKey, s.rootKey with
  | some dhPrivateKey, some rootKey =>
    let dhOut1 ← ofExcept (computeDH C dhPrivateKey peerDhPub)
    let derived1 := rootRatchet C rootKey dhOut1
    modify fun s => { s with rootKey := some derived1.1, receivingChainKey := some derived1.2 }
    modify fun s => { s with
      dhPrivateKey := some generated, dhPublicKey := some (C.publicKey generated) }
    let dhOut2 ← ofExcept (computeDH C generated peerDhPub)
    let derived2 := rootRatchet C derived1.1 dhOut2
    modify fun s => { s with rootKey := some derived2.1, sendingChainKey := some derived2.2 }
    modify fun s => { s with prevChainLength := s.seqSend, seqSend := 0, seqRecv := 0 }
  | _, _ => throw (.error "Decryption keys not fully initialized")

/-- The inner `if` block of `decrypt`. -/
def turnTo (peerDhPub : Bytes 32) (prevChainLen : ℤ) (generated : Priv) :
    EStateM SdkError (DoubleRatchetSession Priv) Unit := do
  if (← get).dhRemotePublicKey ≠ some peerDhPub then
    skipMessages C prevChainLen
    ratchetStep C peerDhPub generated

/-- The last block of `decrypt`: one step of the receiving chain. -/
def takeKey : EStateM SdkError (DoubleRatchetSession Priv) (List UInt8) := do
  match (← get).receivingChainKey with
  | none => throw (.error "Receiving chain key not initialized")
  | some receivingChainKey =>
    let derived := chainRatchet C receivingChainKey
    modify fun s => { s with receivingChainKey := some derived.2 }
    modify fun s => { s with seqRecv := round64 (s.seqRecv + 1) }
    return derived.1.1

def decrypt (peerDhPubBytes : List UInt8) (seq prevChainLen : ℤ) (generated : Priv) :
    EStateM SdkError (DoubleRatchetSession Priv) (List UInt8) := do
  match (← get).skippedMessageKeys.get? (skipKey peerDhPubBytes seq) with
  -- an empty string is no stored key
  | some (c :: rest) =>
    modify fun s => { s with
      skippedMessageKeys := s.skippedMessageKeys.erase (skipKey peerDhPubBytes seq) }
    return bytesOfHex (c :: rest)
  | _ =>
    let peerDhPub ← ofExcept (importRaw peerDhPubBytes)
    turnTo C peerDhPub prevChainLen generated
    skipMessages C seq
    takeKey C

/-! ## What each part does -/

theorem importRaw_eq (d : Bytes 32) : importRaw d.1 = .ok d := dif_pos d.2

theorem skipKey_injective {d d' : Bytes 32} {n n' : ℤ}
    (h : skipKey d.1 n = skipKey d'.1 n') : d = d' ∧ n = n' := by
  have hlen : d.1.length = d'.1.length := d.2.trans d'.2.symm
  -- both encodings have 44 characters, so the texts split at the same place
  obtain ⟨hd, hn⟩ := List.append_inj h (by rw [length_b64encode, length_b64encode, hlen])
  refine ⟨Subtype.ext (b64encode_injective hd), ?_⟩
  have hstr : toString n = toString n' := String.toList_inj.mp (List.cons.inj hn).2
  exact Int.repr_injective hstr

theorem skipKey_eq_iff {d d' : Bytes 32} {n n' : ℕ} :
    skipKey d'.1 n' = skipKey d.1 n ↔ d' = d ∧ n' = n := by
  constructor
  · intro h
    obtain ⟨hd, hn⟩ := skipKey_injective h
    exact ⟨hd, Int.ofNat_inj.mp hn⟩
  · rintro ⟨rfl, rfl⟩
    rfl

/-- Skipping up to `untilSeq` is refused: the receiving chain is more than 100 messages behind. -/
def TooFar (s : DoubleRatchetSession Priv) (untilSeq : ℤ) : Prop :=
  s.receivingChainKey ≠ none ∧ (round64 (s.seqRecv + 100) : ℤ) < untilSeq

variable {s : DoubleRatchetSession Priv} {untilSeq : ℤ}

theorem encrypt_of_none (h : s.sendingChainKey = none) :
    encrypt C s = .error (.error "Sending chain key not initialized") s := by
  rw [encrypt, EStateM.apply_bind, EStateM.apply_get]
  dsimp only
  rw [readChain, h]
  rfl

theorem encrypt_of_chain {ck d : Bytes 32} (hck : s.sendingChainKey = some ck)
    (hpub : s.dhPublicKey = some d) :
    encrypt C s = .ok ((chainRatchet C ck).1, d, s.seqSend, s.prevChainLength)
      { s with
        sendingChainKey := some (chainRatchet C ck).2, seqSend := round64 (s.seqSend + 1) } := by
  rw [encrypt, EStateM.apply_bind, EStateM.apply_get]
  dsimp only
  rw [readChain, hck]
  simp only [storeChain, takeSeq, EStateM.apply_bind, EStateM.apply_ofExcept_ok,
    EStateM.apply_modify, EStateM.apply_get, EStateM.apply_pure, hpub]

theorem skipMessages_of_none (h : s.receivingChainKey = none) :
    skipMessages C untilSeq s = .ok () s := by
  rw [skipMessages, EStateM.apply_bind, EStateM.apply_get]
  dsimp only
  rw [h]
  rfl

theorem skipMessages_of_some {ck : Bytes 32} (hck : s.receivingChainKey = some ck)
    (hfar : ¬ TooFar s untilSeq) :
    skipMessages C untilSeq s = skipLoop C untilSeq (untilSeq - s.seqRecv).toNat s := by
  have hle : ¬ (round64 (s.seqRecv + 100) : ℤ) < untilSeq := fun hlt =>
    hfar ⟨by rw [hck]; exact Option.some_ne_none _, hlt⟩
  rw [skipMessages, EStateM.apply_bind, EStateM.apply_get]
  dsimp only
  rw [hck]
  dsimp only
  rw [if_neg hle]

/-- One round of the loop with a chain and a peer key. -/
theorem skipRound_of_some {ck d : Bytes 32} (hck : s.receivingChainKey = some ck)
    (hd : s.dhRemotePublicKey = some d) :
    skipRound C s = .ok () { s with
      receivingChainKey := some (chainRatchet C ck).2
      skippedMessageKeys :=
        s.skippedMessageKeys.insert (skipKey d.1 s.seqRecv) (toHex (chainRatchet C ck).1.1)
      seqRecv := round64 (s.seqRecv + 1) } := by
  rw [skipRound, EStateM.apply_bind, EStateM.apply_get]
  dsimp only
  rw [hck]
  simp only [EStateM.apply_bind, EStateM.apply_modify, EStateM.apply_get, hd]

theorem ratchetStep_of_exchange {d z z' : Bytes 32} {x generated : Priv} {rk : List UInt8}
    (hx : s.dhPrivateKey = some x) (hrk : s.rootKey = some rk) (hz : C.deriveBits x d = some z)
    (hz' : C.deriveBits generated d = some z') :
    ratchetStep C d generated s = .ok ()
      { s with
        dhPrivateKey := some generated, dhPublicKey := some (C.publicKey generated)
        dhRemotePublicKey := some d
        rootKey := some (rootRatchet C (rootRatchet C rk z).1 z').1
        sendingChainKey := some (rootRatchet C (rootRatchet C rk z).1 z').2
        receivingChainKey := some (rootRatchet C rk z).2
        seqSend := 0, seqRecv := 0, prevChainLength := s.seqSend } := by
  rw [ratchetStep, EStateM.apply_bind, EStateM.apply_modify]
  dsimp only
  rw [EStateM.apply_bind, EStateM.apply_get]
  dsimp only
  rw [hx, hrk]
  simp only [EStateM.apply_bind, EStateM.apply_modify, EStateM.apply_ofExcept, computeDH, hz, hz']

theorem turnTo_of_eq {d : Bytes 32} (hd : s.dhRemotePublicKey = some d) (pn : ℤ)
    (generated : Priv) : turnTo C d pn generated s = .ok () s := by
  rw [turnTo, EStateM.apply_bind, EStateM.apply_get]
  dsimp only
  rw [if_neg (not_not_intro hd)]
  rfl

theorem turnTo_of_ne {d : Bytes 32} (hd : s.dhRemotePublicKey ≠ some d) (pn : ℤ)
    (generated : Priv) :
    turnTo C d pn generated s = (do
      skipMessages C pn
      ratchetStep C d generated) s := by
  rw [turnTo, EStateM.apply_bind, EStateM.apply_get]
  dsimp only
  rw [if_pos hd]

theorem takeKey_of_some {ck : Bytes 32} (hck : s.receivingChainKey = some ck) :
    takeKey C s = .ok (chainRatchet C ck).1.1
      { s with
        receivingChainKey := some (chainRatchet C ck).2
        seqRecv := round64 (s.seqRecv + 1) } := by
  rw [takeKey, EStateM.apply_bind, EStateM.apply_get]
  dsimp only
  rw [hck]
  rfl

theorem decrypt_of_stored {d : List UInt8} {seq : ℤ} {c : Char} {rest : List Char}
    (hstore : s.skippedMessageKeys.get? (skipKey d seq) = some (c :: rest)) (pn : ℤ)
    (generated : Priv) :
    decrypt C d seq pn generated s = .ok (bytesOfHex (c :: rest))
      { s with skippedMessageKeys := s.skippedMessageKeys.erase (skipKey d seq) } := by
  rw [decrypt, EStateM.apply_bind, EStateM.apply_get]
  dsimp only
  rw [hstore]
  rfl

theorem decrypt_of_miss {d : Bytes 32} {seq : ℤ}
    (hstore : s.skippedMessageKeys.get? (skipKey d.1 seq) = none) (pn : ℤ)
    (generated : Priv) :
    decrypt C d.1 seq pn generated s = (do
      turnTo C d pn generated
      skipMessages C seq
      takeKey C) s := by
  rw [decrypt, EStateM.apply_bind, EStateM.apply_get]
  dsimp only
  rw [hstore]
  dsimp only
  rw [EStateM.apply_bind, importRaw_eq]
  rfl

/-! ## Bridge to the abstract ratchet -/

/-- The primitives as the abstract ratchet takes them. -/
def Subtle.kdf :
    Ratchet.Kdf Priv (Bytes 32) (Bytes 32) (List UInt8) (Bytes 32) (Bytes 32) where
  pub := C.publicKey
  dh x d := (C.deriveBits x d).getD (Bytes.replicate 32 0)
  kdfRk := rootRatchet C
  kdfCk := chainRatchet C

abbrev SdkParty (Priv : Type) := Party Priv (Bytes 32) (List UInt8) (Bytes 32) (Bytes 32)

/-- The session stands for the party: field by field, with the stored keys
written in hexadecimal under their text keys. It knows its own public key from
the moment it can send. -/
structure Shows (s : DoubleRatchetSession Priv) (p : SdkParty Priv) : Prop where
  self    : s.dhPrivateKey = some p.self
  own     : p.cks ≠ none → s.dhPublicKey = some (C.publicKey p.self)
  remote  : s.dhRemotePublicKey = p.remote
  rk      : s.rootKey = some p.rk
  cks     : s.sendingChainKey = p.cks
  ckr     : s.receivingChainKey = p.ckr
  ns      : s.seqSend = p.ns
  nr      : s.seqRecv = p.nr
  pn      : s.prevChainLength = p.pn
  skipped : ∀ (d : Bytes 32) (n : ℕ),
    s.skippedMessageKeys.get? (skipKey d.1 n) = (p.skipped d n).map fun key => toHex key.1

variable {p : SdkParty Priv}

theorem initBob_shows (ss : List UInt8) (b : Priv) :
    Shows C (initBob ss b) (Party.initReceiver ss b) :=
  ⟨rfl, fun h => absurd rfl h, rfl, rfl, rfl, rfl, rfl, rfl, rfl, fun _ _ => rfl⟩

theorem initAlice_shows (ss : List UInt8) {d shared : Bytes 32} {a : Priv}
    (hshared : C.deriveBits a d = some shared) :
    ∃ s, initAlice C ss d.1 a = .ok s ∧ Shows C s (Party.initSender C.kdf ss a d) := by
  have hdh : C.kdf.dh a d = shared := by
    simp only [Subtle.kdf, hshared, Option.getD_some]
  have hcompute : computeDH C a d = .ok shared := by rw [computeDH, hshared]
  have hinit : initAlice C ss d.1 a = .ok
      { dhPrivateKey := some a, dhPublicKey := some (C.publicKey a), dhRemotePublicKey := some d
        rootKey := some (rootRatchet C ss shared).1
        sendingChainKey := some (rootRatchet C ss shared).2, receivingChainKey := none
        seqSend := 0, seqRecv := 0, prevChainLength := 0, skippedMessageKeys := Dict.empty } := by
    rw [initAlice, importRaw_eq, EStateM.except_ok_bind, hcompute]
    rfl
  refine ⟨_, hinit, rfl, fun _ => rfl, rfl, ?_, ?_, rfl, rfl, rfl, rfl, fun _ _ => rfl⟩
  · simp only [Party.initSender, hdh]
    rfl
  · simp only [Party.initSender, hdh]
    rfl

variable {C}

theorem Shows.encrypt (h : Shows C s p) (hseq : s.seqSend < 2 ^ 53)
    (hchain : s.sendingChainKey ≠ none) :
    ∃ key hd p' s', p.send C.kdf = some (key, hd, p') ∧
      encrypt C s = .ok (key, hd.dh, hd.n, hd.pn) s' ∧ Shows C s' p' := by
  obtain ⟨ck, hck⟩ := Option.ne_none_iff_exists'.mp hchain
  have hcks : p.cks = some ck := h.cks.symm.trans hck
  have hown := h.own (by rw [hcks]; exact Option.some_ne_none ck)
  have hsend : p.send C.kdf = some ((chainRatchet C ck).1, ⟨C.publicKey p.self, p.pn, p.ns⟩,
      { p with cks := some (chainRatchet C ck).2, ns := p.ns + 1 }) := by
    rw [Party.send, hcks]
    rfl
  have henc := encrypt_of_chain C hck hown
  have hround : round64 (s.seqSend + 1) = p.ns + 1 := by
    rw [round64_of_le hseq, h.ns]
  rw [hround, h.ns, h.pn] at henc
  exact ⟨_, _, _, _, hsend, henc, ⟨h.self, fun _ => hown, h.remote, h.rk, rfl, h.ckr, rfl, h.nr,
    rfl, h.skipped⟩⟩

/-- One round of the loop stores one key. -/
theorem Shows.skipRound (h : Shows C s p) {ck d : Bytes 32} (hck : p.ckr = some ck)
    (hd : p.remote = some d) (hseq : p.nr < 2 ^ 53) :
    ∃ s', skipRound C s = .ok () s' ∧ Shows C s' { p with
      ckr := some (chainRatchet C ck).2, nr := p.nr + 1,
      skipped := fun d' n =>
        if d' = d ∧ n = p.nr then some (chainRatchet C ck).1 else p.skipped d' n } := by
  have hnr : s.seqRecv = p.nr := h.nr
  have hround : round64 (s.seqRecv + 1) = p.nr + 1 := by
    rw [hnr, round64_of_le hseq]
  refine ⟨_, skipRound_of_some C (h.ckr.trans hck) (h.remote.trans hd), ?_⟩
  refine ⟨h.self, h.own, h.remote, h.rk, h.cks, rfl, h.ns, hround, h.pn, ?_⟩
  intro d' n
  rw [Dict.get?_insert, hnr, h.skipped]
  simp only [skipKey_eq_iff]
  split <;> rfl

/-- The loop skips like the abstract ratchet. -/
theorem Shows.skipLoop {till : ℕ} (fuel : ℕ) (h : Shows C s p) {ck d : Bytes 32}
    (hck : p.ckr = some ck) (hd : p.remote = some d) (hfuel : till - p.nr ≤ fuel)
    (htill : till ≤ 2 ^ 53) :
    ∃ s', skipLoop C till fuel s = .ok () s' ∧ Shows C s' (p.skip C.kdf till) := by
  induction fuel generalizing s p ck with
  | zero =>
    rw [Party.skip_of_le C.kdf (by omega)]
    exact ⟨s, rfl, h⟩
  | succ fuel ih =>
    have hnr : s.seqRecv = p.nr := h.nr
    rw [TypeScript.skipLoop, EStateM.apply_bind, EStateM.apply_get]
    dsimp only
    by_cases hlt : p.nr < till
    · obtain ⟨s₁, hs₁, h₁⟩ := h.skipRound hck hd (by omega)
      obtain ⟨s₂, hs₂, h₂⟩ := ih h₁ rfl hd (by dsimp only; omega)
      rw [if_pos (by omega), EStateM.apply_bind, hs₁, Party.skip_step C.kdf hck hd hlt]
      exact ⟨s₂, hs₂, h₂⟩
    · rw [if_neg (by omega), Party.skip_of_le C.kdf (by omega)]
      exact ⟨s, rfl, h⟩

/-- A receiving chain belongs to a peer key that is set. -/
def Paired (p : SdkParty Priv) : Prop := p.ckr ≠ none → p.remote ≠ none

theorem Shows.skipMessages {till : ℕ} (h : Shows C s p) (hpaired : Paired p)
    (hfar : ¬ TooFar s till) (htill : till ≤ 2 ^ 53) :
    ∃ s', skipMessages C till s = .ok () s' ∧ Shows C s' (p.skip C.kdf till) := by
  have hckr : s.receivingChainKey = p.ckr := h.ckr
  have hnr : s.seqRecv = p.nr := h.nr
  cases hck : p.ckr with
  | none =>
    have hskip : p.skip C.kdf till = p := by
      unfold Party.skip
      rw [hck]
    rw [hskip]
    exact ⟨s, skipMessages_of_none C (hckr.trans hck), h⟩
  | some ck =>
    obtain ⟨d, hd⟩ := Option.ne_none_iff_exists'.mp
      (hpaired (by rw [hck]; exact Option.some_ne_none ck))
    rw [skipMessages_of_some C (hckr.trans hck) hfar]
    exact h.skipLoop _ hck hd (by omega) htill

/-- The ratchet step, when both exchanges succeed. -/
theorem Shows.ratchetStep (h : Shows C s p) {d z z' : Bytes 32} {generated : Priv}
    (hz : C.deriveBits p.self d = some z) (hz' : C.deriveBits generated d = some z') :
    ∃ s', ratchetStep C d generated s = .ok () s' ∧
      Shows C s' (p.ratchet C.kdf d generated) ∧ s'.seqRecv = 0 := by
  have hdh : C.kdf.dh p.self d = z := by simp only [Subtle.kdf, hz, Option.getD_some]
  have hdh' : C.kdf.dh generated d = z' := by simp only [Subtle.kdf, hz', Option.getD_some]
  refine ⟨_, ratchetStep_of_exchange C h.self h.rk hz hz', ?_, rfl⟩
  simp only [Party.ratchet, hdh, hdh']
  exact ⟨rfl, fun _ => rfl, rfl, rfl, rfl, rfl, rfl, rfl, h.ns, h.skipped⟩

/-! ## Decryption -/

/-- The message with this header has its key stored. -/
def Stored (s : DoubleRatchetSession Priv) (hd : Ratchet.Header (Bytes 32)) : Prop :=
  s.skippedMessageKeys.get? (skipKey hd.dh.1 hd.n) ≠ none

instance (s : DoubleRatchetSession Priv) (hd : Ratchet.Header (Bytes 32)) :
    Decidable (Stored s hd) := by
  unfold Stored
  infer_instance

/-- `decrypt` does not refuse to skip on the way to this header. -/
def WithinSkip (s : DoubleRatchetSession Priv) (hd : Ratchet.Header (Bytes 32)) : Prop :=
  ¬ Stored s hd →
    if s.dhRemotePublicKey = some hd.dh then ¬ TooFar s hd.n else ¬ TooFar s hd.pn ∧ hd.n ≤ 100

theorem Shows.stored_iff (h : Shows C s p) (hd : Ratchet.Header (Bytes 32)) :
    Stored s hd ↔ p.skipped hd.dh hd.n ≠ none := by
  rw [Stored, h.skipped, ne_eq, Option.map_eq_none_iff]

/-- Using up a stored key. -/
theorem Shows.forget (h : Shows C s p) (d : Bytes 32) (n : ℕ) :
    Shows C { s with skippedMessageKeys := s.skippedMessageKeys.erase (skipKey d.1 n) }
      (p.forget d n) := by
  refine ⟨h.self, h.own, h.remote, h.rk, h.cks, h.ckr, h.ns, h.nr, h.pn, fun d' n' => ?_⟩
  rw [Dict.get?_erase, h.skipped]
  simp only [skipKey_eq_iff, Party.forget]
  split <;> rfl

/-- Turned to the header, the session stands for the party turned to it. -/
theorem Shows.turnTo (h : Shows C s p) (hpaired : Paired p) {hd : Ratchet.Header (Bytes 32)}
    {generated : Priv} (hpn : hd.pn ≤ 2 ^ 53)
    (hfar : s.dhRemotePublicKey ≠ some hd.dh → ¬ TooFar s hd.pn)
    (hexchange : s.dhRemotePublicKey ≠ some hd.dh → ∃ z z',
      C.deriveBits p.self hd.dh = some z ∧ C.deriveBits generated hd.dh = some z') :
    ∃ s', turnTo C hd.dh hd.pn generated s = .ok () s' ∧
      Shows C s' (p.turn C.kdf hd generated) ∧
      (s.dhRemotePublicKey = some hd.dh ∧ s' = s ∨
        s.dhRemotePublicKey ≠ some hd.dh ∧ s'.seqRecv = 0) := by
  have hrem : s.dhRemotePublicKey = p.remote := h.remote
  by_cases hd' : s.dhRemotePublicKey = some hd.dh
  · have hturn : p.turn C.kdf hd generated = p := by
      rw [Party.turn, if_pos (hd'.symm.trans hrem)]
    rw [hturn]
    exact ⟨s, turnTo_of_eq C hd' _ _, h, Or.inl ⟨hd', rfl⟩⟩
  · have hturn : p.turn C.kdf hd generated =
        (p.skip C.kdf hd.pn).ratchet C.kdf hd.dh generated := by
      rw [Party.turn, if_neg fun hx => hd' (hrem.trans hx.symm)]
    obtain ⟨z, z', hz, hz'⟩ := hexchange hd'
    rw [← Party.skip_self C.kdf p hd.pn] at hz
    obtain ⟨s₁, hs₁, h₁⟩ := h.skipMessages hpaired (hfar hd') hpn
    obtain ⟨s₂, hs₂, h₂, hnr₂⟩ := h₁.ratchetStep hz hz'
    rw [hturn]
    refine ⟨s₂, ?_, h₂, Or.inr ⟨hd', hnr₂⟩⟩
    rw [turnTo_of_ne C hd', EStateM.apply_bind, hs₁]
    exact hs₂

/-- The party turned to a header has a peer key. -/
theorem paired_turn (hpaired : Paired p) (hd : Ratchet.Header (Bytes 32)) (generated : Priv) :
    Paired (p.turn C.kdf hd generated) := by
  unfold Party.turn
  split
  · exact hpaired
  · exact fun _ => Option.some_ne_none hd.dh

/-- **Bridge.** Where nothing is refused and the exchanges succeed, `decrypt`
returns the key the abstract ratchet takes, and leaves the session standing for
the party after it. -/
theorem Shows.decrypt {p' : SdkParty Priv} (h : Shows C s p) (hpaired : Paired p)
    {hd : Ratchet.Header (Bytes 32)} {generated : Priv} {key : Bytes 32}
    (hpn : hd.pn ≤ 2 ^ 53) (hn : hd.n < 2 ^ 53) (hnr : p'.nr ≤ 2 ^ 53)
    (hwithin : WithinSkip s hd)
    (hexchange : ¬ Stored s hd → s.dhRemotePublicKey ≠ some hd.dh → ∃ z z',
      C.deriveBits p.self hd.dh = some z ∧ C.deriveBits generated hd.dh = some z')
    (hrecv : p.recv C.kdf hd generated = (some key, p')) :
    ∃ s', decrypt C hd.dh.1 hd.n hd.pn generated s = .ok key.1 s' ∧ Shows C s' p' := by
  by_cases hst : Stored s hd
  · -- the stored text is the key in hexadecimal, and it is not empty
    obtain ⟨mk, hmk⟩ := Option.ne_none_iff_exists'.mp ((h.stored_iff hd).mp hst)
    have hget := h.skipped hd.dh hd.n
    rw [hmk, Option.map_some] at hget
    unfold Party.recv at hrecv
    rw [hmk] at hrecv
    obtain ⟨hkey, rfl⟩ := Prod.mk.inj hrecv
    obtain rfl := Option.some.inj hkey
    have hbytes : bytesOfHex (toHex mk.1) = mk.1 := by
      rw [bytesOfHex, fromHex_toHex, Option.getD_some]
    cases htext : toHex mk.1 with
    | nil =>
      have hlen := mk.2
      rw [toHex_eq_nil_iff.mp htext] at hlen
      cases hlen
    | cons c rest =>
      rw [htext] at hget hbytes
      refine ⟨_, ?_, h.forget hd.dh hd.n⟩
      rw [decrypt_of_stored C hget, hbytes]
  · have hmiss : p.skipped hd.dh hd.n = none :=
      not_not.mp fun hx => hst ((h.stored_iff hd).mpr hx)
    have hget : s.skippedMessageKeys.get? (skipKey hd.dh.1 hd.n) = none := not_not.mp hst
    have hbound := hwithin hst
    obtain ⟨s₁, hs₁, h₁, hcase⟩ := h.turnTo hpaired hpn
      (fun hne => by rw [if_neg hne] at hbound; exact hbound.1) (hexchange hst)
    have hnext : ¬ TooFar s₁ hd.n := by
      rcases hcase with ⟨hd', rfl⟩ | ⟨hd', hnr₁⟩
      · rwa [if_pos hd'] at hbound
      · rw [if_neg hd'] at hbound
        rintro ⟨-, hfar⟩
        rw [hnr₁, round64_of_le (by omega)] at hfar
        omega
    obtain ⟨s₂, hs₂, h₂⟩ :=
      h₁.skipMessages (paired_turn hpaired hd generated) hnext (Nat.le_of_lt hn)
    have hrun : TypeScript.decrypt C hd.dh.1 hd.n hd.pn generated s = takeKey C s₂ := by
      simp only [decrypt_of_miss C hget, EStateM.apply_bind, hs₁, hs₂]
    rw [hrun]
    unfold Party.recv at hrecv
    rw [hmiss] at hrecv
    dsimp only at hrecv
    have hckr : s₂.receivingChainKey =
        (Party.skip C.kdf (p.turn C.kdf hd generated) hd.n).ckr := h₂.ckr
    cases hck : (Party.skip C.kdf (p.turn C.kdf hd generated) hd.n).ckr with
    | none =>
      rw [hck] at hrecv
      cases hrecv
    | some ck =>
      rw [hck] at hrecv hckr
      obtain ⟨hkey, rfl⟩ := Prod.mk.inj hrecv
      obtain rfl := Option.some.inj hkey
      refine ⟨_, takeKey_of_some C hckr, ?_⟩
      have hnr₂ := h₂.nr
      have hround : round64 (s₂.seqRecv + 1) =
          (Party.skip C.kdf (p.turn C.kdf hd generated) hd.n).nr + 1 := by
        rw [hnr₂]
        exact round64_of_le hnr
      exact ⟨h₂.self, h₂.own, h₂.remote, h₂.rk, h₂.cks, rfl, h₂.ns, hround, h₂.pn, h₂.skipped⟩

end

/-- A chain that counts. -/
def sampleSubtle : Subtle UInt8 where
  publicKey x := Bytes.replicate 32 x
  deriveBits x d := some (Bytes.replicate 32 (x + d.1.headD 0))
  hkdf salt _ ikm :=
    let mix := salt.headD 0 + ikm.headD 0
    ⟨List.replicate 32 mix ++ List.replicate 32 (1 + mix),
      by rw [List.length_append, List.length_replicate, List.length_replicate]⟩
  gcmEncrypt _ _ plaintext := plaintext
  gcmDecrypt _ _ ciphertext := some ciphertext

end AnonyMus.TypeScript
