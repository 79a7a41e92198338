import AnonyMus.Lib.Binary64
import AnonyMus.Lib.Bytes
import AnonyMus.Lib.Dict
import AnonyMus.Lib.EState
import AnonyMus.Rust.Crypto
import Std.Data.String.ToInt

/-!
# Web client — the double ratchet session

`web/src/lib/crypto.ts`, with the bindings of `core/rust/src/ffi/wasm.rs` it
calls. An `async` method of a session is an `EStateM` action, a `Number` that
counts is a natural number rounded after each addition, and a `Uint8Array` is a
list of bytes. What the random generators return are arguments.

* `x25519Dh`, `hkdfDerive`, `aeadEncrypt`, `aeadDecrypt` — the bindings;
* `DoubleRatchetSession`, `initAlice`, `initBob`, `encrypt`, `decrypt` — the code;
* `SessionJson`, `serialize`, `deserialize` — the stored form of a session.
-/

namespace AnonyMus.Web

open Binary64 (round64)

/-! ## The wasm core -/

/-- What a call may throw: a string made by the core, or an `Error`. -/
inductive JsError
  | text (msg : String)
  | core (e : Rust.AnonymusError)
  | error (msg : String)
  | typeError
  | rangeError
deriving DecidableEq, Repr

/-- The crates below `core/rust/src/crypto`, and the browser's `TextDecoder`. -/
structure Platform where
  /-- `StaticKeypair::dh`, which never fails. -/
  dh : Bytes 32 → Bytes 32 → Bytes 32
  hkdf : Rust.Hkdf
  /-- `Aes256Gcm::encrypt`, which refuses nothing that fits into memory. -/
  gcmEncrypt : (key : Bytes 32) → (nonce : Bytes 12) → (plaintext : List UInt8) → List UInt8
  gcmDecrypt : (key : Bytes 32) → (nonce ciphertext : List UInt8) →
    Except Rust.AnonymusError (List UInt8)
  textDecode : List UInt8 → String

/-- `try_into` an array of 32 bytes. -/
def array32 (data : List UInt8) (msg : String) : Except JsError (Bytes 32) :=
  if h : data.length = 32 then .ok ⟨data, h⟩ else .error (.text msg)

section

variable (W : Platform)

def x25519Dh (privateKey peerPublicKey : List UInt8) : Except JsError (List UInt8) := do
  let privArr ← array32 privateKey "private key must be 32 bytes"
  let pubArr ← array32 peerPublicKey "peer public key must be 32 bytes"
  return (W.dh privArr pubArr).1

def hkdfDerive (ikm info : List UInt8) (outputLen : ℕ) (salt : Option (List UInt8)) :
    Except JsError (List UInt8) :=
  match Rust.derive W.hkdf ikm salt info outputLen with
  | .ok out => .ok out.1
  | .error e => .error (.core e)

/-- `nonce || ciphertext`. -/
def aeadEncrypt (key plaintext : List UInt8) (nonce : Bytes 12) : Except JsError (List UInt8) := do
  let key ← array32 key "key must be 32 bytes"
  return nonce.1 ++ W.gcmEncrypt key nonce plaintext

def aeadDecrypt (key blob : List UInt8) : Except JsError (List UInt8) := do
  let key ← array32 key "key must be 32 bytes"
  if blob.length < 12 + 16 then
    throw (.core (.decrypt "ciphertext too short"))
  match W.gcmDecrypt key (blob.take 12) (blob.drop 12) with
  | .ok plaintext => return plaintext
  | .error e => throw (.core e)

/-! ## Session state -/

structure DoubleRatchetSession where
  dhPrivateKey       : Option (List UInt8)
  dhPublicKey        : Option (List UInt8)
  dhRemotePublicKey  : Option (List UInt8)
  rootKey            : Option (List UInt8)
  sendingChainKey    : Option (List UInt8)
  receivingChainKey  : Option (List UInt8)
  seqSend            : ℕ
  seqRecv            : ℕ
  prevChainLength    : ℕ
  skippedMessageKeys : Dict (List Char) (List Char)
deriving DecidableEq

/-- What `generateIdentityKeypair` returns. -/
structure KeyPair where
  privateKey : Bytes 32
  publicKey  : Bytes 32

def rootInfo : List UInt8 := "AnonyMus-DR-RootRatchet".toUTF8.toList
def chainInfo : List UInt8 := "AnonyMus-DR-ChainRatchet".toUTF8.toList

/-- A session before any key is set. -/
def DoubleRatchetSession.fresh : DoubleRatchetSession where
  dhPrivateKey := none
  dhPublicKey := none
  dhRemotePublicKey := none
  rootKey := none
  sendingChainKey := none
  receivingChainKey := none
  seqSend := 0
  seqRecv := 0
  prevChainLength := 0
  skippedMessageKeys := Dict.empty

/-- `slice(0, 32)` and `slice(32, 64)` of 64 derived bytes. -/
def deriveHalves (ikm info salt : List UInt8) : Except JsError (List UInt8 × List UInt8) := do
  let derived ← hkdfDerive W ikm info 64 (some salt)
  return (derived.take 32, (derived.take 64).drop 32)

/-- The root key and the chain key after a DH output. -/
def rootStep (rootKey dhOut : List UInt8) : Except JsError (List UInt8 × List UInt8) :=
  deriveHalves W dhOut rootInfo rootKey

/-- The message key and the next chain key. -/
def chainStep (chainKey : List UInt8) : Except JsError (List UInt8 × List UInt8) :=
  deriveHalves W (List.replicate 32 0) chainInfo chainKey

/-- The key of a skipped message: a template string of the peer key and the number. -/
def skipKey (peerDhPub : List UInt8) (seq : ℤ) : List Char :=
  b64encode peerDhPub ++ '_' :: (toString seq).toList

/-- `fromHex`, where every two characters are hexadecimal digits. -/
def bytesOfHex (hex : List Char) : List UInt8 := (fromHex hex).getD []

def initAlice (sharedSecret peerDhPub : List UInt8) (keyPair : KeyPair) :
    Except JsError DoubleRatchetSession := do
  let dhOut ← x25519Dh W keyPair.privateKey.1 peerDhPub
  let (rootKey, sendingChainKey) ← rootStep W sharedSecret dhOut
  return { DoubleRatchetSession.fresh with
    dhPrivateKey := some keyPair.privateKey.1
    dhPublicKey := some keyPair.publicKey.1
    dhRemotePublicKey := some peerDhPub
    rootKey := some rootKey
    sendingChainKey := some sendingChainKey }

def initBob (sharedSecret myDhPriv : List UInt8) : DoubleRatchetSession :=
  { DoubleRatchetSession.fresh with dhPrivateKey := some myDhPriv, rootKey := some sharedSecret }

/-! ## Sending -/

/-- What `encrypt` returns. -/
structure Sealed where
  ciphertextB64 : List Char
  ivB64         : List Char
  dhPubB64      : List Char
  seq           : ℕ
  prevChainLen  : ℕ
deriving DecidableEq

/-- The length of the text, the text, and random bytes up to a multiple of 2048. -/
def pad (plaintext : String) (random : (n : ℕ) → Bytes n) : List UInt8 :=
  let textBytes := plaintext.toUTF8.toList
  let len := textBytes.length
  -- the loop adds blocks until the length and the text fit
  let blockSize := (len + 4 + 2047) / 2048 * 2048
  be32 (UInt32.ofNat len) ++ textBytes ++ (random (blockSize - 4 - len)).1

def encrypt (plaintext : String) (random : (n : ℕ) → Bytes n) (nonce : Bytes 12) :
    EStateM JsError DoubleRatchetSession Sealed := do
  match (← get).sendingChainKey with
  | none => throw (.error "Sending chain key not initialized")
  | some sendingChainKey =>
    let (messageKey, chainKey) ← ofExcept (chainStep W sendingChainKey)
    modify fun s => { s with sendingChainKey := some chainKey }
    let encryptedBytes ← ofExcept (aeadEncrypt W messageKey (pad plaintext random) nonce)
    let iv := encryptedBytes.take 12
    let ciphertext := encryptedBytes.drop 12
    let seq := (← get).seqSend
    modify fun s => { s with seqSend := round64 (s.seqSend + 1) }
    match (← get).dhPublicKey with
    | none => throw .typeError
    | some dhPublicKey =>
      return ⟨b64encode ciphertext, b64encode iv, b64encode dhPublicKey, seq,
        (← get).prevChainLength⟩

/-! ## Receiving -/

/-- The body of the loop of `skipMessages`. -/
def skipRound : EStateM JsError DoubleRatchetSession Unit := do
  match (← get).receivingChainKey with
  | none => return
  | some receivingChainKey =>
    let (msgKey, chainKey) ← ofExcept (chainStep W receivingChainKey)
    modify fun s => { s with receivingChainKey := some chainKey }
    match (← get).dhRemotePublicKey with
    | none => throw (.error "Remote DH public key not set for skipped messages")
    | some dhRemotePublicKey =>
      modify fun s => { s with
        skippedMessageKeys := if 1000 ≤ s.skippedMessageKeys.size
          then s.skippedMessageKeys.dropOldest else s.skippedMessageKeys }
      modify fun s => { s with
        skippedMessageKeys :=
          s.skippedMessageKeys.insert (skipKey dhRemotePublicKey s.seqRecv) (toHex msgKey) }
      modify fun s => { s with seqRecv := round64 (s.seqRecv + 1) }

/-- `while (this.seqRecv < untilSeq)`, in at most `fuel` rounds: the number
grows in every round as long as it is exact. -/
def skipLoop (untilSeq : ℤ) : ℕ → EStateM JsError DoubleRatchetSession Unit
  | 0 => return
  | fuel + 1 => do
    if ((← get).seqRecv : ℤ) < untilSeq then
      skipRound W
      skipLoop untilSeq fuel

def skipMessages (untilSeq : ℤ) : EStateM JsError DoubleRatchetSession Unit := do
  let s ← get
  match s.receivingChainKey with
  | none => return
  | some _ =>
    if (round64 (s.seqRecv + 100) : ℤ) < untilSeq then
      throw (.error "Too many skipped messages")
    skipLoop W untilSeq (untilSeq - s.seqRecv).toNat

/-- The DH ratchet step of `decrypt`, once the old chain has been skipped. -/
def ratchetStep (peerDhPub : List UInt8) (keyPair : KeyPair) :
    EStateM JsError DoubleRatchetSession Unit := do
  modify fun s => { s with dhRemotePublicKey := some peerDhPub }
  let s ← get
  match s.dhPrivateKey, s.rootKey with
  | some dhPrivateKey, some rootKey =>
    let dhOut1 ← ofExcept (x25519Dh W dhPrivateKey peerDhPub)
    let (rootKey, receivingChainKey) ← ofExcept (rootStep W rootKey dhOut1)
    modify fun s => { s with
      rootKey := some rootKey, receivingChainKey := some receivingChainKey }
    modify fun s => { s with
      dhPrivateKey := some keyPair.privateKey.1, dhPublicKey := some keyPair.publicKey.1 }
    let dhOut2 ← ofExcept (x25519Dh W keyPair.privateKey.1 peerDhPub)
    let (rootKey, sendingChainKey) ← ofExcept (rootStep W rootKey dhOut2)
    modify fun s => { s with rootKey := some rootKey, sendingChainKey := some sendingChainKey }
    modify fun s => { s with prevChainLength := s.seqSend, seqSend := 0, seqRecv := 0 }
  | _, _ => throw (.error "Decryption keys not fully initialized")

/-- The inner `if` block of `decrypt`. -/
def turnTo (peerDhPub : List UInt8) (prevChainLen : ℤ) (keyPair : KeyPair) :
    EStateM JsError DoubleRatchetSession Unit := do
  if (← get).dhRemotePublicKey ≠ some peerDhPub then
    skipMessages W prevChainLen
    ratchetStep W peerDhPub keyPair

/-- One step of the receiving chain. -/
def takeKey : EStateM JsError DoubleRatchetSession (List UInt8) := do
  match (← get).receivingChainKey with
  | none => throw (.error "Receiving chain key not initialized")
  | some receivingChainKey =>
    let (messageKey, chainKey) ← ofExcept (chainStep W receivingChainKey)
    modify fun s => { s with
      receivingChainKey := some chainKey, seqRecv := round64 (s.seqRecv + 1) }
    return messageKey

/-- `decrypt` up to the message key. -/
def receiveKey (peerDhPub : List UInt8) (seq prevChainLen : ℤ) (keyPair : KeyPair) :
    EStateM JsError DoubleRatchetSession (List UInt8) := do
  match (← get).skippedMessageKeys.get? (skipKey peerDhPub seq) with
  -- an empty string is no stored key
  | some (c :: rest) =>
    modify fun s => { s with
      skippedMessageKeys := s.skippedMessageKeys.erase (skipKey peerDhPub seq) }
    return bytesOfHex (c :: rest)
  | _ =>
    turnTo W peerDhPub prevChainLen keyPair
    skipMessages W seq
    takeKey W

/-- `decrypt` from the message key on. -/
def openText (messageKey iv ciphertext : List UInt8) : Except JsError String := do
  let decryptedBytes ← aeadDecrypt W messageKey (iv ++ ciphertext)
  if decryptedBytes.length < 4 then
    throw .rangeError
  let len := (ofBe32 (decryptedBytes.take 4)).toNat
  if (decryptedBytes.length : ℤ) - 4 < len then
    throw (.error "Decrypted length header exceeds message buffer bounds.")
  return W.textDecode ((decryptedBytes.drop 4).take len)

def decrypt (peerDhPub iv ciphertext : List UInt8) (seq prevChainLen : ℤ) (keyPair : KeyPair) :
    EStateM JsError DoubleRatchetSession String := do
  let messageKey ← receiveKey W peerDhPub seq prevChainLen keyPair
  ofExcept (openText W messageKey iv ciphertext)

end

/-! ## Stored form -/

/-- The object that `serialize` turns into text. `JSON.parse` returns what
`JSON.stringify` was given: strings, exact numbers, and entries in their order. -/
structure SessionJson where
  dhPrivateKey       : Option (List Char)
  dhPublicKey        : Option (List Char)
  dhRemotePublicKey  : Option (List Char)
  rootKey            : Option (List Char)
  sendingChainKey    : Option (List Char)
  receivingChainKey  : Option (List Char)
  seqSend            : ℕ
  seqRecv            : ℕ
  prevChainLength    : ℕ
  skippedMessageKeys : Dict (List Char) (List Char)

def serialize (s : DoubleRatchetSession) : SessionJson where
  dhPrivateKey := s.dhPrivateKey.map toHex
  dhPublicKey := s.dhPublicKey.map toHex
  dhRemotePublicKey := s.dhRemotePublicKey.map toHex
  rootKey := s.rootKey.map toHex
  sendingChainKey := s.sendingChainKey.map toHex
  receivingChainKey := s.receivingChainKey.map toHex
  seqSend := s.seqSend
  seqRecv := s.seqRecv
  prevChainLength := s.prevChainLength
  skippedMessageKeys := s.skippedMessageKeys

/-- `text ? fromHex(text) : null`, where an empty text counts as absent. -/
def readHex : Option (List Char) → Option (List UInt8)
  | some (c :: rest) => some (bytesOfHex (c :: rest))
  | _ => none

def deserialize (obj : SessionJson) : DoubleRatchetSession where
  dhPrivateKey := readHex obj.dhPrivateKey
  dhPublicKey := readHex obj.dhPublicKey
  dhRemotePublicKey := readHex obj.dhRemotePublicKey
  rootKey := readHex obj.rootKey
  sendingChainKey := readHex obj.sendingChainKey
  receivingChainKey := readHex obj.receivingChainKey
  seqSend := obj.seqSend
  seqRecv := obj.seqRecv
  prevChainLength := obj.prevChainLength
  skippedMessageKeys := obj.skippedMessageKeys

end AnonyMus.Web
