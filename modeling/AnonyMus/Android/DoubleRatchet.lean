import AnonyMus.Lib.Bytes
import AnonyMus.Lib.Dict
import AnonyMus.Lib.EState
import Mathlib.Algebra.Group.Int.Defs
import Std.Data.String.ToInt

/-!
# Android client — the double ratchet session

`DoubleRatchetSession.kt`. A `ByteArray` is a list of bytes and an `Int` wraps
around at 32 bits; a method is an `EStateM` action, so that an exception keeps
the assignments made before it. The providers of `XDH` and `HmacSHA256` are
parameters, and the key pair that the generator would return is an argument.

* `hkdfDerive512`, `x25519Dh` — the helpers of the companion object;
* `DoubleRatchetSession`, `initBob`, `encrypt`, `decrypt` — the code.
-/

namespace AnonyMus.Android

/-! ## Exceptions and providers -/

inductive KtException
  | nullPointer
  | illegalState (msg : String)
  | illegalArgument (msg : String)
  /-- From the key factory or the key agreement. -/
  | security (msg : String)
deriving DecidableEq, Repr

/-- The security providers of the platform. -/
structure Provider where
  /-- `KeyFactory` and `KeyAgreement` of `XDH`, on encoded keys. -/
  xdh : (pkcs8 spki : List UInt8) → Except KtException (List UInt8)
  hmac : (key data : List UInt8) → Bytes 32

/-- The sum of two `Int`s: 32 bits, wrapping around. -/
def int32 (x : ℤ) : ℤ := x.bmod (2 ^ 32)

def spkiHeader : List UInt8 :=
  [0x30, 0x2a, 0x30, 0x05, 0x06, 0x03, 0x2b, 0x65, 0x6e, 0x03, 0x21, 0x00]

def pkcs8Header : List UInt8 :=
  [0x30, 0x2e, 0x02, 0x01, 0x00, 0x30, 0x05, 0x06, 0x03, 0x2b, 0x65, 0x6e, 0x04, 0x22, 0x04, 0x20]

section

variable (P : Provider)

def x25519Dh (myPrivRaw theirPubRaw : List UInt8) : Except KtException (List UInt8) :=
  P.xdh (pkcs8Header ++ myPrivRaw) (spkiHeader ++ theirPubRaw)

/-- A `SecretKeySpec` is never empty. -/
def hmacSha256 (key data : List UInt8) : Except KtException (List UInt8) :=
  if key = [] then .error (.illegalArgument "Empty key") else .ok (P.hmac key data).1

/-- Extract, then two blocks of expand. -/
def hkdfDerive512 (ikm info salt : List UInt8) : Except KtException (List UInt8) := do
  let prk ← hmacSha256 P salt ikm
  let t1 ← hmacSha256 P prk (info ++ [0x01])
  let t2 ← hmacSha256 P prk (t1 ++ info ++ [0x02])
  return t1 ++ t2

/-- `fromHex`, where the characters are pairs of hexadecimal digits. -/
def bytesOfHex (hex : List Char) : List UInt8 := (fromHex hex).getD []

/-! ## Session state -/

structure DoubleRatchetSession where
  dhPrivateKeyBytes      : Option (List UInt8)
  dhPublicKeyBytes       : Option (List UInt8)
  dhRemotePublicKeyBytes : Option (List UInt8)
  rootKey                : Option (List UInt8)
  sendingChainKey        : Option (List UInt8)
  receivingChainKey      : Option (List UInt8)
  seqSend                : ℤ
  seqRecv                : ℤ
  prevChainLength        : ℤ
  skippedMessageKeys     : Dict (List Char) (List Char)
deriving DecidableEq

/-- The raw keys of a generated pair. -/
structure KeyPair where
  privateRaw : Bytes 32
  publicRaw  : Bytes 32

def rootInfo : List UInt8 := "AnonyMus-DR-RootRatchet".toUTF8.toList
def chainInfo : List UInt8 := "AnonyMus-DR-ChainRatchet".toUTF8.toList
def maxSkip : ℤ := 100

/-- `"${peerB64}_$seq"`. -/
def skipKey (peerDhPub : List UInt8) (seq : ℤ) : List Char :=
  b64encode peerDhPub ++ '_' :: (toString seq).toList

/-- `copyOfRange(0, 32)` and `copyOfRange(32, 64)` of 64 derived bytes. -/
def deriveHalves (ikm info salt : List UInt8) :
    Except KtException (List UInt8 × List UInt8) := do
  let derived ← hkdfDerive512 P ikm info salt
  return (derived.take 32, (derived.take 64).drop 32)

/-- Bob's session; `myDhPub` is what `deriveX25519PublicFromPrivate` returns. -/
def initBob (sharedSecret myDhPriv myDhPub : List UInt8) : DoubleRatchetSession where
  dhPrivateKeyBytes := some myDhPriv
  dhPublicKeyBytes := some myDhPub
  dhRemotePublicKeyBytes := none
  rootKey := some sharedSecret
  sendingChainKey := none
  receivingChainKey := none
  seqSend := 0
  seqRecv := 0
  prevChainLength := 0
  skippedMessageKeys := Dict.empty

/-! ## Encrypt step -/

structure EncryptStep where
  messageKey      : List UInt8
  myDhPublicBytes : List UInt8
  seq             : ℤ
  prevChainLen    : ℤ
deriving DecidableEq

def encrypt : EStateM KtException DoubleRatchetSession EncryptStep := do
  match (← get).sendingChainKey with
  | none => throw .nullPointer
  | some sendingChainKey =>
    let (messageKey, chainKey) ← ofExcept
      (deriveHalves P (List.replicate 32 0) chainInfo sendingChainKey)
    modify fun s => { s with sendingChainKey := some chainKey }
    let seq := (← get).seqSend
    modify fun s => { s with seqSend := int32 (s.seqSend + 1) }
    match (← get).dhPublicKeyBytes with
    | none => throw .nullPointer
    | some dhPublicKeyBytes => return ⟨messageKey, dhPublicKeyBytes, seq, (← get).prevChainLength⟩

/-! ## Decrypt step -/

/-- `while (seqRecv < untilSeq)`, in at most `fuel` rounds; the chain key is a
local variable. -/
def skipLoop (untilSeq : ℤ) :
    ℕ → List UInt8 → EStateM KtException DoubleRatchetSession (List UInt8)
  | 0, currentChain => return currentChain
  | fuel + 1, currentChain => do
    if (← get).seqRecv < untilSeq then
      let (msgKey, nextChain) ← ofExcept
        (deriveHalves P (List.replicate 32 0) chainInfo currentChain)
      match (← get).dhRemotePublicKeyBytes with
      | none => throw .nullPointer
      | some remote =>
        modify fun s => { s with
          skippedMessageKeys := s.skippedMessageKeys.insert (skipKey remote s.seqRecv)
            (toHex msgKey) }
        modify fun s => { s with seqRecv := int32 (s.seqRecv + 1) }
        skipLoop untilSeq fuel nextChain
    else return currentChain

def skipMessages (untilSeq : ℤ) : EStateM KtException DoubleRatchetSession Unit := do
  let s ← get
  match s.receivingChainKey with
  | none => return
  | some rck =>
    if int32 (s.seqRecv + maxSkip) < untilSeq then
      throw (.illegalState
        s!"Too many skipped messages ({untilSeq} - {s.seqRecv} > {maxSkip})")
    let currentChain ← skipLoop P untilSeq (untilSeq - s.seqRecv).toNat rck
    modify fun s => { s with receivingChainKey := some currentChain }

/-- The DH ratchet step of `decrypt`, once the old chain has been skipped. -/
def ratchetStep (peerDhPub : List UInt8) (kp : KeyPair) :
    EStateM KtException DoubleRatchetSession Unit := do
  modify fun s => { s with dhRemotePublicKeyBytes := some peerDhPub }
  match (← get).dhPrivateKeyBytes with
  | none => throw .nullPointer
  | some dhPrivateKeyBytes =>
    let dhOut1 ← ofExcept (x25519Dh P dhPrivateKeyBytes peerDhPub)
    match (← get).rootKey with
    | none => throw .nullPointer
    | some rootKey =>
      let (rootKey, receivingChainKey) ← ofExcept (deriveHalves P dhOut1 rootInfo rootKey)
      modify fun s => { s with
        rootKey := some rootKey, receivingChainKey := some receivingChainKey }
      modify fun s => { s with
        dhPrivateKeyBytes := some kp.privateRaw.1, dhPublicKeyBytes := some kp.publicRaw.1 }
      let dhOut2 ← ofExcept (x25519Dh P kp.privateRaw.1 peerDhPub)
      let (rootKey, sendingChainKey) ← ofExcept (deriveHalves P dhOut2 rootInfo rootKey)
      modify fun s => { s with rootKey := some rootKey, sendingChainKey := some sendingChainKey }
      modify fun s => { s with prevChainLength := s.seqSend, seqSend := 0, seqRecv := 0 }

/-- The `if (dhChanged)` block of `decrypt`. -/
def turnTo (peerDhPub : List UInt8) (prevChainLen : ℤ) (kp : KeyPair) :
    EStateM KtException DoubleRatchetSession Unit := do
  if (← get).dhRemotePublicKeyBytes ≠ some peerDhPub then
    skipMessages P prevChainLen
    ratchetStep P peerDhPub kp

/-- The last block of `decrypt`: one step of the receiving chain. -/
def takeKey : EStateM KtException DoubleRatchetSession (List UInt8) := do
  match (← get).receivingChainKey with
  | none => throw .nullPointer
  | some receivingChainKey =>
    let (messageKey, chainKey) ← ofExcept
      (deriveHalves P (List.replicate 32 0) chainInfo receivingChainKey)
    modify fun s => { s with
      receivingChainKey := some chainKey, seqRecv := int32 (s.seqRecv + 1) }
    return messageKey

def decrypt (peerDhPub : List UInt8) (seq prevChainLen : ℤ) (kp : KeyPair) :
    EStateM KtException DoubleRatchetSession (List UInt8) := do
  match (← get).skippedMessageKeys.get? (skipKey peerDhPub seq) with
  | some hex =>
    modify fun s => { s with
      skippedMessageKeys := s.skippedMessageKeys.erase (skipKey peerDhPub seq) }
    return bytesOfHex hex
  | none =>
    turnTo P peerDhPub prevChainLen kp
    skipMessages P seq
    takeKey P

end

/-- A sum that fits is exact. -/
theorem int32_of_lt {x : ℤ} (hlo : -2 ^ 31 ≤ x) (hhi : x < 2 ^ 31) : int32 x = x := by
  unfold int32
  rw [Int.bmod_eq_of_le] <;> omega

theorem int32_succ {n : ℕ} (h : n + 1 < 2 ^ 31) : int32 ((n : ℤ) + 1) = ((n + 1 : ℕ) : ℤ) := by
  rw [int32_of_lt (by omega) (by omega)]
  omega

end AnonyMus.Android
