import AnonyMus.Lib.Bytes

/-!
# Rust core — cryptographic primitives

The primitives of `core/rust/src/crypto` as the protocol code sees them. The
curve, the hash and the cipher come from third-party crates and are parameters;
`hkdf.rs`, which is this repository's, is modelled on top of the crate's
extract-and-expand.

* `Hkdf`, `derive`, `derive32`, `derive64` — `crypto/hkdf.rs`;
* `Primitives` — everything a ratchet session calls, over arbitrary types of
  keys, so that results hold for byte strings and for symbolic keys alike;
* `kdfRk`, `fromChain`, `deriveNonce` — the derivations of
  `protocol/double_ratchet.rs` on byte strings, and `Primitives.ofHkdf`, the
  primitives they make up.
-/

namespace AnonyMus.Rust

/-- The error type of the crate. -/
inductive AnonymusError
  | encrypt (msg : String)
  | decrypt (msg : String)
  | kdf (msg : String)
  | invalidKey (msg : String)
  | badSignature
  | internal (msg : String)
deriving DecidableEq, Repr

/-! ## HKDF-SHA256 -/

/-- `Hkdf::<Sha256>::new(salt, ikm)` expanded under `info` to `len` bytes. -/
abbrev Hkdf := (ikm : List UInt8) → (salt : Option (List UInt8)) → (info : List UInt8) →
  (len : ℕ) → Bytes len

def maxOutputLen : ℕ := 255 * 32

def derive (hk : Hkdf) (ikm : List UInt8) (salt : Option (List UInt8)) (info : List UInt8)
    (outputLen : ℕ) : Except AnonymusError (Bytes outputLen) :=
  if outputLen = 0 ∨ maxOutputLen < outputLen then
    .error (.kdf s!"output_len must be in 1..={maxOutputLen}, got {outputLen}")
  else .ok (hk ikm salt info outputLen)

def derive32 (hk : Hkdf) (ikm : List UInt8) (salt : Option (List UInt8)) (info : List UInt8) :
    Except AnonymusError (Bytes 32) :=
  derive hk ikm salt info 32

def derive64 (hk : Hkdf) (ikm : List UInt8) (salt : Option (List UInt8)) (info : List UInt8) :
    Except AnonymusError (Bytes 64) :=
  derive hk ikm salt info 64

/-- An admissible length never fails. -/
theorem derive_ok (hk : Hkdf) (ikm : List UInt8) (salt : Option (List UInt8))
    (info : List UInt8) {len : ℕ} (h0 : 0 < len) (hmax : len ≤ maxOutputLen) :
    derive hk ikm salt info len = .ok (hk ikm salt info len) :=
  if_neg (by omega)

/-! ## What a session calls -/

/-- The primitives of a ratchet session. `Priv` are X25519 private keys, `Dh`
their shared secrets, `Key` the 32-byte root, chain and message keys, `Nonce`
the AEAD nonces. -/
structure Primitives (Priv Dh Key Nonce : Type) where
  /-- `StaticKeypair::public_bytes`. -/
  publicBytes : Priv → Bytes 32
  /-- `StaticKeypair::dh`, which never fails. -/
  dh : Priv → Bytes 32 → Dh
  /-- The seed of the root chain, from the X3DH secret. -/
  rootSeed : Key → Key
  kdfRk : Key → Dh → Key × Key
  fromChain : Key → Key × Key
  deriveNonce : Key → Nonce
  encryptWithNonce : Key → Nonce → (plaintext aad : List UInt8) → Except AnonymusError (List UInt8)
  decryptWithNonce : Key → Nonce → (ciphertext aad : List UInt8) → Except AnonymusError (List UInt8)

/-! ## The derivations on byte strings -/

def infoRoot : List UInt8 := "AnonyMus v3 DR root".toUTF8.toList
def infoChain : List UInt8 := "AnonyMus v3 DR chain".toUTF8.toList
def infoMsg : List UInt8 := "AnonyMus v3 DR msg".toUTF8.toList

/-- `MessageKey::from_chain`: the message key and the new chain key. -/
def fromChain (hk : Hkdf) (ck : Bytes 32) : Except AnonymusError (Bytes 32 × Bytes 32) := do
  let output ← derive64 hk ck.1 none infoChain
  let newCk := output.take 32
  let mk := output.drop 32
  return (mk, newCk)

/-- The new root key and the chain key. -/
def kdfRk (hk : Hkdf) (rk dhOutput : Bytes 32) : Except AnonymusError (Bytes 32 × Bytes 32) := do
  let out ← derive64 hk dhOutput.1 (some rk.1) infoRoot
  return (out.take 32, out.drop 32)

def deriveNonce (hk : Hkdf) (mk : Bytes 32) : Except AnonymusError (Bytes 12) :=
  derive hk mk.1 none infoMsg 12

/-- The primitives of the shipped code, over the third-party functions. -/
def Primitives.ofHkdf {Priv : Type} (hk : Hkdf) (publicBytes : Priv → Bytes 32)
    (dh : Priv → Bytes 32 → Bytes 32)
    (enc dec : Bytes 32 → Bytes 12 → List UInt8 → List UInt8 →
      Except AnonymusError (List UInt8)) :
    Primitives Priv (Bytes 32) (Bytes 32) (Bytes 12) where
  publicBytes := publicBytes
  dh := dh
  rootSeed ss := hk ss.1 none infoRoot 32
  kdfRk rk dhOutput :=
    let out := hk dhOutput.1 (some rk.1) infoRoot 64
    (out.take 32, out.drop 32)
  fromChain ck :=
    let output := hk ck.1 none infoChain 64
    (output.drop 32, output.take 32)
  deriveNonce mk := hk mk.1 none infoMsg 12
  encryptWithNonce := enc
  decryptWithNonce := dec

section

variable {Priv : Type} (hk : Hkdf) (publicBytes : Priv → Bytes 32)
  (dh : Priv → Bytes 32 → Bytes 32)
  (enc dec : Bytes 32 → Bytes 12 → List UInt8 → List UInt8 →
    Except AnonymusError (List UInt8))

/-- The derivations of the session never fail, and are those of
`Primitives.ofHkdf`. -/
theorem ofHkdf_derivations (rk dhOutput ck mk ss : Bytes 32) :
    kdfRk hk rk dhOutput =
        .ok ((Primitives.ofHkdf hk publicBytes dh enc dec).kdfRk rk dhOutput) ∧
      fromChain hk ck = .ok ((Primitives.ofHkdf hk publicBytes dh enc dec).fromChain ck) ∧
      deriveNonce hk mk =
        .ok ((Primitives.ofHkdf hk publicBytes dh enc dec).deriveNonce mk) ∧
      derive32 hk ss.1 none infoRoot =
        .ok ((Primitives.ofHkdf hk publicBytes dh enc dec).rootSeed ss) :=
  ⟨rfl, rfl, rfl, rfl⟩

end

end AnonyMus.Rust
