import AnonyMus.Rust.Crypto

/-!
# Rust core — symbolic primitives

The free instance of `Primitives`: a key is the expression that derives it, a
shared secret the unordered pair of the two keys, and a ciphertext carries the
key and the associated data it was made with. Distinct derivations give
distinct keys by construction, so this is where the assumptions of the session
results are seen to hold together.

* `Term`, `Term.encode` — the expressions, and their bytes;
* `symbolic` — the instance;
* `symbolic.dh_comm` — both sides have one shared secret;
* `symbolic.decrypt_encrypt` — a ciphertext opens under its key and associated data.
-/

namespace AnonyMus.Rust

/-- A key as the expression that derives it. -/
inductive Term
  | secret
  | seed (k : Term)
  | root (k : Term) (dh : UInt8 × UInt8)
  | chain (k : Term) (dh : UInt8 × UInt8)
  | message (k : Term)
  | next (k : Term)
deriving DecidableEq

namespace Term

def encode : Term → List UInt8
  | secret => [0]
  | seed k => 1 :: k.encode
  | root k dh => 2 :: dh.1 :: dh.2 :: k.encode
  | chain k dh => 3 :: dh.1 :: dh.2 :: k.encode
  | message k => 4 :: k.encode
  | next k => 5 :: k.encode

end Term

/-- The private key `x` has the public key of 32 bytes `x`. -/
def symbolic : Primitives UInt8 (UInt8 × UInt8) Term Unit where
  publicBytes x := Bytes.replicate 32 x
  dh x y := let y := y.1.headD 0; if x ≤ y then (x, y) else (y, x)
  rootSeed := .seed
  kdfRk rk d := (.root rk d, .chain rk d)
  fromChain ck := (.message ck, .next ck)
  deriveNonce _ := ()
  encryptWithNonce k _ plaintext aad := .ok (k.encode ++ aad ++ plaintext)
  decryptWithNonce k _ ciphertext aad :=
    let tag := k.encode ++ aad
    if ciphertext.take tag.length = tag then .ok (ciphertext.drop tag.length)
    else .error (.decrypt "aead::Error")

namespace symbolic

theorem dh_comm (x y : UInt8) :
    symbolic.dh x (symbolic.publicBytes y) = symbolic.dh y (symbolic.publicBytes x) := by
  change (if x ≤ y then (x, y) else (y, x)) = if y ≤ x then (y, x) else (x, y)
  by_cases hxy : x ≤ y
  · by_cases hyx : y ≤ x
    · rw [UInt8.le_antisymm hxy hyx]
    · rw [if_pos hxy, if_neg hyx]
  · rw [if_neg hxy, if_pos ((UInt8.le_total x y).resolve_left hxy)]

theorem decrypt_encrypt (k : Term) (nonce : Unit) (plaintext aad ciphertext : List UInt8)
    (h : symbolic.encryptWithNonce k nonce plaintext aad = .ok ciphertext) :
    symbolic.decryptWithNonce k nonce ciphertext aad = .ok plaintext := by
  obtain rfl := Except.ok.inj h
  simp only [symbolic, List.take_left, List.drop_left, if_true]

end symbolic

end AnonyMus.Rust
