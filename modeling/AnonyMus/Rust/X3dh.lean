import AnonyMus.Rust.Crypto

/-!
# Rust core — X3DH

`x3dh_initiate` and `x3dh_respond` of `core/rust/src/protocol/double_ratchet.rs`
on byte strings. The curve and the signature check come from third-party crates
and are parameters; the ephemeral key pair that would be generated is an
argument.

* `x3dhIkm` — the key material both functions feed to HKDF;
* `x3dh_agree_iff` — the two sides agree exactly when the ephemeral key pair is
  Alice's identity key pair;
* `x3dh_disagree` — a handshake in which they do not.
-/

namespace AnonyMus.Rust

/-- Bob's published pre-key bundle (used by Alice to initiate X3DH). -/
structure PreKeyBundle where
  identityPublic       : Bytes 32
  signedPrekeyPublic   : Bytes 32
  signedPrekeySig      : Bytes 64
  oneTimePrekeyPublic  : Option (Bytes 32)

/-- Result of a successful X3DH key agreement for Alice (initiator). -/
structure X3dhInitResult where
  sharedSecret    : Bytes 32
  ephemeralPublic : Bytes 32
  opkIndex        : Option ℕ
deriving DecidableEq

def x3dhSalt : List UInt8 := "AnonyMus v3 X3DH".toUTF8.toList
def x3dhInfo : List UInt8 := "AnonyMus v3 X3DH shared".toUTF8.toList

/-- Concatenate the DH outputs behind 32 × 0xFF. -/
def x3dhIkm (dh1 dh2 dh3 : Bytes 32) (dh4 : Option (Bytes 32)) : List UInt8 :=
  List.replicate 32 0xFF ++ dh1.1 ++ dh2.1 ++ dh3.1 ++ (dh4.map Subtype.val).getD []

section

variable {Priv : Type} (hk : Hkdf) (publicBytes : Priv → Bytes 32)
  (dh : Priv → Bytes 32 → Bytes 32)
  (verify : (publicKey message : Bytes 32) → (signature : Bytes 64) →
    Except AnonymusError Unit)

def x3dhInitiate (aliceIdentity : Priv) (_aliceIdentityEd : Bytes 32) (bundle : PreKeyBundle)
    (eph : Priv) : Except AnonymusError X3dhInitResult := do
  verify bundle.identityPublic bundle.signedPrekeyPublic bundle.signedPrekeySig
  let ephPub := publicBytes eph
  let dh1 := dh aliceIdentity bundle.signedPrekeyPublic
  -- `dh2_kp` and `dh4_kp` are restored from the private bytes of `alice_identity`
  let dh2 := dh aliceIdentity bundle.identityPublic
  let dh3 := dh eph bundle.signedPrekeyPublic
  let dh4 := bundle.oneTimePrekeyPublic.map fun opk => dh aliceIdentity opk
  let opkIndex := bundle.oneTimePrekeyPublic.map fun _ => 0
  let sharedSecret ← derive32 hk (x3dhIkm dh1 dh2 dh3 dh4) (some x3dhSalt) x3dhInfo
  return { sharedSecret := sharedSecret, ephemeralPublic := ephPub, opkIndex := opkIndex }

def x3dhRespond (bobIdentity bobSignedPrekey : Priv)
    (aliceIdentityPublic aliceEphemeralPublic : Bytes 32) (oneTimePrekey : Option Priv) :
    Except AnonymusError (Bytes 32) :=
  let dh1 := dh bobSignedPrekey aliceIdentityPublic
  let dh2 := dh bobIdentity aliceEphemeralPublic
  let dh3 := dh bobSignedPrekey aliceEphemeralPublic
  let dh4 := oneTimePrekey.map fun opk => dh opk aliceEphemeralPublic
  derive32 hk (x3dhIkm dh1 dh2 dh3 dh4) (some x3dhSalt) x3dhInfo

/-! ## Agreement -/

/-- The key material determines the three or four DH outputs. -/
theorem x3dhIkm_injective {dh1 dh2 dh3 dh1' dh2' dh3' : Bytes 32}
    {dh4 dh4' : Option (Bytes 32)}
    (h : x3dhIkm dh1 dh2 dh3 dh4 = x3dhIkm dh1' dh2' dh3' dh4') :
    dh1 = dh1' ∧ dh2 = dh2' ∧ dh3 = dh3' ∧ dh4 = dh4' := by
  simp only [x3dhIkm, List.append_assoc] at h
  obtain ⟨-, h⟩ := List.append_inj h rfl
  obtain ⟨h1, h⟩ := List.append_inj h (dh1.2.trans dh1'.2.symm)
  obtain ⟨h2, h⟩ := List.append_inj h (dh2.2.trans dh2'.2.symm)
  obtain ⟨h3, h4⟩ := List.append_inj h (dh3.2.trans dh3'.2.symm)
  refine ⟨Subtype.ext h1, Subtype.ext h2, Subtype.ext h3, ?_⟩
  -- an output is never empty
  cases dh4 with
  | none =>
    cases dh4' with
    | none => rfl
    | some d => exact absurd (congrArg List.length h4) (by simp [d.2])
  | some d =>
    cases dh4' with
    | none => exact absurd (congrArg List.length h4) (by simp [d.2])
    | some d' => exact congrArg some (Subtype.ext h4)

variable {hk publicBytes dh verify}

/-- Behind the signature check nothing fails. -/
theorem x3dhInitiate_of_verify {aliceIdentity eph : Priv} {aliceIdentityEd : Bytes 32}
    {bundle : PreKeyBundle}
    (hverify : verify bundle.identityPublic bundle.signedPrekeyPublic
      bundle.signedPrekeySig = .ok ()) :
    x3dhInitiate hk publicBytes dh verify aliceIdentity aliceIdentityEd bundle eph = .ok
      { sharedSecret := hk (x3dhIkm (dh aliceIdentity bundle.signedPrekeyPublic)
          (dh aliceIdentity bundle.identityPublic) (dh eph bundle.signedPrekeyPublic)
          (bundle.oneTimePrekeyPublic.map fun opk => dh aliceIdentity opk))
          (some x3dhSalt) x3dhInfo 32
        ephemeralPublic := publicBytes eph
        opkIndex := bundle.oneTimePrekeyPublic.map fun _ => 0 } := by
  rw [x3dhInitiate, hverify]
  rfl

/-- Two private keys agree with every key pair, or with none. -/
theorem dh_eq_iff (hcomm : ∀ x y, dh x (publicBytes y) = dh y (publicBytes x))
    (hcancel : ∀ x y z, dh x (publicBytes z) = dh y (publicBytes z) →
      publicBytes x = publicBytes y) (x y z : Priv) :
    dh x (publicBytes z) = dh y (publicBytes z) ↔ publicBytes x = publicBytes y :=
  ⟨hcancel x y z, fun h => by rw [hcomm x z, hcomm y z, h]⟩

/-- **When X3DH agrees.** For genuine bundles, with or without a one-time
pre-key, and where HKDF does not collide, the two secrets are equal exactly when
Alice's ephemeral public key is her identity public key: DH2 and DH4 are
computed with the identity key on one side and the ephemeral key on the other. -/
theorem x3dh_agree_iff
    (hcomm : ∀ x y, dh x (publicBytes y) = dh y (publicBytes x))
    (hcancel : ∀ x y z, dh x (publicBytes z) = dh y (publicBytes z) →
      publicBytes x = publicBytes y)
    (ikA ekA ikB spkB : Priv) (opkB : Option Priv) (ikAEd : Bytes 32) (bundle : PreKeyBundle)
    (hverify : verify bundle.identityPublic bundle.signedPrekeyPublic
      bundle.signedPrekeySig = .ok ())
    (hik : bundle.identityPublic = publicBytes ikB)
    (hspk : bundle.signedPrekeyPublic = publicBytes spkB)
    (hopk : bundle.oneTimePrekeyPublic = opkB.map publicBytes)
    (hcollision : ∀ ikm ikm',
      ikm = x3dhIkm (dh ikA (publicBytes spkB)) (dh ikA (publicBytes ikB))
        (dh ekA (publicBytes spkB)) (opkB.map fun opk => dh ikA (publicBytes opk)) →
      ikm' = x3dhIkm (dh spkB (publicBytes ikA)) (dh ikB (publicBytes ekA))
        (dh spkB (publicBytes ekA)) (opkB.map fun opk => dh opk (publicBytes ekA)) →
      hk ikm (some x3dhSalt) x3dhInfo 32 = hk ikm' (some x3dhSalt) x3dhInfo 32 → ikm = ikm') :
    ∃ r, x3dhInitiate hk publicBytes dh verify ikA ikAEd bundle ekA = .ok r ∧
      (x3dhRespond hk dh ikB spkB (publicBytes ikA) r.ephemeralPublic opkB =
          .ok r.sharedSecret ↔
        publicBytes ekA = publicBytes ikA) := by
  refine ⟨_, x3dhInitiate_of_verify hverify, ?_⟩
  -- an exchange with one's own key on one side only cancels
  have hiff := dh_eq_iff hcomm hcancel
  simp only [x3dhRespond, derive32, derive_ok hk _ _ _ (by decide : 0 < 32) (by decide),
    Except.ok.injEq, hik, hspk, hopk, Option.map_map, Function.comp_def]
  constructor
  · intro heq
    -- HKDF does not collide on these two inputs, so their parts are equal; the second
    -- tells
    obtain ⟨-, h2, -, -⟩ := x3dhIkm_injective (hcollision _ _ rfl rfl heq.symm)
    rw [hcomm ikB ekA] at h2
    exact ((hiff ikA ekA ikB).mp h2).symm
  · intro hpub
    -- conversely, all four exchanges agree
    have h2 := (hiff ekA ikA ikB).mpr hpub
    have h4 : (opkB.map fun opk => dh opk (publicBytes ekA)) =
        opkB.map fun opk => dh ikA (publicBytes opk) := by
      cases opkB with
      | none => rfl
      | some opk => rw [Option.map_some, Option.map_some, hpub, hcomm]
    rw [h4, hcomm spkB ikA, hcomm ikB ekA, h2, hcomm spkB ekA]

end

/-! ## A handshake -/

/-- The private key `x` has 32 bytes `x` as its public key. -/
def samplePublic (x : UInt8) : Bytes 32 := Bytes.replicate 32 x

/-- A commutative exchange that tells private keys apart. -/
def sampleDh (x : UInt8) (y : Bytes 32) : Bytes 32 := Bytes.replicate 32 (x + y.1.headD 0)

/-- Keeps the DH outputs from the second one on. -/
def sampleHkdf : Hkdf := fun ikm _ _ len =>
  ⟨(ikm.drop 64 ++ List.replicate len 0).take len, by simp⟩

def sampleVerify (_ _ : Bytes 32) (_ : Bytes 64) : Except AnonymusError Unit := .ok ()

/-- Bob's bundle for the identity key 3, the signed pre-key 4 and the one-time
pre-key `opk`. -/
def sampleBundle (opk : Option UInt8) : PreKeyBundle :=
  ⟨samplePublic 3, samplePublic 4, Bytes.replicate 64 0, opk.map samplePublic⟩

/-- With the identity key 1 and the ephemeral key 2, Alice and Bob end up with
different secrets, with and without a one-time pre-key. -/
theorem x3dh_disagree :
    (∃ r, x3dhInitiate sampleHkdf samplePublic sampleDh sampleVerify 1 (samplePublic 0)
        (sampleBundle none) 2 = .ok r ∧
      x3dhRespond sampleHkdf sampleDh 3 4 (samplePublic 1) r.ephemeralPublic none ≠
        .ok r.sharedSecret) ∧
    ∃ r, x3dhInitiate sampleHkdf samplePublic sampleDh sampleVerify 1 (samplePublic 0)
        (sampleBundle (some 5)) 2 = .ok r ∧
      x3dhRespond sampleHkdf sampleDh 3 4 (samplePublic 1) r.ephemeralPublic (some 5) ≠
        .ok r.sharedSecret :=
  ⟨⟨_, rfl, by decide⟩, _, rfl, by decide⟩

theorem x3dh_agree_iff_sample :
    ∃ r, x3dhInitiate sampleHkdf samplePublic sampleDh sampleVerify 1 (samplePublic 0)
        (sampleBundle (some 5)) 2 = .ok r ∧
      (x3dhRespond sampleHkdf sampleDh 3 4 (samplePublic 1) r.ephemeralPublic (some 5) =
          .ok r.sharedSecret ↔ samplePublic 2 = samplePublic 1) := by
  refine x3dh_agree_iff ?_ ?_ 1 2 3 4 (some 5) (samplePublic 0) (sampleBundle (some 5))
    rfl rfl rfl rfl ?_
  · intro x y
    simp [sampleDh, samplePublic, Bytes.replicate, List.replicate_succ, UInt8.add_comm]
  · intro x y z h
    simpa [sampleDh, samplePublic, Bytes.replicate, List.replicate_succ] using h
  · rintro _ _ rfl rfl h
    exact absurd h (by decide)

end AnonyMus.Rust
