import Mathlib.Data.Set.Function
import AnonyMus.Rust.PqRatchet
import AnonyMus.Rust.X3dh

/-!
# Rust core — PQXDH

`core/rust/src/protocol/x3dh.rs` on byte strings, over the KEM of
`crypto/ml_kem.rs`. Alice's ephemeral key pair and what the encapsulation draws
are arguments.

* `pqxdhIkm` — the key material both functions feed to HKDF, and that it is
  unambiguous;
* `pqxdh_agree_iff` — both sides derive the same secret exactly when both use
  the one-time key or both omit it.
-/

namespace AnonyMus.Rust

structure PqxdhInitiatorResult where
  sharedSecret      : Bytes 32
  aliceEphemeralPub : Bytes 32
  mlKemCiphertext   : List UInt8
deriving DecidableEq

def pqxdhInfo : List UInt8 := "PQXDHMasterSecret".toUTF8.toList

/-- The DH outputs one after the other, with the KEM secret behind them. -/
def pqxdhIkm (dh1 dh2 dh3 : Bytes 32) (dh4 : Option (Bytes 32)) (pqSecret : Bytes 32) :
    List UInt8 :=
  dh1.1 ++ dh2.1 ++ dh3.1 ++ (dh4.map Subtype.val).getD [] ++ pqSecret.1

variable {Priv Kp Seed : Type} (hk : Hkdf) (publicBytes : Priv → Bytes 32)
  (dh : Priv → Bytes 32 → Bytes 32) (K : Kem Kp Seed)

/-- Initiate PQXDH exchange as Alice. -/
def pqxdhInitiate (aliceIdentity : Priv) (bobIdentityPub bobSignedPrekeyPub : Bytes 32)
    (bobOneTimePrekeyPub : Option (Bytes 32)) (bobPqSignedPrekeyEk : List UInt8)
    (aliceEphemeral : Priv) (seed : Seed) : Except AnonymusError PqxdhInitiatorResult := do
  let aliceEphemeralPub := publicBytes aliceEphemeral
  let dh1 := dh aliceIdentity bobSignedPrekeyPub
  let dh2 := dh aliceEphemeral bobIdentityPub
  let dh3 := dh aliceEphemeral bobSignedPrekeyPub
  let dh4 := bobOneTimePrekeyPub.map fun otk => dh aliceEphemeral otk
  let (pqSecret, ct) ← K.encapsulate bobPqSignedPrekeyEk seed
  let sharedSecret ← derive32 hk (pqxdhIkm dh1 dh2 dh3 dh4 pqSecret) none pqxdhInfo
  return {
    sharedSecret := sharedSecret
    aliceEphemeralPub := aliceEphemeralPub
    mlKemCiphertext := ct }

/-- Respond to PQXDH exchange as Bob. -/
def pqxdhRespond (bobIdentity bobSignedPrekey : Priv) (bobOneTimePrekey : Option Priv)
    (bobPqSignedPrekeyDk : Kp) (aliceIdentityPub aliceEphemeralPub : Bytes 32)
    (mlKemCiphertext : List UInt8) : Except AnonymusError (Bytes 32) := do
  let dh1 := dh bobSignedPrekey aliceIdentityPub
  let dh2 := dh bobIdentity aliceEphemeralPub
  let dh3 := dh bobSignedPrekey aliceEphemeralPub
  let dh4 := bobOneTimePrekey.map fun otk => dh otk aliceEphemeralPub
  let pqSecret ← K.decapsulate bobPqSignedPrekeyDk mlKemCiphertext
  derive32 hk (pqxdhIkm dh1 dh2 dh3 dh4 pqSecret) none pqxdhInfo

/-! ## The key material -/

/-- The key material determines what went into it: its length tells whether
there was a fourth DH output. -/
theorem pqxdhIkm_injective {dh1 dh2 dh3 pq dh1' dh2' dh3' pq' : Bytes 32}
    {dh4 dh4' : Option (Bytes 32)}
    (h : pqxdhIkm dh1 dh2 dh3 dh4 pq = pqxdhIkm dh1' dh2' dh3' dh4' pq') :
    dh1 = dh1' ∧ dh2 = dh2' ∧ dh3 = dh3' ∧ dh4 = dh4' ∧ pq = pq' := by
  simp only [pqxdhIkm, List.append_assoc] at h
  obtain ⟨h1, h⟩ := List.append_inj h (dh1.2.trans dh1'.2.symm)
  obtain ⟨h2, h⟩ := List.append_inj h (dh2.2.trans dh2'.2.symm)
  obtain ⟨h3, h⟩ := List.append_inj h (dh3.2.trans dh3'.2.symm)
  have hlen := congrArg List.length h
  refine ⟨Subtype.ext h1, Subtype.ext h2, Subtype.ext h3, ?_⟩
  cases dh4 with
  | none =>
    cases dh4' with
    | none => exact ⟨rfl, Subtype.ext h⟩
    | some d => simp [d.2, pq.2, pq'.2] at hlen
  | some d =>
    cases dh4' with
    | none => simp [d.2, pq.2, pq'.2] at hlen
    | some d' =>
      obtain ⟨h4, hpq⟩ := List.append_inj h (d.2.trans d'.2.symm)
      exact ⟨congrArg some (Subtype.ext h4), Subtype.ext hpq⟩

/-! ## Agreement -/

variable {hk publicBytes dh K}

theorem pqxdhInitiate_eq_ok {aliceIdentity aliceEphemeral : Priv}
    {bobIdentityPub bobSignedPrekeyPub : Bytes 32} {bobOneTimePrekeyPub : Option (Bytes 32)}
    {ek : List UInt8} {seed : Seed} {r : PqxdhInitiatorResult}
    (h : pqxdhInitiate hk publicBytes dh K aliceIdentity bobIdentityPub bobSignedPrekeyPub
      bobOneTimePrekeyPub ek aliceEphemeral seed = .ok r) :
    ∃ pqSecret, K.encapsulate ek seed = .ok (pqSecret, r.mlKemCiphertext) ∧
      r.aliceEphemeralPub = publicBytes aliceEphemeral ∧
      r.sharedSecret = hk (pqxdhIkm (dh aliceIdentity bobSignedPrekeyPub)
        (dh aliceEphemeral bobIdentityPub) (dh aliceEphemeral bobSignedPrekeyPub)
        (bobOneTimePrekeyPub.map fun otk => dh aliceEphemeral otk) pqSecret) none pqxdhInfo 32 := by
  obtain ⟨⟨pqSecret, ct⟩, henc, hrest⟩ := EStateM.except_bind_eq_ok_iff.mp h
  obtain ⟨sharedSecret, hderive, hr⟩ := EStateM.except_bind_eq_ok_iff.mp hrest
  rw [← Except.ok.inj hr]
  exact ⟨pqSecret, henc, rfl, (Except.ok.inj hderive).symm⟩

/-- The one-time key, where a side uses it. -/
def oneTime {α : Type} (use : Bool) (otk : α) : Option α := if use then some otk else none

theorem oneTime_map {α β : Type} (use : Bool) (otk : α) (f : α → β) :
    (oneTime use otk).map f = oneTime use (f otk) := by
  cases use <;> rfl

theorem oneTime_eq_iff {α : Type} {use use' : Bool} {otk : α} :
    oneTime use otk = oneTime use' otk ↔ use = use' := by
  cases use <;> cases use' <;> simp [oneTime]

/-- **When PQXDH agrees.** Alice and Bob hold identity keys, Bob a signed
pre-key, a one-time key and a KEM key pair. The exchange is symmetric, the KEM
gives back what was encapsulated to that key pair, and HKDF tells apart the
inputs of a set that the key material of the two sides belongs to. Then Bob's
answer to a call of `pqxdhInitiate` derives a secret, and it is Alice's exactly
when both use the one-time key or both omit it. -/
theorem pqxdh_agree_iff
    (hcomm : ∀ x y, dh x (publicBytes y) = dh y (publicBytes x))
    (ikA ekA ikB spkB otkB : Priv) (kp : Kp) (seed : Seed) (aliceUses bobUses : Bool)
    (hkem : ∀ seed ss ct, K.encapsulate (K.ekBytes kp) seed = .ok (ss, ct) →
      K.decapsulate kp ct = .ok ss)
    (inputs : Set (List UInt8))
    (hhkdf : Set.InjOn (fun ikm => hk ikm none pqxdhInfo 32) inputs)
    (hinputs : ∀ ss ct use, K.encapsulate (K.ekBytes kp) seed = .ok (ss, ct) →
      pqxdhIkm (dh ikA (publicBytes spkB)) (dh ekA (publicBytes ikB)) (dh ekA (publicBytes spkB))
        (oneTime use (dh ekA (publicBytes otkB))) ss ∈ inputs)
    {r : PqxdhInitiatorResult}
    (hinitiate : pqxdhInitiate hk publicBytes dh K ikA (publicBytes ikB) (publicBytes spkB)
      (oneTime aliceUses (publicBytes otkB)) (K.ekBytes kp) ekA seed = .ok r) :
    ∃ secret, pqxdhRespond hk dh K ikB spkB (oneTime bobUses otkB) kp (publicBytes ikA)
        r.aliceEphemeralPub r.mlKemCiphertext = .ok secret ∧
      (secret = r.sharedSecret ↔ aliceUses = bobUses) := by
  obtain ⟨pqSecret, henc, hpub, hsecret⟩ := pqxdhInitiate_eq_ok hinitiate
  have hdec := hkem seed pqSecret _ henc
  -- Bob's DH outputs are Alice's, computed from the other end
  have hrespond : pqxdhRespond hk dh K ikB spkB (oneTime bobUses otkB) kp (publicBytes ikA)
      r.aliceEphemeralPub r.mlKemCiphertext =
        .ok (hk (pqxdhIkm (dh ikA (publicBytes spkB)) (dh ekA (publicBytes ikB))
          (dh ekA (publicBytes spkB)) (oneTime bobUses (dh ekA (publicBytes otkB))) pqSecret)
          none pqxdhInfo 32) := by
    simp only [pqxdhRespond, hdec, EStateM.except_ok_bind, hpub, oneTime_map,
      hcomm spkB ikA, hcomm ikB ekA, hcomm spkB ekA, hcomm otkB ekA]
    rfl
  refine ⟨_, hrespond, ?_⟩
  rw [hsecret, oneTime_map]
  constructor
  · intro heq
    have hikm := hhkdf (hinputs _ _ bobUses henc) (hinputs _ _ aliceUses henc) heq
    obtain ⟨-, -, -, h4, -⟩ := pqxdhIkm_injective hikm
    exact (oneTime_eq_iff.mp h4).symm
  · rintro rfl
    rfl

/-! ## An exchange -/

/-- Tells inputs apart by their length. -/
def lengthHkdf : Hkdf := fun ikm _ _ len => Bytes.replicate len (UInt8.ofNat ikm.length)

/-- Alice uses the one-time key, Bob has lost it. -/
theorem pqxdh_agree_iff_lost :
    ∃ r, pqxdhInitiate lengthHkdf samplePublic sampleDh sampleKem 1 (samplePublic 3)
        (samplePublic 4) (oneTime true (samplePublic 5)) (sampleKem.ekBytes 9) 2 7 = .ok r ∧
      ∃ secret, pqxdhRespond lengthHkdf sampleDh sampleKem 3 4 (oneTime false 5) 9
          (samplePublic 1) r.aliceEphemeralPub r.mlKemCiphertext = .ok secret ∧
        (secret = r.sharedSecret ↔ true = false) := by
  refine ⟨_, rfl, pqxdh_agree_iff ?_ 1 2 3 4 5 9 7 true false ?_
    {ikm | ∃ use ss, ikm = pqxdhIkm (sampleDh 1 (samplePublic 4)) (sampleDh 2 (samplePublic 3))
      (sampleDh 2 (samplePublic 4)) (oneTime use (sampleDh 2 (samplePublic 5))) ss ∧
        ss = Bytes.replicate 32 7} ?_ ?_ rfl⟩
  · intro x y
    simp [sampleDh, samplePublic, Bytes.replicate, List.replicate_succ, UInt8.add_comm]
  · rintro seed ss ct henc
    simp only [sampleKem, Except.ok.injEq, Prod.mk.injEq] at henc
    obtain ⟨rfl, rfl⟩ := henc
    rfl
  · rintro _ ⟨use, _, rfl, rfl⟩ _ ⟨use', _, rfl, rfl⟩ heq
    cases use <;> cases use' <;> first | rfl | exact absurd heq (by decide +kernel)
  · rintro ss ct use henc
    simp only [sampleKem, Except.ok.injEq, Prod.mk.injEq] at henc
    exact ⟨use, ss, rfl, henc.1.symm⟩

end AnonyMus.Rust
