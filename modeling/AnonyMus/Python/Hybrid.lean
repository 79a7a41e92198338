import AnonyMus.Python.KeyAgreement
import AnonyMus.Python.Protocol

/-!
# Python core — hybrid session setup

The factories `init_alice_pq` and `init_bob_pq` of `core/double_ratchet.py`, and
the wrappers of `core/pq_kem.py` that turn an absent library or a failed
decapsulation into `None`. What either side loaded as `liboqs` is a parameter.

* `encapsulate`, `decapsulate`, `initAlicePq`, `initBobPq` — the code;
* `firstAgrees_of_init` — from one shared secret, Bob reads Alice's first header;
* `initBobPq_agrees` — when the hybrid sessions agree, and which session Bob has
  when he falls back.
-/

namespace AnonyMus.Python

/-! ## ML-KEM-768 -/

/-- `oqs.KeyEncapsulation("Kyber768")`; `coins` is what encapsulation draws. -/
structure Oqs where
  encapSecret : (publicKey coins : List UInt8) → Except PyError (Bytes 1088 × Bytes 32)
  decapSecret : (privateKey ciphertext : List UInt8) → Except PyError (Bytes 32)

/-- `is_available`: the module global `_oqs` is not `None`. -/
def isAvailable (oqs : Option Oqs) : Bool := oqs.isSome

def encapsulate (oqs : Option Oqs) (recipientPublicKey coins : List UInt8) :
    Except PyError (Option (Bytes 1088 × Bytes 32)) :=
  match oqs with
  | none => .ok none
  | some kem => do
    let (ciphertext, sharedSecret) ← kem.encapSecret recipientPublicKey coins
    return some (ciphertext, sharedSecret)

def decapsulate (oqs : Option Oqs) (ciphertext privateKey : List UInt8) : Option (Bytes 32) :=
  match oqs with
  | none => none
  | some kem =>
    match kem.decapSecret privateKey ciphertext with
    | .ok sharedSecret => some sharedSecret
    -- the exception is logged and swallowed
    | .error _ => none

/-- `kemPub` and `kemPriv` are one key pair: a decapsulation of what was
encapsulated for `kemPub` that succeeds returns the encapsulated secret. -/
def KemPair (aliceOqs bobOqs : Option Oqs) (kemPub kemPriv : List UInt8) : Prop :=
  ∀ alice ∈ aliceOqs, ∀ bob ∈ bobOqs, ∀ coins ciphertext secret secret',
    alice.encapSecret kemPub coins = .ok (ciphertext, secret) →
    bob.decapSecret kemPriv ciphertext.1 = .ok secret' → secret' = secret

/-! ## Hybrid factories -/

/-- A session with the attribute that the hybrid factories set. -/
structure HybridSession (Priv : Type) extends DoubleRatchetSession Priv where
  kemCiphertextB64 : Option (List Char)
deriving DecidableEq

def hybridInfo : List UInt8 := "AnonyMus-DR-Hybrid".toUTF8.toList

section

variable {Priv : Type} (C : Crypto Priv)

/-- HKDF with an output of 32 bytes, which are the first 32 of the 64. -/
def pqCombine (x25519Secret kemSecret : List UInt8) : List UInt8 :=
  ((C.hkdf (List.replicate 32 0) hybridInfo (x25519Secret ++ kemSecret)).take 32).1

def initAlicePq (oqs : Option Oqs) (sharedSecret peerDhPub peerKemPub coins : List UInt8)
    (generated : Priv) : Except PyError (HybridSession Priv) := do
  match ← encapsulate oqs peerKemPub coins with
  | some (kemCiphertext, kemSecret) =>
    let session ← initAlice C (pqCombine C sharedSecret kemSecret.1) peerDhPub generated
    return { session with kemCiphertextB64 := some (b64encode kemCiphertext.1) }
  | none =>
    let session ← initAlice C sharedSecret peerDhPub generated
    return { session with kemCiphertextB64 := none }

def initBobPq (oqs : Option Oqs) (sharedSecret : List UInt8) (myDhPriv : Priv)
    (myKemPriv kemCiphertext : List UInt8) : HybridSession Priv :=
  let combined :=
    if myKemPriv ≠ [] ∧ kemCiphertext ≠ [] ∧ isAvailable oqs then
      match decapsulate oqs kemCiphertext myKemPriv with
      | some kemSecret => pqCombine C sharedSecret kemSecret.1
      | none => sharedSecret
    else sharedSecret
  { initBob combined myDhPriv with kemCiphertextB64 := none }

/-- The bytes Bob is handed for Alice's `kem_ciphertext_b64`; none for `None`. -/
def HybridSession.sentCiphertext (s : HybridSession Priv) : Except PyError (List UInt8) :=
  match s.kemCiphertextB64 with
  | some text => b64decode (.text text)
  | none => .ok []

/-- Bob's `decrypt` of the header of Alice's first `encrypt` returns its message key. -/
def FirstAgrees (alice bob : DoubleRatchetSession Priv) : Prop :=
  ∃ key dh seq pn alice', encrypt C alice = .ok (key, dh, seq, pn) alice' ∧
    ∀ generated, ∃ bob', decrypt C dh.1 seq pn generated bob = .ok key.1 bob'

end

/-! ## Agreement -/

theorem encapsulate_eq_some {oqs : Option Oqs} {kemPub coins : List UInt8}
    {ciphertext : Bytes 1088} {secret : Bytes 32}
    (h : encapsulate oqs kemPub coins = .ok (some (ciphertext, secret))) :
    ∃ kem, oqs = some kem ∧ kem.encapSecret kemPub coins = .ok (ciphertext, secret) := by
  cases oqs with
  | none => cases h
  | some kem =>
    refine ⟨kem, rfl, ?_⟩
    unfold encapsulate at h
    dsimp only [bind, Except.bind] at h
    cases hres : kem.encapSecret kemPub coins with
    | error e =>
      rw [hres] at h
      cases h
    | ok made =>
      rw [hres] at h
      exact congrArg Except.ok (Option.some.inj (Except.ok.inj h))

theorem decapsulate_eq_some {oqs : Option Oqs} {ciphertext kemPriv : List UInt8}
    {secret : Bytes 32} (h : decapsulate oqs ciphertext kemPriv = some secret) :
    ∃ kem, oqs = some kem ∧ kem.decapSecret kemPriv ciphertext = .ok secret := by
  cases oqs with
  | none => cases h
  | some kem =>
    refine ⟨kem, rfl, ?_⟩
    unfold decapsulate at h
    dsimp only at h
    cases hres : kem.decapSecret kemPriv ciphertext with
    | error e =>
      rw [hres] at h
      cases h
    | ok secret' =>
      rw [hres] at h
      exact congrArg Except.ok (Option.some.inj h)

section

variable {Priv : Type} {C : Crypto Priv}

/-- From one shared secret, the first header of Alice is read by Bob. -/
theorem firstAgrees_of_init (hagrees : C.Agrees) {ss : List UInt8} {a b : Priv}
    {alice : DoubleRatchetSession Priv}
    (halice : initAlice C ss (C.publicBytes b).1 a = .ok alice) :
    FirstAgrees C alice (initBob ss b) := by
  obtain ⟨z, hz, hz'⟩ := hagrees a b
  rw [initAlice_of_exchange C ss hz] at halice
  obtain rfl := Except.ok.inj halice
  refine ⟨_, _, _, _, _, encrypt_of_chain C rfl rfl, ?_⟩
  intro generated
  obtain ⟨z₂, hz₂, -⟩ := hagrees generated a
  -- Bob has neither a stored key nor a chain, so he turns to Alice's key at once
  have hturn := turnTo_of_ne C (s := initBob ss b) (d := C.publicBytes a)
    (Option.some_ne_none _).symm 0 generated
  rw [EStateM.apply_bind, skipMessages_of_none C (Or.inl rfl)] at hturn
  dsimp only at hturn
  rw [ratchetStep_of_exchange C rfl rfl hz' hz₂] at hturn
  -- the receiving chain is the one Alice sends on, and nothing is skipped
  have hdecrypt : decrypt C (C.publicBytes a).1 0 0 generated (initBob ss b) = _ :=
    decrypt_of_miss C rfl 0 generated
  rw [EStateM.apply_bind, hturn] at hdecrypt
  dsimp only at hdecrypt
  rw [EStateM.apply_bind, skipMessages_of_some C rfl rfl (by rintro ⟨-, -, hlt⟩; cases hlt)]
    at hdecrypt
  exact ⟨_, hdecrypt.trans (takeKey_of_some C rfl)⟩

theorem initAlicePq_of_encapsulate {oqs : Option Oqs} {ss peer kemPub coins : List UInt8}
    {a : Priv} {ciphertext : Bytes 1088} {secret : Bytes 32} {session : DoubleRatchetSession Priv}
    (henc : encapsulate oqs kemPub coins = .ok (some (ciphertext, secret)))
    (hinit : initAlice C (pqCombine C ss secret.1) peer a = .ok session) :
    initAlicePq C oqs ss peer kemPub coins a =
      .ok { session with kemCiphertextB64 := some (b64encode ciphertext.1) } := by
  unfold initAlicePq
  rw [henc]
  dsimp only [bind, Except.bind]
  rw [hinit]
  rfl

theorem initAlicePq_eq_ok {oqs : Option Oqs} {ss peer kemPub coins : List UInt8} {a : Priv}
    {alice : HybridSession Priv}
    (h : initAlicePq C oqs ss peer kemPub coins a = .ok alice) :
    (∃ kem ciphertext secret, oqs = some kem ∧
      kem.encapSecret kemPub coins = .ok (ciphertext, secret) ∧
      initAlice C (pqCombine C ss secret.1) peer a = .ok alice.toDoubleRatchetSession ∧
      alice.kemCiphertextB64 = some (b64encode ciphertext.1)) ∨
    (initAlice C ss peer a = .ok alice.toDoubleRatchetSession ∧
      alice.kemCiphertextB64 = none) := by
  unfold initAlicePq at h
  -- without a secret to combine it is the classical handshake
  cases henc : encapsulate oqs kemPub coins with
  | error e =>
    rw [henc] at h
    cases h
  | ok result =>
    rw [henc] at h
    dsimp only [bind, Except.bind] at h
    cases result with
    | none =>
      right
      cases hinit : initAlice C ss peer a with
      | error e =>
        rw [hinit] at h
        cases h
      | ok session =>
        rw [hinit] at h
        obtain rfl := Except.ok.inj h
        exact ⟨rfl, rfl⟩
    | some made =>
      left
      obtain ⟨ciphertext, secret⟩ := made
      obtain ⟨kem, hkem, hmade⟩ := encapsulate_eq_some henc
      dsimp only at h
      cases hinit : initAlice C (pqCombine C ss secret.1) peer a with
      | error e =>
        rw [hinit] at h
        cases h
      | ok session =>
        rw [hinit] at h
        obtain rfl := Except.ok.inj h
        exact ⟨kem, ciphertext, secret, hkem, hmade, hinit, rfl⟩

/-- Bob's combined secret is Alice's. -/
theorem initBobPq_of_decapsulate {oqs : Option Oqs} {ss kemPriv ciphertext : List UInt8} {b : Priv}
    {secret : Bytes 32} (hpriv : kemPriv ≠ []) (hct : ciphertext ≠ [])
    (hdecap : decapsulate oqs ciphertext kemPriv = some secret) :
    (initBobPq C oqs ss b kemPriv ciphertext).toDoubleRatchetSession =
      initBob (pqCombine C ss secret.1) b := by
  have havail : isAvailable oqs = true := by
    obtain ⟨kem, rfl, -⟩ := decapsulate_eq_some hdecap
    rfl
  show initBob (if _ then _ else _) b = _
  rw [if_pos ⟨hpriv, hct, havail⟩, hdecap]

theorem initBobPq_of_fallback {oqs : Option Oqs} {ss kemPriv ciphertext : List UInt8} {b : Priv}
    (h : ciphertext = [] ∨ kemPriv = [] ∨ decapsulate oqs ciphertext kemPriv = none) :
    (initBobPq C oqs ss b kemPriv ciphertext).toDoubleRatchetSession = initBob ss b := by
  show initBob (if _ then _ else _) b = _
  by_cases huse : kemPriv ≠ [] ∧ ciphertext ≠ [] ∧ isAvailable oqs
  · rw [if_pos huse]
    rcases h with h | h | h
    · exact absurd h huse.2.1
    · exact absurd h huse.1
    · rw [h]
  · rw [if_neg huse]


/-- **Hybrid setup.** Bob's call never raises. If he has a KEM key and the
decapsulation succeeds, or if Alice sent no ciphertext, then he reads her first
header; otherwise his session is the one that `init_bob` makes of the classical
secret. -/
theorem initBobPq_agrees (hagrees : C.Agrees) {aliceOqs bobOqs : Option Oqs}
    {kemPub kemPriv : List UInt8} (hkem : KemPair aliceOqs bobOqs kemPub kemPriv)
    {ss coins : List UInt8} {a b : Priv} {alice : HybridSession Priv}
    (halice : initAlicePq C aliceOqs ss (C.publicBytes b).1 kemPub coins a = .ok alice)
    {ciphertext : List UInt8} (hsent : alice.sentCiphertext = .ok ciphertext) :
    if ciphertext = [] ∨ kemPriv ≠ [] ∧ decapsulate bobOqs ciphertext kemPriv ≠ none then
      FirstAgrees C alice.toDoubleRatchetSession
        (initBobPq C bobOqs ss b kemPriv ciphertext).toDoubleRatchetSession
    else
      (initBobPq C bobOqs ss b kemPriv ciphertext).toDoubleRatchetSession = initBob ss b := by
  rcases initAlicePq_eq_ok halice with ⟨kem, made, secret, rfl, hmade, hinit, htext⟩ | ⟨hinit, htext⟩
  · -- Alice's session is hybrid, and Bob is handed her ciphertext
    rw [HybridSession.sentCiphertext, htext] at hsent
    obtain rfl := Except.ok.inj ((b64decode_b64encode made.1).symm.trans hsent)
    have hne : made.1 ≠ [] := by
      intro hnil
      have hlen := made.2
      rw [hnil] at hlen
      cases hlen
    split_ifs with huse
    · obtain ⟨hpriv, hdecap⟩ := huse.resolve_left hne
      obtain ⟨secret', hdecap⟩ := Option.ne_none_iff_exists'.mp hdecap
      obtain ⟨bob, hbob, hres⟩ := decapsulate_eq_some hdecap
      have hsecret : secret' = secret := hkem kem rfl bob hbob coins made secret secret' hmade hres
      rw [initBobPq_of_decapsulate hpriv hne hdecap, hsecret]
      exact firstAgrees_of_init hagrees hinit
    · apply initBobPq_of_fallback
      by_cases hpriv : kemPriv = []
      · exact Or.inr (Or.inl hpriv)
      · exact Or.inr (Or.inr (not_not.mp fun hdecap => huse (Or.inr ⟨hpriv, hdecap⟩)))
  · -- without liboqs Alice's session is classical, and so is Bob's
    rw [HybridSession.sentCiphertext, htext] at hsent
    obtain rfl := Except.ok.inj hsent
    rw [if_pos (Or.inl rfl), initBobPq_of_fallback (Or.inl rfl)]
    exact firstAgrees_of_init hagrees hinit

end

/-- Primitives in which every byte counts. -/
def summing : Crypto UInt8 where
  publicBytes x := Bytes.replicate 32 x
  exchange x d := some (Bytes.replicate 32 (x + d.1.headD 0))
  hkdf salt _ ikm :=
    let mix := (salt ++ ikm).foldl (· + ·) 0
    ⟨List.replicate 32 mix ++ List.replicate 32 (mix + 1), by simp⟩

theorem summing_agrees : summing.Agrees := fun x y =>
  ⟨_, rfl, congrArg (fun b => some (Bytes.replicate 32 b)) (UInt8.add_comm y x)⟩

/-- A KEM that hides one byte. -/
def byteKem : Oqs where
  encapSecret _ coins :=
    .ok (Bytes.replicate 1088 (coins.headD 0), Bytes.replicate 32 (coins.headD 0 + 7))
  decapSecret _ ciphertext := .ok (Bytes.replicate 32 (ciphertext.headD 0 + 7))

theorem byteKem_pair (kemPub kemPriv : List UInt8) :
    KemPair (some byteKem) (some byteKem) kemPub kemPriv := by
  intro alice halice bob hbob coins ciphertext secret secret' henc hdec
  obtain rfl := Option.some.inj halice
  obtain rfl := Option.some.inj hbob
  obtain ⟨rfl, rfl⟩ := Prod.mk.inj (Except.ok.inj henc)
  exact (Except.ok.inj hdec).symm

/-- Alice with key 1 and Bob's key 2, after an encapsulation that drew 0. -/
def hybridAlice : HybridSession UInt8 where
  dhPrivate := some 1
  dhRemote := some (Bytes.replicate 32 2)
  rootKey := some (List.replicate 32 0)
  sendingChainKey := some (Bytes.replicate 32 1)
  receivingChainKey := none
  seqSend := 0
  seqRecv := 0
  prevChainLength := 0
  skippedMessageKeys := Dict.empty
  kemCiphertextB64 := some (b64encode (Bytes.replicate 1088 0).1)

theorem hybridAlice_init :
    initAlicePq summing (some byteKem) [5] (summing.publicBytes 2).1 [4] [0] 1 =
      .ok hybridAlice := by
  have hexchange : summing.exchange 1 (summing.publicBytes 2) = some (Bytes.replicate 32 3) := rfl
  have hroot : rootRatchet summing (pqCombine summing [5] (Bytes.replicate 32 7).1)
      (Bytes.replicate 32 3) = (List.replicate 32 0, Bytes.replicate 32 1) := by
    decide +kernel
  have hinit := initAlice_of_exchange summing (pqCombine summing [5] (Bytes.replicate 32 7).1)
    hexchange
  rw [hroot] at hinit
  exact initAlicePq_of_encapsulate rfl hinit

/-- Bob decapsulates and reads the first header. -/
theorem initBobPq_agrees_hybrid :
    FirstAgrees summing hybridAlice.toDoubleRatchetSession
      (initBobPq summing (some byteKem) [5] 2 [4]
        (Bytes.replicate 1088 0).1).toDoubleRatchetSession := by
  have h := initBobPq_agrees summing_agrees (byteKem_pair [4] [4]) hybridAlice_init
    (b64decode_b64encode (Bytes.replicate 1088 0).1)
  rwa [if_pos (Or.inr ⟨List.cons_ne_nil _ _, Option.some_ne_none _⟩)] at h

/-- Bob has no liboqs: with Alice's ciphertext in hand he takes the classical
secret, and reads her first header to another key. -/
theorem initBobPq_drops_secret :
    initAlicePq summing (some byteKem) [5] (summing.publicBytes 2).1 [4] [0] 1 =
        .ok hybridAlice ∧
      hybridAlice.sentCiphertext = .ok (Bytes.replicate 1088 0).1 ∧
      ¬ FirstAgrees summing hybridAlice.toDoubleRatchetSession
        (initBobPq summing none [5] 2 [4] (Bytes.replicate 1088 0).1).toDoubleRatchetSession := by
  refine ⟨hybridAlice_init, b64decode_b64encode (Bytes.replicate 1088 0).1, ?_⟩
  rintro ⟨key, dh, seq, pn, alice', henc, hdec⟩
  rw [encrypt_of_chain summing rfl rfl] at henc
  injection henc with hout
  simp only [Prod.mk.injEq] at hout
  obtain ⟨rfl, rfl, rfl, rfl⟩ := hout
  -- Bob's key is the byte 192 and Alice's the byte 32
  obtain ⟨bob', hbob⟩ := hdec 3
  have hkey : (decrypt summing (summing.publicBytes 1).1 0 0 3
      (initBobPq summing none [5] 2 [4] (Bytes.replicate 1088 0).1).toDoubleRatchetSession).value? =
      some (List.replicate 32 192) := by
    have hbob : (initBobPq summing none [5] 2 [4]
        (Bytes.replicate 1088 0).1).toDoubleRatchetSession = initBob [5] 2 :=
      initBobPq_of_fallback (Or.inr (Or.inr rfl))
    rw [hbob]
    decide +kernel
  have hval : some (List.replicate 32 192) =
      some (chainRatchet summing (Bytes.replicate 32 1)).1.1 :=
    hkey.symm.trans (congrArg EStateM.Result.value? hbob)
  exact absurd (Option.some.inj hval) (by decide +kernel)

end AnonyMus.Python
