import Mathlib.Data.Set.Function
import AnonyMus.Lib.FirstCome
import AnonyMus.Lib.Simulation
import AnonyMus.Rust.Crypto

/-!
# Rust core — rate-limiting nullifiers

`core/rust/src/crypto/rln.rs`. An identity derives one nullifier per epoch; a verifier that sees a
nullifier again in its epoch compares the shares of the messages. SHA-256 comes from a third-party
crate and is a parameter.

* `RlnIdentity.generateProof`, `RlnVerifier.verifyAndRecord` — the two sides;
* `inputs` — what a proof hashes;
* `verifyAndRecord_eq` — the search through the seen proofs, as first come, first served under
  (epoch, nullifier);
* `Request`, `verdict` — honest proofs, and what the verifier says to each;
* `after_eq` — the verifier holds the first proof under each key;
* `verdict_iff_accepts` — where SHA-256 is injective, an identity's first message of an epoch decides;
* `honest_rate_limit` — over every sequence of honest proofs.
-/

namespace AnonyMus.Rust.Rln

open FirstCome

abbrev Epoch := UInt64

abbrev Nullifier := Bytes 32

structure RlnProof where
  nullifier : Nullifier
  shareX    : Bytes 32
  shareY    : Bytes 32
  epoch     : Epoch
deriving DecidableEq

structure RlnIdentity where
  secretKey : Bytes 32
deriving DecidableEq

/-! ## The prover -/

def nullifierInput (secretKey : Bytes 32) (epoch : Epoch) : List UInt8 := secretKey.1 ++ be64 epoch

def shareYInput (secretKey shareX : Bytes 32) (epoch : Epoch) : List UInt8 :=
  secretKey.1 ++ shareX.1 ++ be64 epoch

section

variable (sha256 : List UInt8 → Bytes 32)

def RlnIdentity.generateProof (identity : RlnIdentity) (message : List UInt8) (epoch : Epoch) :
    Except AnonymusError RlnProof :=
  -- 1. Calculate nullifier: Hash(secret_key || epoch)
  let nullifier := sha256 (nullifierInput identity.secretKey epoch)
  -- 2. Share X = Hash(message)
  let shareX := sha256 message
  -- 3. Share Y = Hash(secret_key || share_x || epoch)
  let shareY := sha256 (shareYInput identity.secretKey shareX epoch)
  .ok { nullifier, shareX, shareY, epoch }

/-- What a proof hashes. -/
def inputs (identity : RlnIdentity) (message : List UInt8) (epoch : Epoch) : Set (List UInt8) :=
  {nullifierInput identity.secretKey epoch, message,
    shareYInput identity.secretKey (sha256 message) epoch}

end

/-! ## The verifier -/

/-- Relay verifier state for detecting rate-limit breaches. -/
structure RlnVerifier where
  seenProofs : List RlnProof
deriving DecidableEq

namespace RlnVerifier

def new : RlnVerifier := ⟨[]⟩

def breach : AnonymusError := .decrypt "RLN rate limit breached: double-sign detected for epoch"

/-- The loop over the seen proofs: what it returns early, or none when it ends. -/
def search (proof : RlnProof) : List RlnProof → Option (Except AnonymusError Unit)
  | [] => none
  | seen :: rest =>
    if seen.epoch = proof.epoch ∧ seen.nullifier = proof.nullifier then
      if seen.shareX ≠ proof.shareX then some (.error breach)
      -- Duplicate message resend in same epoch is allowed or idempotent
      else some (.ok ())
    else search proof rest

def verifyAndRecord (proof : RlnProof) : EStateM AnonymusError RlnVerifier Unit := do
  let verifier ← get
  match search proof verifier.seenProofs with
  | some result => ofExcept result
  | none => set { verifier with seenProofs := verifier.seenProofs ++ [proof] }

end RlnVerifier

/-! ## First come, first served -/

/-- What a seen proof is looked up by. -/
def RlnProof.key (proof : RlnProof) : Epoch × Nullifier := (proof.epoch, proof.nullifier)

open RlnVerifier

theorem search_eq (proof : RlnProof) (seen : List RlnProof) :
    search proof seen = (firstOf RlnProof.key seen proof.key).map fun first =>
      if first.shareX ≠ proof.shareX then .error breach else .ok () := by
  induction seen with
  | nil => rfl
  | cons first rest ih =>
    rw [search, firstOf, List.find?_cons]
    by_cases hkey : first.epoch = proof.epoch ∧ first.nullifier = proof.nullifier
    · have hsame : first.key = proof.key := Prod.ext hkey.1 hkey.2
      rw [if_pos hkey, decide_eq_true hsame, Option.map_some]
      split_ifs <;> rfl
    · have hother : first.key ≠ proof.key := fun h =>
        hkey ⟨congrArg Prod.fst h, congrArg Prod.snd h⟩
      rw [if_neg hkey, decide_eq_false hother]
      exact ih

/-- A first proof is recorded, and its share decides on the others. -/
theorem verifyAndRecord_eq (proof : RlnProof) (verifier : RlnVerifier) :
    verifyAndRecord proof verifier =
      match firstOf RlnProof.key verifier.seenProofs proof.key with
      | none => .ok () ⟨verifier.seenProofs ++ [proof]⟩
      | some first =>
        if first.shareX = proof.shareX then .ok () verifier else .error breach verifier := by
  simp only [verifyAndRecord, EStateM.apply_bind, EStateM.apply_get, search_eq]
  rcases firstOf RlnProof.key verifier.seenProofs proof.key with _ | first
  · rfl
  · by_cases hshare : first.shareX = proof.shareX
    · simp [hshare]
    · simp [hshare]

/-- Only a first proof is recorded. -/
theorem state_verifyAndRecord (proof : RlnProof) (verifier : RlnVerifier) :
    (verifyAndRecord proof verifier).state = ⟨record RlnProof.key verifier.seenProofs proof⟩ := by
  rw [verifyAndRecord_eq, record]
  rcases firstOf RlnProof.key verifier.seenProofs proof.key with _ | first
  · rfl
  · dsimp only
    split_ifs <;> rfl

/-- The share of the first proof decides. -/
theorem verifyAndRecord_eq_ok_iff (proof : RlnProof) (verifier : RlnVerifier) :
    (verifyAndRecord proof verifier).toExcept = .ok () ↔
      ∀ first ∈ firstOf RlnProof.key verifier.seenProofs proof.key,
        first.shareX = proof.shareX := by
  rw [verifyAndRecord_eq]
  rcases firstOf RlnProof.key verifier.seenProofs proof.key with _ | first
  · exact iff_of_true rfl fun _ h => absurd h.symm (Option.some_ne_none _)
  · by_cases hshare : first.shareX = proof.shareX
    · simp [hshare, EStateM.Result.toExcept]
    · simp [hshare, EStateM.Result.toExcept]

/-- What is not accepted is a breach, and the verifier stays as it is. -/
theorem verifyAndRecord_of_ne_ok {proof : RlnProof} {verifier : RlnVerifier}
    (h : (verifyAndRecord proof verifier).toExcept ≠ .ok ()) :
    verifyAndRecord proof verifier = .error breach verifier := by
  rw [verifyAndRecord_eq] at h ⊢
  rcases hfirst : firstOf RlnProof.key verifier.seenProofs proof.key with _ | first
  · rw [hfirst] at h
    exact absurd rfl h
  · rw [hfirst] at h
    dsimp only at h ⊢
    by_cases hshare : first.shareX = proof.shareX
    · rw [if_pos hshare] at h
      exact absurd rfl h
    · exact if_neg hshare

/-! ## Honest proofs -/

/-- A message that an identity makes a proof of and passes to the verifier. -/
structure Request (Id : Type) where
  identity : Id
  message  : List UInt8
  epoch    : Epoch
deriving DecidableEq

def Request.key {Id : Type} (r : Request Id) : Id × Epoch := (r.identity, r.epoch)

section

variable {Id : Type} (sha256 : List UInt8 → Bytes 32) (identities : Id → RlnIdentity)

def submit (r : Request Id) : EStateM AnonymusError RlnVerifier Unit := do
  let proof ← ofExcept ((identities r.identity).generateProof sha256 r.message r.epoch)
  verifyAndRecord proof

/-- The verifier after the requests `done`. -/
def after (done : List (Request Id)) : RlnVerifier :=
  EStateM.after (submit sha256 identities) done .new

/-- What the verifier says to `r` after the requests `done`. -/
def verdict (done : List (Request Id)) (r : Request Id) : Except AnonymusError Unit :=
  (submit sha256 identities r (after sha256 identities done)).toExcept

/-- What the proofs of all requests hash. -/
def usedInputs (requests : List (Request Id)) : Set (List UInt8) :=
  {input | ∃ r ∈ requests, input ∈ inputs sha256 (identities r.identity) r.message r.epoch}

def Request.proof (r : Request Id) : RlnProof where
  nullifier := sha256 (nullifierInput (identities r.identity).secretKey r.epoch)
  shareX := sha256 r.message
  shareY := sha256 (shareYInput (identities r.identity).secretKey (sha256 r.message) r.epoch)
  epoch := r.epoch

theorem submit_eq (r : Request Id) :
    submit sha256 identities r = verifyAndRecord (r.proof sha256 identities) := rfl

/-- The verifier holds the first proof of each epoch and nullifier. -/
theorem after_eq (done : List (Request Id)) :
    after sha256 identities done =
      ⟨firsts RlnProof.key (done.map (Request.proof sha256 identities))⟩ := by
  induction done using List.reverseRecOn with
  | nil => rfl
  | append_singleton done r ih =>
    rw [after] at ih
    rw [after, EStateM.after_append, EStateM.after_cons, EStateM.after_nil, ih, submit_eq,
      state_verifyAndRecord, List.map_append, List.map_singleton, firsts_append_singleton]

theorem verdict_eq_ok_iff (done : List (Request Id)) (r : Request Id) :
    verdict sha256 identities done r = .ok () ↔
      Accepts RlnProof.key RlnProof.shareX (done.map (Request.proof sha256 identities))
        (r.proof sha256 identities) := by
  rw [verdict, submit_eq, verifyAndRecord_eq_ok_iff, after_eq]
  simp only [firstOf_firsts]
  rfl

variable {sha256 identities} {requests : List (Request Id)} {x y : Request Id}

/-- The nullifier tells the identity. -/
theorem proof_key_iff (hsecrets : Function.Injective fun id => (identities id).secretKey)
    (hsha : Set.InjOn sha256 (usedInputs sha256 identities requests)) (hx : x ∈ requests)
    (hy : y ∈ requests) :
    (y.proof sha256 identities).key = (x.proof sha256 identities).key ↔ y.key = x.key := by
  constructor
  · intro h
    obtain ⟨hepoch, hnullifier⟩ := Prod.mk.inj h
    have hinput := hsha ⟨y, hy, .inl rfl⟩ ⟨x, hx, .inl rfl⟩ hnullifier
    -- both secrets have 32 bytes
    obtain ⟨hsecret, -⟩ := List.append_inj hinput
      ((identities y.identity).secretKey.2.trans (identities x.identity).secretKey.2.symm)
    exact Prod.ext (hsecrets (Subtype.ext hsecret)) hepoch
  · intro h
    obtain ⟨hid, hepoch⟩ := Prod.mk.inj h
    rw [RlnProof.key, RlnProof.key, Request.proof, Request.proof, hid, hepoch]

/-- The share tells the message. -/
theorem proof_shareX_iff (hsha : Set.InjOn sha256 (usedInputs sha256 identities requests))
    (hx : x ∈ requests) (hy : y ∈ requests) :
    (y.proof sha256 identities).shareX = (x.proof sha256 identities).shareX ↔
      y.message = x.message :=
  ⟨fun h => hsha ⟨y, hy, .inr (.inl rfl)⟩ ⟨x, hx, .inr (.inl rfl)⟩ h, congrArg sha256⟩

variable {done : List (Request Id)} {r : Request Id}

/-- What is not accepted changes nothing. -/
theorem after_of_rejected (h : verdict sha256 identities done r ≠ .ok ()) :
    verdict sha256 identities done r = .error breach ∧
      after sha256 identities (done ++ [r]) = after sha256 identities done := by
  rw [verdict, submit_eq] at h
  have hstep := verifyAndRecord_of_ne_ok h
  constructor
  · rw [verdict, submit_eq]
    exact congrArg EStateM.Result.toExcept hstep
  · rw [after, EStateM.after_append, EStateM.after_cons, EStateM.after_nil, submit_eq]
    exact congrArg EStateM.Result.state hstep

variable [DecidableEq Id]

/-- A message is accepted when its identity has sent no other first in its epoch. -/
theorem verdict_iff_accepts (hsecrets : Function.Injective fun id => (identities id).secretKey)
    (hsha : Set.InjOn sha256 (usedInputs sha256 identities requests))
    (hdone : done ⊆ requests) (hr : r ∈ requests) :
    verdict sha256 identities done r = .ok () ↔ Accepts Request.key Request.message done r :=
  (verdict_eq_ok_iff sha256 identities done r).trans
    (accepts_map (fun _ hy => proof_key_iff hsecrets hsha hr (hdone hy))
      (fun _ hy => proof_shareX_iff hsha hr (hdone hy)))

/-- For distinct secrets, and where SHA-256 is injective on what the proofs hash: in any sequence of
honest proofs, a proof is accepted exactly when no earlier accepted one of its identity and epoch was
for another message. A rejection leaves the verifier unchanged, what was accepted is accepted again,
other identities' proofs do not matter, and one proof is held for each epoch and nullifier. -/
theorem honest_rate_limit (hsecrets : Function.Injective fun id => (identities id).secretKey)
    (hsha : Set.InjOn sha256 (usedInputs sha256 identities requests)) :
    (∀ done r todo, requests = done ++ r :: todo →
      (verdict sha256 identities done r = .ok () ↔
        ∀ before earlier mid, done = before ++ earlier :: mid →
          earlier.identity = r.identity → earlier.epoch = r.epoch →
          verdict sha256 identities before earlier = .ok () → earlier.message = r.message) ∧
      (verdict sha256 identities done r ≠ .ok () →
        verdict sha256 identities done r = .error breach ∧
          after sha256 identities (done ++ [r]) = after sha256 identities done) ∧
      (verdict sha256 identities done r = .ok () → ∀ mid rest, todo = mid ++ r :: rest →
        verdict sha256 identities (done ++ r :: mid) r = .ok ()) ∧
      verdict sha256 identities done r =
        verdict sha256 identities (done.filter (·.identity = r.identity)) r) ∧
    ∀ done, (after sha256 identities done).seenProofs.Pairwise fun seen seen' =>
      ¬ (seen.epoch = seen'.epoch ∧ seen.nullifier = seen'.nullifier) := by
  constructor
  · rintro done r todo rfl
    have hr : r ∈ done ++ r :: todo := List.mem_append_right _ List.mem_cons_self
    have hdone : done ⊆ done ++ r :: todo := List.subset_append_left _ _
    have haccepts := verdict_iff_accepts hsecrets hsha hdone hr
    refine ⟨?_, after_of_rejected, ?_, ?_⟩
    · -- an earlier proof is honest too, so what is said about proofs is said about messages
      rw [haccepts, accepts_iff]
      constructor
      · rintro h before earlier mid rfl hid hepoch hearlier
        refine h before earlier mid rfl (Prod.ext hid hepoch) ?_
        refine (verdict_iff_accepts hsecrets hsha ?_ ?_).mp hearlier
        · exact fun y hy => hdone (List.mem_append_left _ hy)
        · exact hdone (List.mem_append_right _ List.mem_cons_self)
      · rintro h before earlier mid rfl hkey hearlier
        obtain ⟨hid, hepoch⟩ := Prod.mk.inj hkey
        refine h before earlier mid rfl hid hepoch ?_
        refine (verdict_iff_accepts hsecrets hsha ?_ ?_).mpr hearlier
        · exact fun y hy => hdone (List.mem_append_left _ hy)
        · exact hdone (List.mem_append_right _ List.mem_cons_self)
    · rintro hok mid rest rfl
      refine (verdict_iff_accepts hsecrets hsha ?_ hr).mpr (haccepts.mp hok).again
      intro y hy
      simp only [List.mem_append, List.mem_cons] at hy ⊢
      tauto
    · -- the proofs of other identities are under other keys
      have hfilter : verdict sha256 identities (done.filter (·.identity = r.identity)) r = .ok () ↔
          verdict sha256 identities done r = .ok () := by
        refine (verdict_iff_accepts hsecrets hsha (fun y hy => ?_) hr).trans
          ((accepts_filter fun y hy => ?_).trans haccepts.symm)
        · exact hdone (List.mem_of_mem_filter hy)
        · exact decide_eq_true (congrArg Prod.fst hy)
      by_cases hok : verdict sha256 identities done r = .ok ()
      · rw [hok, hfilter.mpr hok]
      · rw [(after_of_rejected hok).1, (after_of_rejected (mt hfilter.mp hok)).1]
  · intro done
    rw [after_eq]
    refine pairwise_firsts.imp ?_
    intro seen seen' hne hsame
    exact hne (Prod.ext hsame.1 hsame.2)

end

/-! ## Two identities -/

def message1 : List UInt8 := "Message 1".toUTF8.toList

def message2 : List UInt8 := "Message 2 (Spam attempt)".toUTF8.toList

def digest1 : Bytes 32 := .ofNat 32 0xadbbe0fa0a1192250a00582811bd8e1a664cd6263ebf92c827f008714514fd68

def digest2 : Bytes 32 := .ofNat 32 0xd2517e31d93ed092f2340761daaa2577de23856c3ae26f0b9471e6b6c6f21994

/-- The digests of what the three proofs below hash. -/
def digests : List (List UInt8 × Bytes 32) :=
  [(message1, digest1),
    (message2, digest2),
    (nullifierInput (.replicate 32 1) 100,
      .ofNat 32 0x8d4ae284eb918c4af0acc58867b8ece221a13f63b2e76e3031ee4d576e18ac6e),
    (nullifierInput (.replicate 32 2) 100,
      .ofNat 32 0xa24d16a398f6e0ffdc784f14dd2d6f0a285ed607bf2ccbfb4075c5c83e58351f),
    (shareYInput (.replicate 32 1) digest1 100,
      .ofNat 32 0x8982a7acde99c2c7fbc542b07a86105aacc4f2ce43c2526e2fe731bb650163d3),
    (shareYInput (.replicate 32 1) digest2 100,
      .ofNat 32 0x9f08654d96446b8d970909893eb6bb45dd464529da20d128cde32774951d01b7),
    (shareYInput (.replicate 32 2) digest1 100,
      .ofNat 32 0xc0fdf708b97dd8f816ae8ff0e879af7ad3f38760f375f50788350d51b9f6d66d)]

def sampleSha256 (input : List UInt8) : Bytes 32 :=
  (digests.lookup input).getD (.replicate 32 0)

def sampleIdentities (first : Bool) : RlnIdentity := ⟨.replicate 32 (if first then 1 else 2)⟩

/-- Two messages of the first identity and one of the second, in one epoch. -/
def sampleRequests : List (Request Bool) :=
  [⟨true, message1, 100⟩, ⟨true, message2, 100⟩, ⟨false, message1, 100⟩]

theorem sampleIdentities_injective :
    Function.Injective fun id => (sampleIdentities id).secretKey := by
  have : ∀ id id', (sampleIdentities id).secretKey = (sampleIdentities id').secretKey →
      id = id' := by decide +kernel
  exact fun id id' h => this id id' h

theorem sampleInputs_digested :
    usedInputs sampleSha256 sampleIdentities sampleRequests ⊆ {x | x ∈ digests.map Prod.fst} := by
  have hall : ∀ r ∈ sampleRequests,
      ∀ input ∈ [nullifierInput (sampleIdentities r.identity).secretKey r.epoch, r.message,
        shareYInput (sampleIdentities r.identity).secretKey (sampleSha256 r.message) r.epoch],
      input ∈ digests.map Prod.fst := by decide +kernel
  rintro input ⟨r, hr, hinput⟩
  exact hall r hr input (by simpa [inputs] using hinput)

theorem sampleSha256_injOn :
    Set.InjOn sampleSha256 (usedInputs sampleSha256 sampleIdentities sampleRequests) := by
  have hall : ∀ x ∈ digests.map Prod.fst, ∀ y ∈ digests.map Prod.fst,
      sampleSha256 x = sampleSha256 y → x = y := by decide +kernel
  exact Set.InjOn.mono sampleInputs_digested fun x hx y hy h => hall x hx y hy h

/-- The second message of an identity in an epoch is a breach. -/
theorem honest_rate_limit_spam :
    verdict sampleSha256 sampleIdentities [⟨true, message1, 100⟩] ⟨true, message2, 100⟩ =
      .error breach := by
  have hlimit := (honest_rate_limit sampleIdentities_injective sampleSha256_injOn).1
  have hfirst := (hlimit [] ⟨true, message1, 100⟩ _ rfl).1.mpr fun before earlier mid h =>
    absurd h.symm (by simp)
  obtain ⟨hiff, hrejected, -⟩ := hlimit [⟨true, message1, 100⟩] ⟨true, message2, 100⟩ _ rfl
  refine (hrejected ?_).1
  intro hok
  have hsame := hiff.mp hok [] ⟨true, message1, 100⟩ [] rfl rfl rfl hfirst
  exact absurd hsame (by decide +kernel)

end AnonyMus.Rust.Rln
