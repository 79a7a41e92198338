import AnonyMus.Lib.EState
import AnonyMus.Lib.RatchetNet
import AnonyMus.Rust.Crypto

/-!
# Rust core — the stateful post-quantum ratchet

`core/rust/src/protocol/pq_ratchet.rs`, over the interface of
`core/rust/src/crypto/ml_kem.rs`. What the KEM draws at random is an argument.

* `PqRatchetState`, `stepSend`, `stepReceive`, `mixIntoChain` — the code;
* `PqRun` — two states, each with the other's encapsulation key, and first-in
  first-out delivery of the ciphertexts;
* `pq_agree_iff` — the two sides hold the same secret after every delivery of a
  run exactly when nothing was delivered: a sender does not keep its secret;
* `stale_encapsulation_key` — from the first delivery on, the peer encapsulates
  to a key pair the receiver has thrown away.
-/

namespace AnonyMus.Rust

open Ratchet (Side)

/-- How many messages between PQ ratchet steps. -/
def pqRatchetPeriod : UInt32 := 10

/-- ML-KEM-768 with key pairs `Kp` and the randomness `Seed` of an
encapsulation. -/
structure Kem (Kp Seed : Type) where
  ekBytes     : Kp → List UInt8
  /-- The shared secret and the ciphertext. -/
  encapsulate : (ekBytes : List UInt8) → Seed → Except AnonymusError (Bytes 32 × List UInt8)
  decapsulate : Kp → (ct : List UInt8) → Except AnonymusError (Bytes 32)

/-- The current PQ ratchet state for one session direction. -/
structure PqRatchetState (Kp : Type) where
  keypair : Kp
  peerEk  : Option (List UInt8)
  lastSs  : Option (Bytes 32)
  counter : UInt32
deriving DecidableEq

namespace PqRatchetState

variable {Kp Seed : Type} (K : Kem Kp Seed) (hk : Hkdf)

def new (generated : Kp) : PqRatchetState Kp :=
  { keypair := generated, peerEk := none, lastSs := none, counter := 0 }

def shouldRatchet (s : PqRatchetState Kp) : Bool :=
  s.counter % pqRatchetPeriod = 0 ∧ 0 < s.counter

/-- The ciphertext and the new secret when a ratchet step is triggered. -/
def stepSend (seed : Seed) :
    EStateM AnonymusError (PqRatchetState Kp) (Option (List UInt8 × Bytes 32)) := do
  modify fun s => { s with counter := s.counter + 1 }
  let s ← get
  if ¬ s.shouldRatchet then
    return none
  match s.peerEk with
  | none => throw (.internal "PQ peer EK not set")
  | some peerEk =>
    let (ss, ct) ← ofExcept (K.encapsulate peerEk seed)
    return some (ct, ss)

def stepReceive (ct : List UInt8) (generated : Kp) :
    EStateM AnonymusError (PqRatchetState Kp) (Bytes 32) := do
  let s ← get
  let ss ← ofExcept (K.decapsulate s.keypair ct)
  modify fun s => { s with lastSs := some ss }
  -- rotate our keypair so future sessions start fresh
  modify fun s => { s with keypair := generated }
  return ss

def mixInfo : List UInt8 := "AnonyMus v3 SPQR chain mix".toUTF8.toList

def mixIntoChain (s : PqRatchetState Kp) (chainKey : Bytes 32) :
    Except AnonymusError (Bytes 32) :=
  match s.lastSs with
  | none => .error (.internal "no PQ SS to mix")
  | some ss => derive32 hk ss.1 (some chainKey.1) mixInfo

/-! ## What one step does -/

variable {K}

/-- Sending moves the counter and nothing else. -/
theorem stepSend_state (seed : Seed) (s : PqRatchetState Kp) :
    (stepSend K seed s).state = { s with counter := s.counter + 1 } := by
  simp only [stepSend, EStateM.apply_bind, EStateM.apply_modify, EStateM.apply_get]
  split
  · rfl
  · cases hek : s.peerEk with
    | none => rfl
    | some ek =>
      simp only [EStateM.apply_bind, EStateM.apply_ofExcept]
      cases K.encapsulate ek seed <;> rfl

theorem stepReceive_of_ok {ct : List UInt8} {s : PqRatchetState Kp} {ss : Bytes 32}
    (h : K.decapsulate s.keypair ct = .ok ss) (generated : Kp) :
    stepReceive K ct generated s =
      .ok ss { s with lastSs := some ss, keypair := generated } := by
  simp only [stepReceive, EStateM.apply_bind, EStateM.apply_get, h]
  rfl

theorem stepReceive_of_error {ct : List UInt8} {s : PqRatchetState Kp} {e : AnonymusError}
    (h : K.decapsulate s.keypair ct = .error e) (generated : Kp) :
    stepReceive K ct generated s = .error e s := by
  simp only [stepReceive, EStateM.apply_bind, EStateM.apply_get, h]
  rfl

end PqRatchetState

/-! ## Runs -/

open PqRatchetState

variable {Kp Seed : Type}

/-- Both states, the ciphertexts under way from each side with the secrets
`stepSend` returned next to them, and the key pairs generated on the way. -/
structure PqWorld (Kp : Type) where
  state     : Side → PqRatchetState Kp
  flight    : Side → List (List UInt8 × Bytes 32)
  generated : List Kp

namespace PqWorld

variable (K : Kem Kp Seed)

/-- Fresh states that know each other's encapsulation key. -/
def init (kp : Side → Kp) : PqWorld Kp where
  state s := { PqRatchetState.new (kp s) with peerEk := some (K.ekBytes (kp s.peer)) }
  flight _ := []
  generated := []

/-- Side `s` calls `stepSend` for an outgoing message. -/
def send (w : PqWorld Kp) (s : Side) (seed : Seed) : PqWorld Kp :=
  let result := stepSend K seed (w.state s)
  { w with
    state := Function.update w.state s result.state
    flight := match result with
      | .ok (some out) _ => Function.update w.flight s (w.flight s ++ [out])
      | _ => w.flight }

/-- The oldest ciphertext from `s.peer`, which is `ct`, reaches side `s`. -/
def receive (w : PqWorld Kp) (s : Side) (ct : List UInt8) (generated : Kp) : PqWorld Kp :=
  { state := Function.update w.state s (stepReceive K ct generated (w.state s)).state
    flight := Function.update w.flight s.peer (w.flight s.peer).tail
    generated := generated :: w.generated }

/-- Both sides hold the same secret. -/
def SameSecret (w : PqWorld Kp) : Prop := ∃ ss, ∀ s, (w.state s).lastSs = some ss

/-- Both sides mix the same secret into equal chain keys. -/
def SameMix (hk : Hkdf) (w : PqWorld Kp) : Prop :=
  ∀ chainKey, ∃ out, ∀ s, mixIntoChain hk (w.state s) chainKey = .ok out

end PqWorld

/-- A run, with the state of affairs right after each of its deliveries. -/
inductive PqRun (K : Kem Kp Seed) (kp : Side → Kp) : PqWorld Kp → List (PqWorld Kp) → Prop
  | init : PqRun K kp (PqWorld.init K kp) []
  | send {w after} (s : Side) (seed : Seed) (h : PqRun K kp w after) :
      PqRun K kp (w.send K s seed) after
  | receive {w after} (s : Side) {ct ss rest} (generated : Kp) (h : PqRun K kp w after)
      (hflight : w.flight s.peer = (ct, ss) :: rest) :
      PqRun K kp (w.receive K s ct generated) (w.receive K s ct generated :: after)

section

variable {K : Kem Kp Seed} {kp : Side → Kp} {w : PqWorld Kp} {after : List (PqWorld Kp)}

/-- Before the first delivery nobody holds a secret. -/
theorem PqRun.lastSs_of_nil (h : PqRun K kp w after) (hnil : after = []) (s : Side) :
    (w.state s).lastSs = none := by
  induction h with
  | init => rfl
  | @send w _ s' seed _ ih =>
    simp only [PqWorld.send, stepSend_state]
    rcases Side.eq_or_eq_peer s' s with rfl | rfl
    · rw [Function.update_self]
      exact ih hnil
    · rw [Function.update_of_ne (Side.peer_ne s')]
      exact ih hnil
  | receive => exact absurd hnil (List.cons_ne_nil _ _)

/-- The first delivery leaves the sender without the secret it sent. -/
theorem PqRun.first_receive (h : PqRun K kp w []) (s : Side) (ct : List UInt8)
    (generated : Kp) : ((w.receive K s ct generated).state s.peer).lastSs = none := by
  have hpeer : (w.receive K s ct generated).state s.peer = w.state s.peer :=
    Function.update_of_ne (Side.peer_ne s) ..
  rw [hpeer]
  exact h.lastSs_of_nil rfl s.peer

/-- **When the post-quantum ratchet agrees.** In every run, both sides hold the
same secret and mix it alike after each delivery exactly when there was none:
after the first one the sender holds no secret at all. -/
theorem pq_agree_iff (hk : Hkdf) (h : PqRun K kp w after) :
    (∀ w' ∈ after, w'.SameSecret ∧ w'.SameMix hk) ↔ after = [] := by
  constructor
  · intro hall
    induction h with
    | init => rfl
    | send s seed h ih => exact ih hall
    | @receive w _ s ct _ _ generated h hflight ih =>
      obtain rfl := ih fun w' hw' => hall w' (List.mem_cons_of_mem _ hw')
      obtain ⟨⟨ss, hss⟩, -⟩ := hall _ (List.mem_cons_self ..)
      have hnone := h.first_receive s ct generated
      rw [hss s.peer] at hnone
      cases hnone
  · rintro rfl w' hw'
    exact absurd hw' List.not_mem_nil

/-- Encapsulation keys are those of the first key pairs for the whole run, and
a side that was delivered something has thrown its own away. -/
theorem PqRun.keys (h : PqRun K kp w after) (s : Side) :
    (w.state s).peerEk = some (K.ekBytes (kp s.peer)) ∧
      ((w.state s).keypair = kp s ∧ (w.state s).lastSs = none ∨
        (w.state s).keypair ∈ w.generated) := by
  -- over the run: only a delivery generates a key pair, and nothing replaces `peerEk`
  induction h with
  | init => exact ⟨rfl, Or.inl ⟨rfl, rfl⟩⟩
  | @send w _ s' seed _ ih =>
    simp only [PqWorld.send, stepSend_state]
    rcases Side.eq_or_eq_peer s' s with rfl | rfl
    · rw [Function.update_self]
      exact ih
    · rw [Function.update_of_ne (Side.peer_ne s')]
      exact ih
  | @receive w _ s' ct ss rest generated _ _ ih =>
    obtain ⟨hek, hkeys⟩ := ih
    rcases Side.eq_or_eq_peer s' s with rfl | rfl
    · simp only [PqWorld.receive, Function.update_self]
      cases hdec : K.decapsulate (w.state s).keypair ct with
      -- a decapsulation that fails leaves the key pair in place
      | ok ss =>
        rw [stepReceive_of_ok hdec]
        exact ⟨hek, Or.inr (List.mem_cons_self ..)⟩
      | error e =>
        rw [stepReceive_of_error hdec]
        exact ⟨hek, hkeys.imp_right (List.mem_cons_of_mem _)⟩
    · simp only [PqWorld.receive, Function.update_of_ne (Side.peer_ne s')]
      exact ⟨hek, hkeys.imp_right (List.mem_cons_of_mem _)⟩

/-- Once side `s` holds a secret, its peer encapsulates to a key pair that `s`
no longer has, and does so for the rest of the run. -/
theorem stale_encapsulation_key (h : PqRun K kp w after) {s : Side}
    (hfresh : ∀ k ∈ w.generated, K.ekBytes k ≠ K.ekBytes (kp s))
    (hss : (w.state s).lastSs ≠ none) :
    (w.state s.peer).peerEk ≠ some (K.ekBytes (w.state s).keypair) := by
  have hek := (h.keys s.peer).1
  rw [Side.peer_peer] at hek
  rw [hek]
  rcases (h.keys s).2 with ⟨-, hnone⟩ | hmem
  · exact absurd hnone hss
  · intro heq
    exact hfresh _ hmem (Option.some.inj heq).symm

end

/-! ## A run -/

/-- Key pairs are bytes, ciphertexts name the key pair and carry the secret, and
decapsulation with another key pair yields another secret. -/
def sampleKem : Kem UInt8 UInt8 where
  ekBytes k := [k]
  encapsulate ek seed := .ok (Bytes.replicate 32 seed, ek ++ [seed])
  decapsulate k ct :=
    if ct.take 1 = [k] then .ok (Bytes.replicate 32 (ct.getD 1 0))
    else .ok (Bytes.replicate 32 (ct.getD 1 0 + 1))

def sampleKeys : Side → UInt8
  | .alice => 1
  | .bob => 2

/-- Alice has sent ten messages, the last of them with a ratchet step. -/
def tenSent : PqWorld UInt8 :=
  (List.range 10).foldl (fun w _ => w.send sampleKem .alice 7) (.init sampleKem sampleKeys)

theorem tenSent_run : PqRun sampleKem sampleKeys tenSent [] := by
  have hrun : ∀ n, PqRun sampleKem sampleKeys
      ((List.range n).foldl (fun w _ => w.send sampleKem .alice 7)
        (.init sampleKem sampleKeys)) [] := by
    intro n
    induction n with
    | zero => exact .init
    | succ n ih =>
      rw [List.range_succ, List.foldl_append]
      exact .send .alice 7 ih
  exact hrun 10

/-- Bob was handed Alice's first ciphertext. -/
def firstStep : PqWorld UInt8 := tenSent.receive sampleKem .bob [2, 7] 9

theorem firstStep_run : PqRun sampleKem sampleKeys firstStep [firstStep] := by
  have hflight : tenSent.flight (Side.peer .bob) = [([2, 7], Bytes.replicate 32 7)] := by
    decide +kernel
  exact PqRun.receive .bob 9 tenSent_run hflight

/-- Alice goes on with the key that Bob has thrown away. -/
theorem stale_encapsulation_key_firstStep :
    (firstStep.state (Side.peer .bob)).peerEk ≠
      some (sampleKem.ekBytes (firstStep.state .bob).keypair) :=
  stale_encapsulation_key firstStep_run (by decide +kernel) (by decide +kernel)

/-- Bob has decapsulated the secret that Alice sent, and Alice holds none. -/
theorem pq_disagree :
    PqRun sampleKem sampleKeys firstStep [firstStep] ∧
      (firstStep.state .bob).lastSs = some (Bytes.replicate 32 7) ∧
      ¬ firstStep.SameSecret ∧ ¬ firstStep.SameMix fun _ _ _ len => Bytes.replicate len 0 := by
  have hnone : (firstStep.state .alice).lastSs = none :=
    tenSent_run.first_receive .bob [2, 7] 9
  refine ⟨firstStep_run, by decide +kernel, ?_, ?_⟩
  · rintro ⟨ss, hss⟩
    rw [hss .alice] at hnone
    cases hnone
  · intro hmix
    obtain ⟨out, hout⟩ := hmix (Bytes.replicate 32 0)
    have halice := hout .alice
    rw [mixIntoChain, hnone] at halice
    cases halice

theorem pq_agree_iff_firstStep :
    (∀ w' ∈ [firstStep], w'.SameSecret ∧ w'.SameMix fun _ _ _ len => Bytes.replicate len 0) ↔
      [firstStep] = [] :=
  pq_agree_iff _ firstStep_run

end AnonyMus.Rust
