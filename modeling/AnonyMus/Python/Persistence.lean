import AnonyMus.Lib.Simulation
import AnonyMus.Python.Hybrid
import AnonyMus.Python.Sound

/-!
# Python core — saving and reloading a session

`to_json` and `from_json` of `core/double_ratchet.py` at any point of a run of the
class: the four factories, then `encrypt` and `decrypt` calls. The text has no field
for `kem_ciphertext_b64`, and an empty root key is written as `None`.

* `Setup`, `Method` — the factories and the methods;
* `reload_eq_ok_iff` — what one session loses;
* `lossless_iff` — a run can be saved and reloaded everywhere exactly when its factory
  makes neither a ciphertext nor an empty root key.
-/

namespace AnonyMus.Python

/-! ## The class -/

/-- The object that `to_json` turns into text; it leaves `kem_ciphertext_b64` out. -/
def HybridSession.toJson (s : HybridSession (Bytes 32)) : SessionJson :=
  Python.toJson s.toDoubleRatchetSession

/-- `from_json`: `cls()` sets `kem_ciphertext_b64` to `None`. -/
def HybridSession.fromJson (data : SessionJson) : Except PyError (HybridSession (Bytes 32)) := do
  let session ← Python.fromJson data
  return { session with kemCiphertextB64 := none }

/-- Save and load. -/
def HybridSession.reload (s : HybridSession (Bytes 32)) :
    Except PyError (HybridSession (Bytes 32)) :=
  HybridSession.fromJson s.toJson

section

variable {Priv α : Type}

/-- A method that neither reads nor writes `kem_ciphertext_b64`. -/
def HybridSession.method (x : EStateM PyError (DoubleRatchetSession Priv) α) :
    EStateM PyError (HybridSession Priv) α := fun s =>
  match x s.toDoubleRatchetSession with
  | .ok a s' => .ok a { s' with kemCiphertextB64 := s.kemCiphertextB64 }
  | .error e s' => .error e { s' with kemCiphertextB64 := s.kemCiphertextB64 }

/-- The factories, with the key pair and the coins they draw. -/
inductive Setup (Priv : Type)
  | alice (sharedSecret peerDhPub : List UInt8) (generated : Priv)
  | bob (sharedSecret : List UInt8) (myDhPriv : Priv)
  | alicePq (sharedSecret peerDhPub peerKemPub coins : List UInt8) (generated : Priv)
  | bobPq (sharedSecret : List UInt8) (myDhPriv : Priv) (myKemPriv kemCiphertext : List UInt8)

variable (C : Crypto Priv) (oqs : Option Oqs)

def Setup.run : Setup Priv → Except PyError (HybridSession Priv)
  | .alice sharedSecret peerDhPub generated => do
    let session ← initAlice C sharedSecret peerDhPub generated
    return { session with kemCiphertextB64 := none }
  | .bob sharedSecret myDhPriv =>
    .ok { initBob sharedSecret myDhPriv with kemCiphertextB64 := none }
  | .alicePq sharedSecret peerDhPub peerKemPub coins generated =>
    initAlicePq C oqs sharedSecret peerDhPub peerKemPub coins generated
  | .bobPq sharedSecret myDhPriv myKemPriv kemCiphertext =>
    .ok (initBobPq C oqs sharedSecret myDhPriv myKemPriv kemCiphertext)

/-- A call on a session. -/
inductive Method (Priv : Type)
  | encrypt
  | decrypt (peerDhPub : List UInt8) (seq prevChainLen : ℤ) (generated : Priv)

/-- The call, with the tuple or the message key it returns. -/
def Method.run : Method Priv →
    EStateM PyError (HybridSession Priv) ((Bytes 32 × Bytes 32 × ℕ × ℕ) ⊕ List UInt8)
  | .encrypt => Sum.inl <$> HybridSession.method (Python.encrypt C)
  | .decrypt peerDhPub seq prevChainLen generated =>
    Sum.inr <$> HybridSession.method (Python.decrypt C peerDhPub seq prevChainLen generated)

/-- What the calls return or raise, in order. -/
def results (calls : List (Method Priv)) (s : HybridSession Priv) :
    List (Except PyError ((Bytes 32 × Bytes 32 × ℕ × ℕ) ⊕ List UInt8)) :=
  EStateM.outputs (Method.run C) (fun call s => some (call.run C s).toExcept) calls s

end

section

variable (C : Crypto (Bytes 32)) (oqs : Option Oqs)

/-- A session can be saved and loaded after any calls: all its attributes come back,
and later calls return what they would have returned. -/
def Lossless (session : HybridSession (Bytes 32)) : Prop :=
  ∀ done : List (Method (Bytes 32)), ∃ loaded,
    (EStateM.after (Method.run C) done session).reload = .ok loaded ∧
      loaded = EStateM.after (Method.run C) done session ∧
      ∀ todo, results C todo loaded = results C todo (EStateM.after (Method.run C) done session)

/-- The factory call makes no ciphertext, and what it takes for the shared secret is not
used as an empty root key. -/
def Setup.Savable : Setup (Bytes 32) → Prop
  | .alice .. => True
  | .bob sharedSecret _ => sharedSecret ≠ []
  | .alicePq .. => isAvailable oqs = false
  | .bobPq sharedSecret _ myKemPriv kemCiphertext =>
    sharedSecret ≠ [] ∨
      myKemPriv ≠ [] ∧ kemCiphertext ≠ [] ∧ decapsulate oqs kemCiphertext myKemPriv ≠ none

end

/-! ## The root key -/

section

variable {Priv : Type} (C : Crypto Priv)

theorem rootKey_skipLoop (d : Bytes 32) (untilSeq : ℤ) (fuel : ℕ) (s : DoubleRatchetSession Priv) :
    (skipLoop C d untilSeq fuel s).rootKey = s.rootKey := by
  induction fuel generalizing s with
  | zero => rfl
  | succ fuel ih =>
    rw [skipLoop]
    split_ifs
    · rw [ih]
      unfold skipRound
      split
      · rfl
      · rfl
    · rfl

theorem keeps_rootKey_skipMessages (untilSeq : ℤ) :
    EStateM.Keeps (fun s : DoubleRatchetSession Priv => s.rootKey) (skipMessages C untilSeq) := by
  intro s
  rcases state_skipMessages C untilSeq s with hsame | ⟨d, hloop⟩
  · rw [hsame]
  · rw [hloop]
    exact rootKey_skipLoop C d untilSeq _ s

theorem keeps_rootKey_takeKey :
    EStateM.Keeps (fun s : DoubleRatchetSession Priv => s.rootKey) (takeKey C) := by
  intro s
  cases hck : s.receivingChainKey with
  | none => rw [takeKey_of_none C hck, EStateM.Result.state_error]
  | some ck => rw [takeKey_of_some C hck, EStateM.Result.state_ok]

/-- The session has no empty root key. -/
def Rooted (s : DoubleRatchetSession Priv) : Prop := s.rootKey ≠ some []

theorem preserves_of_keeps_rootKey {α : Type} {x : EStateM PyError (DoubleRatchetSession Priv) α}
    (h : EStateM.Keeps (fun s : DoubleRatchetSession Priv => s.rootKey) x) :
    EStateM.Preserves Rooted x := by
  intro s hs hnil
  exact hs ((h s).symm.trans hnil)

/-- Wherever the step raises, the root key is the old one or one that HKDF made. -/
theorem preserves_rooted_ratchetStep (d : Bytes 32) (generated : Priv) :
    EStateM.Preserves (@Rooted Priv) (ratchetStep C d generated) := by
  have hroot : ∀ rk z, some (rootRatchet C rk z).1 ≠ some [] :=
    fun rk z h => rootRatchet_ne_nil C rk z (Option.some.inj h)
  intro s hs
  by_cases hnone : s.dhPrivate = none ∨ s.rootKey = none
  · rw [ratchetStep_of_none C hnone]
    exact hs
  obtain ⟨hx, hrk⟩ := not_or.mp hnone
  obtain ⟨x, hx⟩ := Option.ne_none_iff_exists'.mp hx
  obtain ⟨rk, hrk⟩ := Option.ne_none_iff_exists'.mp hrk
  -- the first exchange raises, or the second one, or neither
  cases hz : C.exchange x d with
  | none =>
    rw [ratchetStep_of_rejected C hx hrk hz]
    exact hs
  | some z =>
    cases hz' : C.exchange generated d with
    | none =>
      rw [ratchetStep_of_rejected_again C hx hrk hz hz']
      exact hroot _ _
    | some z' =>
      rw [ratchetStep_of_exchange C hx hrk hz hz']
      exact hroot _ _

theorem preserves_rooted_turnTo (d : Bytes 32) (prevChainLen : ℤ) (generated : Priv) :
    EStateM.Preserves (@Rooted Priv) (turnTo C d prevChainLen generated) := by
  refine EStateM.Preserves.get fun s hs => ?_
  split
  · have hskip := preserves_of_keeps_rootKey (keeps_rootKey_skipMessages C prevChainLen)
    exact hskip.bind (fun _ => preserves_rooted_ratchetStep C d generated) s hs
  · exact hs

theorem preserves_rooted_decrypt (peerDhPub : List UInt8) (seq prevChainLen : ℤ)
    (generated : Priv) :
    EStateM.Preserves (@Rooted Priv) (decrypt C peerDhPub seq prevChainLen generated) := by
  refine EStateM.Preserves.get fun s hs => ?_
  cases s.skippedMessageKeys.get? (skipKey peerDhPub seq) with
  | some keyHex =>
    -- a stored key is taken out of the map
    exact preserves_of_keeps_rootKey (EStateM.Keeps.ofExcept (bytesFromHex keyHex)) _ hs
  | none =>
    refine EStateM.Preserves.bind (preserves_of_keeps_rootKey (EStateM.Keeps.ofExcept _))
      (fun d => ?_) s hs
    -- otherwise three parts run one after another
    have hskip := preserves_of_keeps_rootKey (keeps_rootKey_skipMessages C seq)
    have htake := preserves_of_keeps_rootKey (keeps_rootKey_takeKey C)
    exact (preserves_rooted_turnTo C d prevChainLen generated).bind fun _ => hskip.bind fun _ => htake

theorem preserves_rooted_encrypt : EStateM.Preserves (@Rooted Priv) (encrypt C) := by
  intro s hs
  by_cases hnone : s.dhPrivate = none ∨ s.sendingChainKey = none
  · rw [encrypt_of_none C hnone]
    exact hs
  · obtain ⟨hx, hck⟩ := not_or.mp hnone
    obtain ⟨x, hx⟩ := Option.ne_none_iff_exists'.mp hx
    obtain ⟨ck, hck⟩ := Option.ne_none_iff_exists'.mp hck
    rw [encrypt_of_chain C hx hck]
    exact hs

end

/-! ## What is lost -/

theorem rootKey_fromJson {data : SessionJson} {session : DoubleRatchetSession (Bytes 32)}
    (hdata : data.rootKeyHex = none) (h : fromJson data = .ok session) : session.rootKey = none := by
  obtain ⟨dhPrivate, -, h⟩ := EStateM.except_bind_eq_ok_iff.mp h
  obtain ⟨dhRemote, -, h⟩ := EStateM.except_bind_eq_ok_iff.mp h
  obtain ⟨rootKey, hroot, h⟩ := EStateM.except_bind_eq_ok_iff.mp h
  obtain ⟨sendingChainKey, -, h⟩ := EStateM.except_bind_eq_ok_iff.mp h
  obtain ⟨receivingChainKey, -, h⟩ := EStateM.except_bind_eq_ok_iff.mp h
  obtain rfl := Except.ok.inj h
  rw [hdata] at hroot
  exact (Except.ok.inj hroot).symm

/-- A session comes back with every attribute exactly when it has no empty root key and
no ciphertext to send. -/
theorem reload_eq_ok_iff {s : HybridSession (Bytes 32)} :
    s.reload = .ok s ↔ Rooted s.toDoubleRatchetSession ∧ s.kemCiphertextB64 = none := by
  unfold HybridSession.reload HybridSession.fromJson HybridSession.toJson
  rw [EStateM.except_bind_eq_ok_iff]
  constructor
  · rintro ⟨session, hread, hsame⟩
    have hsame := Except.ok.inj hsame
    have hsession : session = s.toDoubleRatchetSession :=
      congrArg HybridSession.toDoubleRatchetSession hsame
    refine ⟨fun hroot => ?_, (congrArg HybridSession.kemCiphertextB64 hsame).symm⟩
    -- an empty root key is read back as none
    have hwritten : (toJson s.toDoubleRatchetSession).rootKeyHex = none :=
      congrArg hexUnlessEmpty hroot
    have hloaded := rootKey_fromJson hwritten hread
    rw [hsession, hroot] at hloaded
    cases hloaded
  · rintro ⟨hroot, hkem⟩
    refine ⟨_, fromJson_toJson hroot, ?_⟩
    rw [← hkem]
    rfl

/-! ## Runs -/

section

variable {C : Crypto (Bytes 32)} {oqs : Option Oqs}

/-- What a method of the class keeps of the session, it keeps with the ciphertext. -/
theorem state_method {Priv α : Type} (x : EStateM PyError (DoubleRatchetSession Priv) α)
    (s : HybridSession Priv) :
    (HybridSession.method x s).state.toDoubleRatchetSession = (x s.toDoubleRatchetSession).state ∧
      (HybridSession.method x s).state.kemCiphertextB64 = s.kemCiphertextB64 := by
  unfold HybridSession.method
  cases x s.toDoubleRatchetSession with
  | ok a s' => exact ⟨rfl, rfl⟩
  | error e s' => exact ⟨rfl, rfl⟩

/-- A session that is saved whole is so after every call. -/
theorem whole_run (call : Method (Bytes 32)) (s : HybridSession (Bytes 32))
    (hs : Rooted s.toDoubleRatchetSession ∧ s.kemCiphertextB64 = none) :
    Rooted (call.run C s).state.toDoubleRatchetSession ∧
      (call.run C s).state.kemCiphertextB64 = none := by
  cases call with
  | encrypt =>
    obtain ⟨hsession, hkem⟩ := state_method (encrypt C) s
    rw [Method.run, EStateM.state_map, hsession, hkem]
    exact ⟨preserves_rooted_encrypt C _ hs.1, hs.2⟩
  | decrypt peerDhPub seq prevChainLen generated =>
    obtain ⟨hsession, hkem⟩ := state_method (decrypt C peerDhPub seq prevChainLen generated) s
    rw [Method.run, EStateM.state_map, hsession, hkem]
    exact ⟨preserves_rooted_decrypt C peerDhPub seq prevChainLen generated _ hs.1, hs.2⟩

theorem rooted_initAlice {sharedSecret peerDhPub : List UInt8} {generated : Bytes 32}
    {session : DoubleRatchetSession (Bytes 32)}
    (h : initAlice C sharedSecret peerDhPub generated = .ok session) : Rooted session := by
  obtain ⟨dhRemote, -, h⟩ := EStateM.except_bind_eq_ok_iff.mp h
  obtain ⟨dhOut, -, h⟩ := EStateM.except_bind_eq_ok_iff.mp h
  obtain rfl := Except.ok.inj h
  exact fun hnil => rootRatchet_ne_nil C sharedSecret dhOut (Option.some.inj hnil)

theorem rooted_initBob {sharedSecret : List UInt8} {myDhPriv : Bytes 32} :
    Rooted (initBob sharedSecret myDhPriv) ↔ sharedSecret ≠ [] := by
  unfold Rooted initBob
  rw [ne_eq, Option.some.injEq]

theorem pqCombine_ne_nil {Priv : Type} (C : Crypto Priv) (x25519Secret kemSecret : List UInt8) :
    pqCombine C x25519Secret kemSecret ≠ [] :=
  ne_nil_of_length (by decide) _

/-- What each factory makes of its arguments. -/
theorem whole_setup {setup : Setup (Bytes 32)} {session : HybridSession (Bytes 32)}
    (h : setup.run C oqs = .ok session) :
    Rooted session.toDoubleRatchetSession ∧ session.kemCiphertextB64 = none ↔
      setup.Savable oqs := by
  cases setup with
  | alice sharedSecret peerDhPub generated =>
    obtain ⟨made, hmade, h⟩ := EStateM.except_bind_eq_ok_iff.mp h
    obtain rfl := Except.ok.inj h
    exact iff_of_true ⟨rooted_initAlice hmade, rfl⟩ trivial
  | bob sharedSecret myDhPriv =>
    obtain rfl := Except.ok.inj h
    exact (and_iff_left rfl).trans rooted_initBob
  | alicePq sharedSecret peerDhPub peerKemPub coins generated =>
    -- the root key is always HKDF's; there is a ciphertext unless liboqs is absent
    obtain ⟨made, hmade, h⟩ := EStateM.except_bind_eq_ok_iff.mp h
    cases oqs with
    | none =>
      obtain rfl := Except.ok.inj hmade
      obtain ⟨session, hsession, h⟩ := EStateM.except_bind_eq_ok_iff.mp h
      obtain rfl := Except.ok.inj h
      exact iff_of_true ⟨rooted_initAlice hsession, rfl⟩ rfl
    | some kem =>
      obtain ⟨result, -, hresult⟩ := EStateM.except_bind_eq_ok_iff.mp hmade
      obtain rfl := Except.ok.inj hresult
      obtain ⟨session, -, h⟩ := EStateM.except_bind_eq_ok_iff.mp h
      obtain rfl := Except.ok.inj h
      exact iff_of_false (fun hwhole => Option.some_ne_none _ hwhole.2) (fun habsent => by cases habsent)
  | bobPq sharedSecret myDhPriv myKemPriv kemCiphertext =>
    obtain rfl := Except.ok.inj h
    refine (and_iff_left rfl).trans ?_
    by_cases huse : myKemPriv ≠ [] ∧ kemCiphertext ≠ [] ∧
      decapsulate oqs kemCiphertext myKemPriv ≠ none
    · obtain ⟨secret, hsecret⟩ := Option.ne_none_iff_exists'.mp huse.2.2
      rw [initBobPq_of_decapsulate huse.1 huse.2.1 hsecret, rooted_initBob]
      exact iff_of_true (pqCombine_ne_nil C sharedSecret secret.1) (Or.inr huse)
    · have hfallback : kemCiphertext = [] ∨ myKemPriv = [] ∨
          decapsulate oqs kemCiphertext myKemPriv = none := by
        tauto
      rw [initBobPq_of_fallback hfallback, rooted_initBob]
      exact (or_iff_left huse).symm

/-- **When a session can be saved.** After every run of `encrypt` and `decrypt`, failed
calls included, a session is reloaded with all its attributes, and goes on as if it had
not been, exactly when its factory made no ciphertext and no empty root key. -/
theorem lossless_iff {setup : Setup (Bytes 32)} {session : HybridSession (Bytes 32)}
    (h : setup.run C oqs = .ok session) : Lossless C session ↔ setup.Savable oqs := by
  rw [← whole_setup h]
  constructor
  · -- it is enough to save the session before any call
    intro hlossless
    obtain ⟨loaded, hreload, rfl, -⟩ := hlossless []
    exact reload_eq_ok_iff.mp hreload
  · intro hwhole done
    have hafter : Rooted (EStateM.after (Method.run C) done session).toDoubleRatchetSession ∧
        (EStateM.after (Method.run C) done session).kemCiphertextB64 = none :=
      EStateM.after_invariant
        (I := fun s : HybridSession (Bytes 32) =>
          Rooted s.toDoubleRatchetSession ∧ s.kemCiphertextB64 = none) whole_run hwhole
    exact ⟨_, reload_eq_ok_iff.mpr hafter, rfl, fun todo => rfl⟩

end

/-- Key pairs whose halves are equal. -/
def mirror : Crypto (Bytes 32) where
  publicBytes x := x
  exchange x d := some (Bytes.replicate 32 (x.1.headD 0 + d.1.headD 0))
  hkdf := summing.hkdf

/-- Bob's session can be saved at once, and after any call. -/
theorem lossless_bob : Lossless mirror
    { initBob [5] (Bytes.replicate 32 2) with kemCiphertextB64 := none } := by
  have hiff := @lossless_iff mirror none (.bob [5] (Bytes.replicate 32 2)) _ rfl
  exact hiff.mpr (List.cons_ne_nil 5 [])

/-- Alice's hybrid session loses the ciphertext that she has yet to send. -/
theorem lossy_alicePq : ∃ session,
    (Setup.alicePq [5] (List.replicate 32 2) [4] [0] (Bytes.replicate 32 1)).run mirror
      (some byteKem) = .ok session ∧ ¬ Lossless mirror session := by
  have hinit := initAlice_of_exchange mirror (pqCombine mirror [5] (Bytes.replicate 32 7).1)
    (a := Bytes.replicate 32 1) (d := Bytes.replicate 32 2) rfl
  refine ⟨_, initAlicePq_of_encapsulate rfl hinit, ?_⟩
  intro hlossless
  obtain ⟨loaded, hreload, rfl, -⟩ := hlossless []
  exact Option.some_ne_none _ (reload_eq_ok_iff.mp hreload).2

end AnonyMus.Python
