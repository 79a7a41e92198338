import AnonyMus.Python.Protocol
import AnonyMus.Python.KeyAgreement

/-!
# Python core — what a failed `decrypt_message_v2` leaves behind

The session is advanced before AES-GCM authenticates anything, and nothing is
put back when a later stage raises.

* `RejectedEarly` — the checks of `decrypt` that come before any mutation;
* `decrypt_changes` — past them the session is always left different;
* `decryptMessageV2_atomic_iff` — which failures leave the session alone, and
  that payloads failing so never change what another payload decrypts to;
* `decryptMessageV2_not_atomic` — a payload that costs the session the genuine one.
-/

namespace AnonyMus.Python

variable {Priv : Type} (C : Crypto Priv)

/-- No stored key, and `decrypt` raises before its first mutation: on a key of
a wrong length, at the bound on the chain that would be left, or in the current
chain at the bound or for want of a receiving chain. -/
def RejectedEarly (s : DoubleRatchetSession Priv) (opened : Opened) : Prop :=
  s.skippedMessageKeys.get? (skipKey opened.drPub opened.drSeq) = none ∧
    (opened.drPub.length ≠ 32 ∨
      if s.dhRemote.map Subtype.val = some opened.drPub then
        s.receivingChainKey = none ∨ TooFar s opened.drSeq
      else TooFar s opened.drPn)

instance (s : DoubleRatchetSession Priv) (opened : Opened) :
    Decidable (RejectedEarly s opened) := by
  unfold RejectedEarly
  infer_instance

/-! ## What each part leaves alone -/

theorem skipRound_dhRemote (d : Bytes 32) (s : DoubleRatchetSession Priv) :
    (skipRound C d s).dhRemote = s.dhRemote ∧
      (s.receivingChainKey ≠ none → (skipRound C d s).receivingChainKey ≠ none ∧
        (skipRound C d s).seqRecv = s.seqRecv + 1) := by
  unfold skipRound
  split
  · rename_i hck
    exact ⟨rfl, fun hne => absurd hck hne⟩
  · exact ⟨rfl, fun _ => ⟨Option.some_ne_none _, rfl⟩⟩

/-- The loop keeps the peer key and the chain, and never counts back. -/
theorem skipLoop_frame (d : Bytes 32) (untilSeq : ℤ) (fuel : ℕ) (s : DoubleRatchetSession Priv) :
    (skipLoop C d untilSeq fuel s).dhRemote = s.dhRemote ∧
      (s.receivingChainKey ≠ none → (skipLoop C d untilSeq fuel s).receivingChainKey ≠ none ∧
        s.seqRecv ≤ (skipLoop C d untilSeq fuel s).seqRecv) := by
  induction fuel generalizing s with
  | zero => exact ⟨rfl, fun hne => ⟨hne, Nat.le_refl _⟩⟩
  | succ fuel ih =>
    rw [skipLoop]
    split
    · obtain ⟨hd, hround⟩ := skipRound_dhRemote C d s
      obtain ⟨hd', hrest⟩ := ih (skipRound C d s)
      refine ⟨hd'.trans hd, fun hne => ?_⟩
      obtain ⟨hck, hnr⟩ := hround hne
      obtain ⟨hck', hnr'⟩ := hrest hck
      exact ⟨hck', by omega⟩
    · exact ⟨rfl, fun hne => ⟨hne, Nat.le_refl _⟩⟩

/-- Skipping leaves the peer key alone, refused or not. -/
theorem skipMessages_dhRemote (untilSeq : ℤ) (s : DoubleRatchetSession Priv) :
    (skipMessages C untilSeq s).state.dhRemote = s.dhRemote := by
  rcases state_skipMessages C untilSeq s with hsame | ⟨d, hloop⟩
  · rw [hsame]
  · rw [hloop]
    exact (skipLoop_frame C d untilSeq _ s).1

theorem takeKey_dhRemote (s : DoubleRatchetSession Priv) :
    (takeKey C s).state.dhRemote = s.dhRemote := by
  cases hck : s.receivingChainKey with
  | none => rw [takeKey_of_none C hck, EStateM.Result.state_error]
  | some ck => rw [takeKey_of_some C hck, EStateM.Result.state_ok]

/-- The ratchet step announces the new peer key first, wherever it raises later. -/
theorem ratchetStep_dhRemote (d : Bytes 32) (generated : Priv) (s : DoubleRatchetSession Priv) :
    (ratchetStep C d generated s).state.dhRemote = some d := by
  rw [ratchetStep, EStateM.apply_bind, EStateM.apply_modify]
  dsimp only
  rw [EStateM.apply_bind, EStateM.apply_get]
  dsimp only
  cases s.dhPrivate with
  | none => rfl
  | some x =>
    cases s.rootKey with
    | none => rfl
    | some rk =>
      simp only [EStateM.apply_bind, EStateM.apply_modify, EStateM.apply_ofExcept]
      -- the first exchange raises, or the second one, or neither
      cases exchange C x d with
      | error e => rfl
      | ok z =>
        dsimp only
        cases exchange C generated d with
        | error e => rfl
        | ok z' => rfl

section

variable {s : DoubleRatchetSession Priv}

/-- The end of `decrypt`, once the session is turned to the peer key. -/
theorem skip_take_dhRemote (seq : ℤ) (s : DoubleRatchetSession Priv) :
    ((do skipMessages C seq; takeKey C : EStateM PyError (DoubleRatchetSession Priv) (List UInt8))
      s).state.dhRemote = s.dhRemote := by
  have hskip := skipMessages_dhRemote C seq s
  rw [EStateM.apply_bind]
  cases hrun : skipMessages C seq s with
  | error e s₁ =>
    rw [hrun] at hskip
    exact hskip
  | ok _ s₁ =>
    rw [hrun] at hskip
    exact (takeKey_dhRemote C s₁).trans hskip

/-! ## When the session survives -/

theorem decrypt_of_rejected {opened : Opened} (generated : Priv)
    (hrej : RejectedEarly s opened) :
    ∃ e, decrypt C opened.drPub opened.drSeq opened.drPn generated s = .error e s := by
  obtain ⟨hstore, hrej⟩ := hrej
  by_cases hlen : opened.drPub.length = 32
  swap
  · exact ⟨_, decrypt_of_length_ne C hstore hlen _ _⟩
  have hrej := hrej.resolve_left (not_not_intro hlen)
  obtain ⟨d, hd⟩ : ∃ d : Bytes 32, d.1 = opened.drPub := ⟨⟨_, hlen⟩, rfl⟩
  rw [← hd] at hstore hrej ⊢
  have hremote : s.dhRemote.map Subtype.val = some d.1 ↔ s.dhRemote = some d :=
    Option.map_eq_some_iff.trans
      ⟨fun ⟨d', hd', heq⟩ => hd'.trans (congrArg some (Subtype.ext heq)), fun h => ⟨d, h, rfl⟩⟩
  by_cases hcur : s.dhRemote = some d
  · rw [if_pos (hremote.mpr hcur)] at hrej
    rcases hrej with hck | hfar
    · -- without a chain nothing is skipped, and there is no key to take
      refine ⟨.valueError "Receiving chain key not initialized", ?_⟩
      rw [decrypt_of_miss C hstore, EStateM.apply_bind, turnTo_of_eq C hcur]
      dsimp only
      rw [EStateM.apply_bind, skipMessages_of_none C (Or.inl hck)]
      exact takeKey_of_none C hck
    · exact ⟨_, decrypt_of_refused C hstore (by rwa [if_pos hcur]) generated⟩
  · rw [if_neg fun hx => hcur (hremote.mp hx)] at hrej
    exact ⟨_, decrypt_of_refused C hstore (by rwa [if_neg hcur]) generated⟩

/-- Past the early checks some field is always different: a stored key is gone,
the peer key is the announced one, or the receiving counter has advanced. -/
theorem decrypt_changes {opened : Opened} (generated : Priv) (hrej : ¬ RejectedEarly s opened) :
    (decrypt C opened.drPub opened.drSeq opened.drPn generated s).state ≠ s := by
  cases hstore : s.skippedMessageKeys.get? (skipKey opened.drPub opened.drSeq) with
  | some keyHex =>
    have hstate : (decrypt C opened.drPub opened.drSeq opened.drPn generated s).state =
        { s with skippedMessageKeys :=
            s.skippedMessageKeys.erase (skipKey opened.drPub opened.drSeq) } := by
      rw [decrypt_of_stored C hstore, EStateM.apply_ofExcept]
      cases bytesFromHex keyHex <;> rfl
    rw [hstate]
    intro heq
    have herase : s.skippedMessageKeys.erase (skipKey opened.drPub opened.drSeq) =
        s.skippedMessageKeys := congrArg (·.skippedMessageKeys) heq
    rw [Dict.erase_eq_self_iff, hstore] at herase
    cases herase
  | none =>
    have hrej := fun hx => hrej ⟨hstore, hx⟩
    obtain ⟨hlen, hrej⟩ := not_or.mp hrej
    obtain ⟨d, hd⟩ : ∃ d : Bytes 32, d.1 = opened.drPub := ⟨⟨_, not_not.mp hlen⟩, rfl⟩
    rw [← hd] at hstore hrej ⊢
    have hremote : s.dhRemote.map Subtype.val = some d.1 ↔ s.dhRemote = some d :=
      Option.map_eq_some_iff.trans
        ⟨fun ⟨d', hd', heq⟩ => hd'.trans (congrArg some (Subtype.ext heq)), fun h => ⟨d, h, rfl⟩⟩
    rw [decrypt_of_miss C hstore, EStateM.apply_bind]
    by_cases hcur : s.dhRemote = some d
    · rw [if_pos (hremote.mpr hcur)] at hrej
      obtain ⟨hck, hfar⟩ := not_or.mp hrej
      have hckne : s.receivingChainKey ≠ none := hck
      obtain ⟨ck, hck⟩ := Option.ne_none_iff_exists'.mp hck
      obtain ⟨-, hloop⟩ := skipLoop_frame C d opened.drSeq (opened.drSeq - s.seqRecv).toNat s
      obtain ⟨hck', hnr⟩ := hloop hckne
      obtain ⟨ck', hck'⟩ := Option.ne_none_iff_exists'.mp hck'
      rw [turnTo_of_eq C hcur]
      dsimp only
      rw [EStateM.apply_bind, skipMessages_of_some C hck hcur hfar]
      dsimp only
      rw [takeKey_of_some C hck', EStateM.Result.state_ok]
      intro heq
      have hseq : (skipLoop C d opened.drSeq (opened.drSeq - s.seqRecv).toNat s).seqRecv + 1 =
          s.seqRecv := congrArg (·.seqRecv) heq
      omega
    · rw [if_neg fun hx => hcur (hremote.mp hx)] at hrej
      -- from the ratchet step on the peer key is the announced one
      suffices hstate : ∀ s' : DoubleRatchetSession Priv, s'.dhRemote = some d → s' ≠ s by
        obtain ⟨s₁, hs₁⟩ : ∃ s₁, skipMessages C opened.drPn s = .ok () s₁ := by
          by_cases hnone : s.receivingChainKey = none ∨ s.dhRemote = none
          · exact ⟨s, skipMessages_of_none C hnone⟩
          · obtain ⟨hck, hd⟩ := not_or.mp hnone
            obtain ⟨ck, hck⟩ := Option.ne_none_iff_exists'.mp hck
            obtain ⟨d', hd'⟩ := Option.ne_none_iff_exists'.mp hd
            exact ⟨_, skipMessages_of_some C hck hd' hrej⟩
        have hstep := ratchetStep_dhRemote C d generated s₁
        rw [turnTo_of_ne C hcur, EStateM.apply_bind, hs₁]
        dsimp only
        cases hs₂ : ratchetStep C d generated s₁ with
        | error e s₂ =>
          rw [hs₂] at hstep
          exact hstate s₂ hstep
        | ok _ s₂ =>
          rw [hs₂] at hstep
          exact hstate _ ((skip_take_dhRemote C opened.drSeq s₂).trans hstep)
      intro s' hs' heq
      exact hcur (heq ▸ hs')

end

/-! ## Runs -/

/-- A call of the module on one session. -/
inductive Op (Priv : Type)
  | encrypt (plaintext role sessionId : String) (myPrivateKey peerPublicKey : List UInt8)
      (iv : Bytes 12) (nonce : Bytes 24) (urandom : (n : ℕ) → Bytes n)
  | decrypt (payload : Dict String Value) (role sessionId : String)
      (myPrivateKey peerPublicKey : List UInt8) (generated : Priv)

variable (L : Library)

/-- The call, with the payload or the text it returns. -/
def Op.run : Op Priv →
    EStateM PyError (DoubleRatchetSession Priv) (Dict String Value ⊕ String)
  | .encrypt plaintext role sessionId myPrivateKey peerPublicKey iv nonce urandom =>
    Sum.inl <$> encryptMessageV2 C L plaintext role sessionId myPrivateKey peerPublicKey iv nonce
      urandom
  | .decrypt payload role sessionId myPrivateKey peerPublicKey generated =>
    Sum.inr <$> decryptMessageV2 C L payload role sessionId myPrivateKey peerPublicKey generated

/-- The payload does not open, or an early check turns its header away. -/
def Harmless (s : DoubleRatchetSession Priv) (payload : Dict String Value)
    (myPrivateKey peerPublicKey : List UInt8) : Prop :=
  ∀ opened, openPayload L payload myPrivateKey peerPublicKey = .ok opened →
    RejectedEarly s opened

/-- The call decrypts a harmless payload. -/
def Op.Rejected (op : Op Priv) (s : DoubleRatchetSession Priv) : Prop :=
  ∃ payload role sessionId myPrivateKey peerPublicKey generated,
    op = .decrypt payload role sessionId myPrivateKey peerPublicKey generated ∧
      Harmless L s payload myPrivateKey peerPublicKey

/-- A call of `decrypt_message_v2` leaves the session alone on harmless payloads only. -/
theorem decryptMessageV2_state_iff (payload : Dict String Value) (role sessionId : String)
    (myPrivateKey peerPublicKey : List UInt8) (generated : Priv) (s : DoubleRatchetSession Priv) :
    (decryptMessageV2 C L payload role sessionId myPrivateKey peerPublicKey generated s).state = s ↔
      Harmless L s payload myPrivateKey peerPublicKey := by
  rw [decryptMessageV2_state, Harmless]
  cases hopen : openPayload L payload myPrivateKey peerPublicKey with
  | error e =>
    refine ⟨fun _ opened hok => ?_, fun _ => rfl⟩
    cases hok
  | ok opened =>
    dsimp only
    constructor
    · intro heq opened' hok
      obtain rfl := Except.ok.inj hok
      by_contra hrej
      exact decrypt_changes C generated hrej heq
    · intro hrej
      obtain ⟨e, he⟩ := decrypt_of_rejected C generated (hrej opened rfl)
      rw [he, EStateM.Result.state_error]

theorem Op.run_state_of_rejected (op : Op Priv) (s : DoubleRatchetSession Priv)
    (hrej : op.Rejected L s) : (op.run C L s).state = s := by
  obtain ⟨payload, role, sessionId, myPrivateKey, peerPublicKey, generated, rfl, hrej⟩ := hrej
  rw [Op.run, EStateM.state_map]
  exact (decryptMessageV2_state_iff C L payload role sessionId _ _ generated s).mpr hrej

/-- **When a failed decryption is harmless.** A call that raises leaves the
session as it was exactly when the payload did not open or an early check
failed, and any number of such payloads in a run change nothing that the
genuine calls return. -/
theorem decryptMessageV2_atomic_iff :
    (∀ (s s' : DoubleRatchetSession Priv) (payload : Dict String Value) (role sessionId : String)
        (myPrivateKey peerPublicKey : List UInt8) (generated : Priv) (e : PyError),
      decryptMessageV2 C L payload role sessionId myPrivateKey peerPublicKey generated s =
          .error e s' →
        (s' = s ↔ Harmless L s payload myPrivateKey peerPublicKey)) ∧
    ∀ (s : DoubleRatchetSession Priv) (es : List (EStateM.Event (Op Priv))),
      EStateM.ForgedMeet (Op.run C L) (Op.Rejected L) es s →
        EStateM.outcomes (Op.run C L) es s =
          EStateM.outcomes (Op.run C L) (EStateM.genuineCalls es) s := by
  refine ⟨?_, fun s es h => EStateM.outcomes_genuine _ (Op.run_state_of_rejected C L) h⟩
  intro s s' payload role sessionId myPrivateKey peerPublicKey generated e hdec
  have hiff := decryptMessageV2_state_iff C L payload role sessionId myPrivateKey peerPublicKey
    generated s
  rwa [hdec] at hiff

/-! ## Sample runs -/

/-- A box that hides nothing, and an AES-GCM whose tag is the key, the nonce
and the associated data. -/
def sampleLibrary : Library where
  int
    | .int i => .ok i
    | _ => .error (.typeError "int() argument must be a string or a real number")
  sha256 _ := Bytes.replicate 32 0
  boxEncrypt _ _ plaintext nonce := .ok (nonce ++ plaintext)
  boxDecrypt _ _ combined := .ok (combined.drop 24)
  aesgcmEncrypt key nonce data aad := .ok (key ++ nonce ++ aad ++ data)
  aesgcmDecrypt key nonce data aad :=
    let tag := key ++ nonce ++ aad
    if data.take tag.length = tag then .ok (data.drop tag.length) else .error .invalidTag

/-- What Alice gets for her first message. -/
def sampleSent : EStateM.Result PyError (DoubleRatchetSession UInt8) (Dict String Value) :=
  encryptMessageV2 sample sampleLibrary "A" "i" "s" [] [] (Bytes.replicate 12 0)
    (Bytes.replicate 24 0) (Bytes.replicate · 0) (sampleStart.session .alice)

/-- A payload with number 0, this ratchet key and this boxed text. -/
def forgedPayload (drPub body : List UInt8) : Dict String Value :=
  Dict.empty.insert "nacl_nonce" (.text (b64encode (List.replicate 24 0)))
    |>.insert "nacl_ciphertext" (.text (b64encode body))
    |>.insert "dr_dh_public" (.text (b64encode drPub))
    |>.insert "dr_seq" (.int 0)
    |>.insert "dr_pn" (.int 0)

/-- Bob reads a payload. -/
def sampleRead (payload : Dict String Value) :
    EStateM PyError (DoubleRatchetSession UInt8) String :=
  decryptMessageV2 sample sampleLibrary payload "i" "s" [] [] 3

/-- Bob could read Alice's message; after a payload with its header and an
empty box he cannot. -/
theorem decryptMessageV2_not_atomic :
    let bob := initBob [0] 2
    let forged := sampleRead (forgedPayload (List.replicate 32 1) []) bob
    sampleSent.value?.map (fun payload => (sampleRead payload bob).value?) = some (some "A") ∧
      forged.value? = none ∧ forged.state ≠ bob ∧
      sampleSent.value?.map (fun payload => (sampleRead payload forged.state).value?) =
        some none := by
  decide +kernel

/-- A payload with a ratchet key of 31 bytes leaves Bob as he was, and in front
of Alice's message changes nothing. -/
theorem decryptMessageV2_atomic_iff_short :
    let bob := initBob [0] 2
    let payload := sampleSent.value?.getD Dict.empty
    let short := forgedPayload (List.replicate 31 1) []
    (sampleRead short bob).state = bob ∧
      EStateM.outcomes (Op.run sample sampleLibrary)
          [.forged (.decrypt short "i" "s" [] [] 3), .genuine (.decrypt payload "i" "s" [] [] 3)]
          bob =
        EStateM.outcomes (Op.run sample sampleLibrary)
          [.genuine (.decrypt payload "i" "s" [] [] 3)] bob := by
  have hfail : sampleRead (forgedPayload (List.replicate 31 1) []) (initBob [0] 2) =
      .error (.valueError "An X25519 public key is 32 bytes long") (initBob [0] 2) := rfl
  have hopen : openPayload sampleLibrary (forgedPayload (List.replicate 31 1) []) [] [] =
      .ok ⟨List.replicate 31 1, 0, 0, []⟩ := rfl
  have hharmless : Harmless sampleLibrary (initBob [0] 2)
      (forgedPayload (List.replicate 31 1) []) [] [] := by
    intro opened hok
    obtain rfl := Except.ok.inj (hopen.symm.trans hok)
    exact ⟨rfl, Or.inl (by decide)⟩
  obtain ⟨hiff, hruns⟩ := decryptMessageV2_atomic_iff sample sampleLibrary
  refine ⟨?_, ?_⟩
  · have hsame := (hiff _ _ _ _ _ _ _ _ _ hfail).mpr hharmless
    rw [hfail]
    exact hsame
  · exact hruns _ [.forged (.decrypt _ "i" "s" [] [] 3), .genuine (.decrypt _ "i" "s" [] [] 3)]
      ⟨⟨_, _, _, _, _, _, rfl, hharmless⟩, trivial⟩

end AnonyMus.Python
