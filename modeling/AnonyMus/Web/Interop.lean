import AnonyMus.Lib.Simulation
import AnonyMus.Python.Sound
import AnonyMus.Web.DoubleRatchet

/-!
# Web client — interoperability with the Python core

The session of `web/src/lib/crypto.ts` that holds the keys of a session of
`core/double_ratchet.py`, and runs in which both make the same calls.

* `ofPython` — the web session with the keys of a Python session;
* `encrypt_ofPython`, `receiveKey_ofPython` — one call on either side;
* `web_interoperable` — over a run, both sides derive the same keys and headers, fail
  together, and stay in equal states.
-/

namespace AnonyMus.Web

open Binary64 (round64 round64_of_le le_round64)
open EStateM (Result)
open Python (PySession Sound skipRound_keeps)

variable (C : Python.Crypto (Bytes 32)) (W : Platform)

/-! ## Equal sessions -/

/-- Both sides call implementations of the same functions. -/
structure SameFunctions : Prop where
  hkdf : ∀ salt info ikm, W.hkdf ikm (some salt) info 64 = C.hkdf salt info ikm
  /-- Where `cryptography` does not reject an all-zero secret. -/
  dh : ∀ x d z, C.exchange x d = some z → W.dh x d = z

/-- The web session in the same state. It has no own public key until it has a
sending chain: `initBob` does not set one. -/
def ofPython (s : PySession) : DoubleRatchetSession where
  dhPrivateKey := s.dhPrivate.map Subtype.val
  dhPublicKey := match s.sendingChainKey with
    | none => none
    | some _ => s.dhPrivate.map fun x => (C.publicBytes x).1
  dhRemotePublicKey := s.dhRemote.map Subtype.val
  rootKey := s.rootKey
  sendingChainKey := s.sendingChainKey.map Subtype.val
  receivingChainKey := s.receivingChainKey.map Subtype.val
  seqSend := s.seqSend
  seqRecv := s.seqRecv
  prevChainLength := s.prevChainLength
  skippedMessageKeys := s.skippedMessageKeys

/-- The two sessions are in the same state. -/
def Ported (py : PySession) (web : DoubleRatchetSession) : Prop :=
  web = ofPython C py ∧ Sound py

/-- The key pair that either side generates. -/
def keyPairOf (x : Bytes 32) : KeyPair := ⟨x, C.publicBytes x⟩

/-- `cryptography` accepts the public key; the core accepts every one. -/
def Accepted (d : Bytes 32) : Prop := ∀ x, C.exchange x d ≠ none

variable {C W}

/-! ## Derivations -/

theorem deriveHalves_eq (ikm info salt : List UInt8) :
    deriveHalves W ikm info salt =
      .ok ((W.hkdf ikm (some salt) info 64).1.take 32,
        (W.hkdf ikm (some salt) info 64).1.drop 32) := by
  have hlen := (W.hkdf ikm (some salt) info 64).2
  rw [deriveHalves, hkdfDerive, Rust.derive_ok _ _ _ _ (by decide) (by decide)]
  show Except.ok (_, ((W.hkdf ikm (some salt) info 64).1.take 64).drop 32) = _
  rw [List.take_of_length_le (Nat.le_of_eq hlen)]

theorem chainStep_eq (hsame : SameFunctions C W) (ck : Bytes 32) :
    chainStep W ck.1 =
      .ok ((Python.chainRatchet C ck).1.1, (Python.chainRatchet C ck).2.1) := by
  rw [chainStep, deriveHalves_eq, hsame.hkdf]
  rfl

theorem rootStep_eq (hsame : SameFunctions C W) (rk : List UInt8) (z : Bytes 32) :
    rootStep W rk z.1 = .ok ((Python.rootRatchet C rk z).1, (Python.rootRatchet C rk z).2.1) := by
  rw [rootStep, deriveHalves_eq, hsame.hkdf]
  rfl

theorem array32_eq (b : Bytes 32) (msg : String) : array32 b.1 msg = .ok b := dif_pos b.2

theorem x25519Dh_eq (hsame : SameFunctions C W) {x d z : Bytes 32}
    (hz : C.exchange x d = some z) : x25519Dh W x.1 d.1 = .ok z.1 := by
  rw [x25519Dh, array32_eq, array32_eq, ← hsame.dh x d z hz]
  rfl

/-! ## Sending -/

variable {s : PySession}

/-- What a message sealed under this key looks like. -/
def sealedUnder (W : Platform) (key dh : Bytes 32) (seq prevChainLen : ℕ) (plaintext : String)
    (random : (n : ℕ) → Bytes n) (nonce : Bytes 12) : Sealed :=
  ⟨b64encode (W.gcmEncrypt key nonce (pad plaintext random)), b64encode nonce.1, b64encode dh.1,
    seq, prevChainLen⟩

theorem encrypt_of_chain (hsame : SameFunctions C W) {x ck : Bytes 32}
    (hx : s.dhPrivate = some x) (hck : s.sendingChainKey = some ck) (hseq : s.seqSend < 2 ^ 53)
    (plaintext : String) (random : (n : ℕ) → Bytes n) (nonce : Bytes 12) :
    encrypt W plaintext random nonce (ofPython C s) = .ok
      (sealedUnder W (Python.chainRatchet C ck).1 (C.publicBytes x) s.seqSend s.prevChainLength
        plaintext random nonce)
      (ofPython C { s with
        sendingChainKey := some (Python.chainRatchet C ck).2, seqSend := s.seqSend + 1 }) := by
  have hweb : (ofPython C s).sendingChainKey = some ck.1 :=
    congrArg (Option.map Subtype.val) hck
  have hpublic : (ofPython C s).dhPublicKey = some (C.publicBytes x).1 := by
    rw [ofPython, hck, hx]
    rfl
  have hround : round64 (s.seqSend + 1) = s.seqSend + 1 := round64_of_le hseq
  have hseal : aeadEncrypt W (Python.chainRatchet C ck).1.1 (pad plaintext random) nonce =
      .ok (nonce.1 ++ W.gcmEncrypt (Python.chainRatchet C ck).1 nonce (pad plaintext random)) := by
    rw [aeadEncrypt, array32_eq]
    rfl
  have hiv : nonce.1.length = 12 := nonce.2
  rw [encrypt, EStateM.apply_bind, EStateM.apply_get]
  dsimp only
  rw [hweb]
  dsimp only
  rw [chainStep_eq hsame]
  simp only [EStateM.apply_bind, EStateM.apply_ofExcept_ok, EStateM.apply_modify,
    EStateM.apply_get, EStateM.apply_pure, hseal, hpublic]
  rw [List.drop_left' hiv, List.take_left' hiv, show (ofPython C s).seqSend = s.seqSend from rfl,
    hround]
  have hkeep : some (C.publicBytes x).1 = s.dhPrivate.map fun x => (C.publicBytes x).1 := by
    rw [hx]
    rfl
  rw [hkeep]
  rfl

/-- `encrypt` on both sides. -/
theorem encrypt_ofPython (hsame : SameFunctions C W) (hs : Sound s) (hseq : s.seqSend < 2 ^ 53)
    (plaintext : String) (random : (n : ℕ) → Bytes n) (nonce : Bytes 12) :
    (Python.encrypt C s).Rel (Ported C)
      (fun sent m => m = sealedUnder W sent.1 sent.2.1 sent.2.2.1 sent.2.2.2 plaintext random nonce)
      (encrypt W plaintext random nonce (ofPython C s)) := by
  cases hck : s.sendingChainKey with
  | none =>
    have hweb : (ofPython C s).sendingChainKey = none :=
      congrArg (Option.map Subtype.val) hck
    rw [Python.encrypt_of_none C (Or.inr hck), encrypt, EStateM.apply_bind, EStateM.apply_get]
    dsimp only
    rw [hweb]
    exact .error ⟨rfl, hs⟩
  | some ck =>
    obtain ⟨x, hx⟩ := Option.ne_none_iff_exists'.mp
      (hs.own (by rw [hck]; exact Option.some_ne_none ck))
    rw [Python.encrypt_of_chain C hx hck, encrypt_of_chain hsame hx hck hseq]
    refine .ok rfl ⟨rfl, hs.root, ?_, hs.remote, hs.stored⟩
    intro _
    rw [hx]
    exact Option.some_ne_none x

/-! ## Skipping -/

theorem skipRound_ofPython (hsame : SameFunctions C W) {ck d : Bytes 32}
    (hck : s.receivingChainKey = some ck) (hd : s.dhRemote = some d) (hseq : s.seqRecv < 2 ^ 53) :
    skipRound W (ofPython C s) = .ok () (ofPython C (Python.skipRound C d s)) := by
  have hweb : (ofPython C s).receivingChainKey = some ck.1 :=
    congrArg (Option.map Subtype.val) hck
  have hremote : (ofPython C s).dhRemotePublicKey = some d.1 :=
    congrArg (Option.map Subtype.val) hd
  have hround : round64 (s.seqRecv + 1) = s.seqRecv + 1 := round64_of_le hseq
  rw [skipRound, EStateM.apply_bind, EStateM.apply_get]
  dsimp only
  rw [hweb]
  dsimp only
  rw [chainStep_eq hsame]
  simp only [EStateM.apply_bind, EStateM.apply_ofExcept_ok, EStateM.apply_modify,
    EStateM.apply_get, hremote]
  rw [show (ofPython C s).seqRecv = s.seqRecv from rfl, hround]
  unfold Python.skipRound
  rw [hck]
  dsimp only [ofPython]
  rw [hd]
  rfl

theorem skipLoop_ofPython (hsame : SameFunctions C W) {ck d : Bytes 32} {untilSeq : ℤ}
    (hs : Sound s) (hck : s.receivingChainKey = some ck) (hd : s.dhRemote = some d)
    (hseq : untilSeq ≤ 2 ^ 53) (fuel : ℕ) :
    skipLoop W untilSeq fuel (ofPython C s) =
        .ok () (ofPython C (Python.skipLoop C d untilSeq fuel s)) ∧
      Sound (Python.skipLoop C d untilSeq fuel s) := by
  induction fuel generalizing s ck with
  | zero => exact ⟨rfl, hs⟩
  | succ fuel ih =>
    rw [skipLoop, EStateM.apply_bind, EStateM.apply_get, Python.skipLoop]
    dsimp only
    rw [show (ofPython C s).seqRecv = s.seqRecv from rfl]
    by_cases hlt : (s.seqRecv : ℤ) < untilSeq
    · obtain ⟨⟨ck', hck'⟩, hremote, -⟩ := skipRound_keeps (C := C) (d := d) hck
      rw [if_pos hlt, if_pos hlt, EStateM.apply_bind,
        skipRound_ofPython hsame hck hd (by omega)]
      exact ih (hs.skipRound d hd) hck' (hremote.trans hd)
    · rw [if_neg hlt, if_neg hlt]
      exact ⟨rfl, hs⟩

/-- Equal states whose next expected number is exact. -/
def PortedExact (C : Python.Crypto (Bytes 32)) (py : PySession) (web : DoubleRatchetSession) :
    Prop :=
  Ported C py web ∧ py.seqRecv < 2 ^ 53

theorem seqRecv_skipLoop_lt {d : Bytes 32} {untilSeq : ℤ} (hseq : s.seqRecv < 2 ^ 53)
    (huntil : untilSeq < 2 ^ 53) (fuel : ℕ) :
    (Python.skipLoop C d untilSeq fuel s).seqRecv < 2 ^ 53 := by
  induction fuel generalizing s with
  | zero => exact hseq
  | succ fuel ih =>
    rw [Python.skipLoop]
    by_cases hlt : (s.seqRecv : ℤ) < untilSeq
    · rw [if_pos hlt]
      apply ih
      cases hck : s.receivingChainKey with
      | none =>
        unfold Python.skipRound
        rw [hck]
        exact hseq
      | some ck =>
        rw [(skipRound_keeps hck).2.2]
        omega
    · rw [if_neg hlt]
      exact hseq

/-- The skip limit is the same on both sides, although `seqRecv + 100` is rounded. -/
theorem skipLimit_iff {n : ℕ} {untilSeq : ℤ} (huntil : untilSeq < 2 ^ 53) :
    (round64 (n + 100) : ℤ) < untilSeq ↔ (n : ℤ) + 100 < untilSeq := by
  rcases Nat.le_total (n + 100) (2 ^ 53) with hle | hge
  · rw [round64_of_le hle, Nat.cast_add]
    rfl
  · have hround := le_round64 hge
    constructor <;> intro h <;> omega

theorem skipMessages_ofPython (hsame : SameFunctions C W) (hs : Sound s)
    (hseq : s.seqRecv < 2 ^ 53) {untilSeq : ℤ} (huntil : untilSeq < 2 ^ 53) :
    (Python.skipMessages C untilSeq s).Rel (PortedExact C) (fun _ _ => True)
      (skipMessages W untilSeq (ofPython C s)) := by
  rw [skipMessages, EStateM.apply_bind, EStateM.apply_get]
  dsimp only
  cases hck : s.receivingChainKey with
  | none =>
    have hweb : (ofPython C s).receivingChainKey = none :=
      congrArg (Option.map Subtype.val) hck
    rw [Python.skipMessages_of_none C (Or.inl hck), hweb]
    exact .ok trivial ⟨⟨rfl, hs⟩, hseq⟩
  | some ck =>
    have hsome : s.receivingChainKey ≠ none := by
      rw [hck]
      exact Option.some_ne_none ck
    obtain ⟨d, hd⟩ := Option.ne_none_iff_exists'.mp (hs.remote hsome)
    have hweb : (ofPython C s).receivingChainKey = some ck.1 :=
      congrArg (Option.map Subtype.val) hck
    rw [hweb]
    dsimp only
    rw [show (ofPython C s).seqRecv = s.seqRecv from rfl]
    by_cases hfar : (s.seqRecv : ℤ) + 100 < untilSeq
    · rw [Python.skipMessages_of_tooFar C ⟨hsome, hs.remote hsome, hfar⟩,
        if_pos ((skipLimit_iff huntil).mpr hfar)]
      exact .error ⟨⟨rfl, hs⟩, hseq⟩
    · rw [Python.skipMessages_of_some C hck hd fun h => hfar h.2.2,
        if_neg fun h => hfar ((skipLimit_iff huntil).mp h)]
      obtain ⟨hloop, hsound⟩ := skipLoop_ofPython hsame hs hck hd (Int.le_of_lt huntil)
        (untilSeq - s.seqRecv).toNat
      show Result.Rel _ _ _ (skipLoop W untilSeq (untilSeq - s.seqRecv).toNat (ofPython C s))
      rw [hloop]
      exact .ok trivial ⟨⟨rfl, hsound⟩, seqRecv_skipLoop_lt hseq huntil _⟩

/-! ## Receiving -/

theorem ratchetStep_ofPython (hsame : SameFunctions C W) (hs : Sound s)
    (hseq : s.seqRecv < 2 ^ 53) {d : Bytes 32} (haccepted : Accepted C d) (generated : Bytes 32) :
    (Python.ratchetStep C d generated s).Rel (PortedExact C) (fun _ _ => True)
      (ratchetStep W d.1 (keyPairOf C generated) (ofPython C s)) := by
  have hturned : Sound { s with dhRemote := some d } :=
    ⟨hs.root, hs.own, fun _ => Option.some_ne_none d, hs.stored⟩
  rw [ratchetStep, EStateM.apply_bind, EStateM.apply_modify]
  dsimp only
  rw [EStateM.apply_bind, EStateM.apply_get]
  dsimp only
  cases hx : s.dhPrivate with
  | none =>
    have hweb : (ofPython C s).dhPrivateKey = none :=
      congrArg (Option.map Subtype.val) hx
    rw [Python.ratchetStep_of_none C (Or.inl hx), hweb]
    exact .error ⟨⟨by rw [← hweb]; rfl, hturned⟩, hseq⟩
  | some x =>
    have hweb : (ofPython C s).dhPrivateKey = some x.1 :=
      congrArg (Option.map Subtype.val) hx
    cases hrk : s.rootKey with
    | none =>
      have hroot : (ofPython C s).rootKey = none := hrk
      rw [Python.ratchetStep_of_none C (Or.inr hrk), hweb, hroot]
      exact .error ⟨⟨by rw [← hweb, ← hroot]; rfl, hturned⟩, hseq⟩
    | some rk =>
      have hroot : (ofPython C s).rootKey = some rk := hrk
      obtain ⟨z, hz⟩ := Option.ne_none_iff_exists'.mp (haccepted x)
      obtain ⟨z', hz'⟩ := Option.ne_none_iff_exists'.mp (haccepted generated)
      have hdh1 : x25519Dh W x.1 d.1 = .ok z.1 := x25519Dh_eq hsame hz
      have hdh2 : x25519Dh W (keyPairOf C generated).privateKey.1 d.1 = .ok z'.1 :=
        x25519Dh_eq hsame hz'
      rw [Python.ratchetStep_of_exchange C hx hrk hz hz', hweb, hroot]
      simp only [EStateM.apply_bind, EStateM.apply_modify, EStateM.apply_ofExcept_ok, hdh1, hdh2,
        rootStep_eq hsame]
      refine .ok trivial ⟨⟨rfl, ?_, fun _ => Option.some_ne_none generated,
        fun _ => Option.some_ne_none d, hs.stored⟩, (by decide : 0 < 2 ^ 53)⟩
      exact fun h => Python.rootRatchet_ne_nil C _ _ (Option.some.inj h)

theorem takeKey_ofPython (hsame : SameFunctions C W) (hs : Sound s) (hseq : s.seqRecv < 2 ^ 53) :
    (Python.takeKey C s).Rel (Ported C) (fun key key' => key' = key)
      (takeKey W (ofPython C s)) := by
  rw [takeKey, EStateM.apply_bind, EStateM.apply_get]
  dsimp only
  cases hck : s.receivingChainKey with
  | none =>
    have hweb : (ofPython C s).receivingChainKey = none :=
      congrArg (Option.map Subtype.val) hck
    rw [Python.takeKey_of_none C hck, hweb]
    exact .error ⟨rfl, hs⟩
  | some ck =>
    have hsome : s.receivingChainKey ≠ none := by
      rw [hck]
      exact Option.some_ne_none ck
    have hweb : (ofPython C s).receivingChainKey = some ck.1 :=
      congrArg (Option.map Subtype.val) hck
    have hround : round64 (s.seqRecv + 1) = s.seqRecv + 1 := round64_of_le hseq
    rw [Python.takeKey_of_some C hck, hweb]
    simp only [EStateM.apply_bind, EStateM.apply_modify, EStateM.apply_ofExcept_ok,
      chainStep_eq hsame]
    rw [show (ofPython C s).seqRecv = s.seqRecv from rfl, hround]
    exact .ok rfl ⟨rfl, hs.root, hs.own, fun _ => hs.remote hsome, hs.stored⟩

theorem turnTo_ofPython (hsame : SameFunctions C W) (hs : Sound s) (hseq : s.seqRecv < 2 ^ 53)
    {d : Bytes 32} (haccepted : Accepted C d) {pn : ℤ} (hpn : pn < 2 ^ 53) (generated : Bytes 32) :
    (Python.turnTo C d pn generated s).Rel (PortedExact C) (fun _ _ => True)
      (turnTo W d.1 pn (keyPairOf C generated) (ofPython C s)) := by
  have hremote : (ofPython C s).dhRemotePublicKey = some d.1 ↔ s.dhRemote = some d := by
    show s.dhRemote.map Subtype.val = (some d).map Subtype.val ↔ s.dhRemote = some d
    exact (Option.map_injective Subtype.val_injective).eq_iff
  rw [turnTo, EStateM.apply_bind, EStateM.apply_get]
  dsimp only
  by_cases hd : s.dhRemote = some d
  · rw [Python.turnTo_of_eq C hd, if_neg (not_not_intro (hremote.mpr hd))]
    exact .ok trivial ⟨⟨rfl, hs⟩, hseq⟩
  · rw [Python.turnTo_of_ne C hd, if_pos fun h => hd (hremote.mp h)]
    apply (skipMessages_ofPython hsame hs hseq hpn).bind fun _ _ h => h
    rintro - - py web - ⟨⟨rfl, hpy⟩, hexact⟩
    exact ratchetStep_ofPython hsame hpy hexact haccepted generated

/-- The ratchet of `decrypt` on both sides. -/
theorem receiveKey_ofPython (hsame : SameFunctions C W) (hs : Sound s) (hexact : s.seqRecv < 2 ^ 53)
    {d : Bytes 32} (haccepted : Accepted C d) {seq pn : ℤ} (hseq : seq < 2 ^ 53)
    (hpn : pn < 2 ^ 53) (generated : Bytes 32) :
    (Python.decrypt C d.1 seq pn generated s).Rel (Ported C) (fun key key' => key' = key)
      (receiveKey W d.1 seq pn (keyPairOf C generated) (ofPython C s)) := by
  rw [receiveKey, EStateM.apply_bind, EStateM.apply_get]
  dsimp only
  rw [show (ofPython C s).skippedMessageKeys.get? (skipKey d.1 seq) =
    s.skippedMessageKeys.get? (Python.skipKey d.1 seq) from rfl]
  cases hstore : s.skippedMessageKeys.get? (Python.skipKey d.1 seq) with
  | some v =>
    -- a stored key is the hexadecimal text of 32 bytes, so JavaScript takes it as present
    obtain ⟨key, rfl⟩ := hs.stored _ v hstore
    obtain ⟨c, rest, hcons⟩ := List.exists_cons_of_ne_nil
      (fun h => Python.ne_nil_of_length (by decide) key (toHex_eq_nil_iff.mp h))
    have hread : bytesOfHex (c :: rest) = key.1 := by
      rw [← hcons, bytesOfHex, fromHex_toHex]
      rfl
    rw [Python.decrypt_of_stored C hstore, Python.bytesFromHex, fromHex_toHex, hcons]
    dsimp only
    rw [EStateM.apply_ofExcept_ok, EStateM.apply_bind, EStateM.apply_modify]
    exact .ok hread ⟨rfl, hs.erase _⟩
  | none =>
    rw [Python.decrypt_of_miss C hstore]
    dsimp only
    apply (turnTo_ofPython hsame hs hexact haccepted hpn generated).bind fun _ _ h => h.1
    rintro - - py web - ⟨⟨rfl, hpy⟩, hexact'⟩
    apply (skipMessages_ofPython hsame hpy hexact' hseq).bind fun _ _ h => h.1
    rintro - - py' web' - ⟨⟨rfl, hpy'⟩, hexact''⟩
    exact takeKey_ofPython hsame hpy' hexact''

/-! ## Storing -/

theorem readHex_map {field : Option (List UInt8)} (h : field ≠ some []) :
    readHex (field.map toHex) = field := by
  rcases field with _ | key
  · rfl
  · have hne : toHex key ≠ [] := fun hnil => h (congrArg some (toHex_eq_nil_iff.mp hnil))
    obtain ⟨c, rest, hcons⟩ := List.exists_cons_of_ne_nil hne
    rw [Option.map_some, hcons, readHex, ← hcons, bytesOfHex, fromHex_toHex]
    rfl

theorem map_val_ne (field : Option (Bytes 32)) : field.map Subtype.val ≠ some [] := by
  intro h
  obtain ⟨key, -, hkey⟩ := Option.map_eq_some_iff.mp h
  exact Python.ne_nil_of_length (by decide) key hkey

theorem deserialize_serialize_ofPython (hs : Sound s) :
    deserialize (serialize (ofPython C s)) = ofPython C s := by
  have hpublic : (ofPython C s).dhPublicKey ≠ some [] := by
    unfold ofPython
    cases s.sendingChainKey with
    | none => exact (Option.some_ne_none _).symm
    | some ck =>
      rw [show (s.dhPrivate.map fun x => (C.publicBytes x).1) =
        (s.dhPrivate.map C.publicBytes).map Subtype.val from (Option.map_map ..).symm]
      exact map_val_ne _
  unfold deserialize serialize
  dsimp only
  rw [readHex_map (show (ofPython C s).dhPrivateKey ≠ some [] from map_val_ne _),
    readHex_map hpublic,
    readHex_map (show (ofPython C s).dhRemotePublicKey ≠ some [] from map_val_ne _),
    readHex_map (show (ofPython C s).rootKey ≠ some [] from hs.root),
    readHex_map (show (ofPython C s).sendingChainKey ≠ some [] from map_val_ne _),
    readHex_map (show (ofPython C s).receivingChainKey ≠ some [] from map_val_ne _)]

/-! ## Initial sessions -/

theorem ported_initBob {ss : List UInt8} (hss : ss ≠ []) (x : Bytes 32) :
    Ported C (Python.initBob ss x) (initBob ss x.1) :=
  ⟨rfl, Python.initBob_sound hss x⟩

theorem ported_initAlice (hsame : SameFunctions C W) {ss : List UInt8} {x d z : Bytes 32}
    (hz : C.exchange x d = some z) :
    ∃ py web, Python.initAlice C ss d.1 x = .ok py ∧
      initAlice W ss d.1 (keyPairOf C x) = .ok web ∧ Ported C py web := by
  have hdh : x25519Dh W (keyPairOf C x).privateKey.1 d.1 = .ok z.1 := x25519Dh_eq hsame hz
  obtain ⟨py, hpy, hsound⟩ : ∃ py, Python.initAlice C ss d.1 x = .ok py ∧ Sound py :=
    Python.initAlice_sound hz
  refine ⟨py, _, hpy, ?_, rfl, hsound⟩
  rw [Python.initAlice_of_exchange C ss hz] at hpy
  obtain rfl := Except.ok.inj hpy
  unfold initAlice
  rw [hdh]
  dsimp only [bind, Except.bind]
  rw [rootStep_eq hsame]
  rfl

/-! ## Runs -/

/-- One call on either side. The header of a `decrypt` and what is generated
are the same on both; the rest only concerns the web client. -/
inductive Op
  | encrypt (plaintext : String) (random : (n : ℕ) → Bytes n) (nonce : Bytes 12)
  | decrypt (dh : Bytes 32) (iv ciphertext : List UInt8) (seq prevChainLen : ℤ)
      (generated : Bytes 32)
  | reloadPython
  | reloadWeb

/-- What a Python call derives. -/
inductive Derived
  | sent (key dh : Bytes 32) (seq prevChainLen : ℕ)
  | received (key : List UInt8)
  | reloaded

/-- What a web call returns. -/
inductive Output
  | message (m : Sealed)
  | text (t : String)
  | reloaded

def pythonCall (C : Python.Crypto (Bytes 32)) :
    Op → EStateM Python.PyError PySession Derived
  | .encrypt _ _ _ => do
    let (key, dh, seq, prevChainLen) ← Python.encrypt C
    return .sent key dh seq prevChainLen
  | .decrypt dh _ _ seq prevChainLen generated => do
    return .received (← Python.decrypt C dh.1 seq prevChainLen generated)
  | .reloadPython => do
    set (← ofExcept (Python.fromJson (Python.toJson (← get))))
    return .reloaded
  | .reloadWeb => return .reloaded

def webCall (C : Python.Crypto (Bytes 32)) (W : Platform) :
    Op → EStateM JsError DoubleRatchetSession Output
  | .encrypt plaintext random nonce => do return .message (← encrypt W plaintext random nonce)
  | .decrypt dh iv ciphertext seq prevChainLen generated => do
    return .text (← decrypt W dh.1 iv ciphertext seq prevChainLen (keyPairOf C generated))
  | .reloadPython => return .reloaded
  | .reloadWeb => do
    modify fun s => deserialize (serialize s)
    return .reloaded

/-- The number of a header is a whole number that a `Number` holds exactly. -/
def Exact (n : ℤ) : Prop := -2 ^ 53 < n ∧ n < 2 ^ 53

instance (n : ℤ) : Decidable (Exact n) := by
  unfold Exact
  infer_instance

/-- The header that is sent, received or expected next is within the bounds. -/
def Within (C : Python.Crypto (Bytes 32)) : Op → PySession → Prop
  | .encrypt _ _ _, s => s.seqSend < 2 ^ 53
  | .decrypt dh _ _ seq prevChainLen _, s =>
    Accepted C dh ∧ Exact seq ∧ Exact prevChainLen ∧ s.seqRecv < 2 ^ 53
  | _, _ => True

/-- The two calls agree: the message is sealed under the key and the header that
Python derives, the text is opened with the key that Python derives, and the
ratchet fails on both sides or on neither. -/
def Agree (W : Platform) : Op → Except Python.PyError Derived → Except JsError Output → Prop
  | .encrypt plaintext random nonce, .ok (.sent key dh seq prevChainLen), .ok (.message m) =>
    m = sealedUnder W key dh seq prevChainLen plaintext random nonce
  | .decrypt _ iv ciphertext _ _ _, .ok (.received key), out =>
    out = (openText W key iv ciphertext).map .text
  | .reloadPython, .ok .reloaded, .ok .reloaded => True
  | .reloadWeb, .ok .reloaded, .ok .reloaded => True
  | _, .error _, .error _ => True
  | _, _, _ => False

/-- One call. -/
theorem call_agrees (hsame : SameFunctions C W) {op : Op} {py : PySession}
    {web : DoubleRatchetSession} (hported : Ported C py web) (hwithin : Within C op py) :
    Agree W op (pythonCall C op py).toExcept (webCall C W op web).toExcept ∧
      Ported C (pythonCall C op py).state (webCall C W op web).state := by
  obtain ⟨rfl, hs⟩ := hported
  cases op with
  | encrypt plaintext random nonce =>
    have h := encrypt_ofPython hsame hs hwithin plaintext random nonce
    rw [pythonCall, webCall, EStateM.apply_bind, EStateM.apply_bind]
    revert h
    rcases Python.encrypt C py with ⟨⟨key, dh, seq, pn⟩, py'⟩ | ⟨e, py'⟩
    · rcases encrypt W plaintext random nonce (ofPython C py) with ⟨m, web'⟩ | ⟨e', web'⟩
      · rintro (⟨hm, hr⟩ | -)
        exact ⟨hm, hr⟩
      · rintro ⟨⟩
    · rcases encrypt W plaintext random nonce (ofPython C py) with ⟨m, web'⟩ | ⟨e', web'⟩
      · rintro ⟨⟩
      · rintro (- | hr)
        exact ⟨trivial, hr⟩
  | decrypt dh iv ciphertext seq pn generated =>
    obtain ⟨haccepted, hseq, hpn, hexact⟩ := hwithin
    have h := receiveKey_ofPython hsame hs hexact haccepted hseq.2 hpn.2 generated
    rw [pythonCall, webCall, EStateM.apply_bind, EStateM.apply_bind, decrypt, EStateM.apply_bind]
    revert h
    rcases Python.decrypt C dh.1 seq pn generated py with ⟨key, py'⟩ | ⟨e, py'⟩
    · rcases receiveKey W dh.1 seq pn (keyPairOf C generated) (ofPython C py)
        with ⟨key', web'⟩ | ⟨e', web'⟩
      · rintro (⟨rfl, hr⟩ | -)
        -- the ratchet is done; the AEAD may still refuse the message
        dsimp only
        rw [EStateM.apply_ofExcept]
        cases hopen : openText W key' iv ciphertext with
        | ok text => exact ⟨congrArg (Except.map Output.text) hopen.symm, hr⟩
        | error e' => exact ⟨congrArg (Except.map Output.text) hopen.symm, hr⟩
      · rintro ⟨⟩
    · rcases receiveKey W dh.1 seq pn (keyPairOf C generated) (ofPython C py)
        with ⟨key', web'⟩ | ⟨e', web'⟩
      · rintro ⟨⟩
      · rintro (- | hr)
        exact ⟨trivial, hr⟩
  | reloadPython =>
    have hread := Python.fromJson_toJson hs.root
    rw [pythonCall, EStateM.apply_bind, EStateM.apply_get]
    dsimp only
    rw [hread, EStateM.apply_bind, EStateM.apply_ofExcept_ok]
    exact ⟨trivial, rfl, hs⟩
  | reloadWeb =>
    rw [webCall, EStateM.apply_bind, EStateM.apply_modify]
    exact ⟨trivial, deserialize_serialize_ofPython hs, hs⟩

/-- **Interoperability.** Over every run of calls, from equal sessions, the two
sides agree on each call and stay in equal states, wherever either is stored
and read back. -/
theorem web_interoperable (hsame : SameFunctions C W) {py : PySession} {web : DoubleRatchetSession}
    (hported : Ported C py web) {ops : List Op}
    (hwithin : EStateM.AllMeet (pythonCall C) (Within C) ops py) :
    (∀ done todo, ops = done ++ todo →
        Ported C (EStateM.after (pythonCall C) done py) (EStateM.after (webCall C W) done web)) ∧
      ∀ done op todo, ops = done ++ op :: todo →
        Agree W op (pythonCall C op (EStateM.after (pythonCall C) done py)).toExcept
          (webCall C W op (EStateM.after (webCall C W) done web)).toExcept :=
  EStateM.run_related (fun _ _ _ => call_agrees hsame) hported hwithin

/-- Primitives by small formulas, the same on both sides. -/
def sampleCrypto : Python.Crypto (Bytes 32) where
  publicBytes x := x
  exchange x d := some (Bytes.replicate 32 (x.1.headD 0 + d.1.headD 0))
  hkdf salt _ ikm := Bytes.replicate 64 (salt.headD 0 + ikm.headD 0 + 1)

def samplePlatform : Platform where
  dh x d := Bytes.replicate 32 (x.1.headD 0 + d.1.headD 0)
  hkdf ikm salt _ len := Bytes.replicate len ((salt.getD []).headD 0 + ikm.headD 0 + 1)
  gcmEncrypt key _ plaintext := key.1 ++ plaintext
  gcmDecrypt _ _ ciphertext := .ok (ciphertext.drop 32)
  textDecode data := (String.fromUTF8? ⟨data.toArray⟩).getD ""

theorem sample_sameFunctions : SameFunctions sampleCrypto samplePlatform :=
  ⟨fun _ _ _ => rfl, fun _ _ _ hz => Option.some.inj hz⟩

/-- Bob receives number 2 of a chain, is stored, receives number 0, and answers. -/
def sampleOps : List Op :=
  [.decrypt (Bytes.replicate 32 1) [] [] 2 0 (Bytes.replicate 32 3), .reloadWeb,
    .decrypt (Bytes.replicate 32 1) [] [] 0 0 (Bytes.replicate 32 4), .reloadPython,
    .encrypt "ok" (fun n => Bytes.replicate n 0) (Bytes.replicate 12 0)]

theorem web_interoperable_sample :
    Ported sampleCrypto
      (EStateM.after (pythonCall sampleCrypto) sampleOps
        (Python.initBob [5] (Bytes.replicate 32 2)))
      (EStateM.after (webCall sampleCrypto samplePlatform) sampleOps
        (initBob [5] (Bytes.replicate 32 2).1)) := by
  have haccepted : ∀ d, Accepted sampleCrypto d := fun _ _ => Option.some_ne_none _
  have hwithin : EStateM.AllMeet (pythonCall sampleCrypto) (Within sampleCrypto) sampleOps
      (Python.initBob [5] (Bytes.replicate 32 2)) :=
    ⟨⟨haccepted _, by decide, by decide, by decide⟩, trivial,
      ⟨haccepted _, by decide, by decide, by decide +kernel⟩, trivial, by unfold Within; decide +kernel,
      trivial⟩
  exact (web_interoperable sample_sameFunctions (ported_initBob (by decide) _) hwithin).1
    sampleOps [] (List.append_nil _).symm

end AnonyMus.Web
