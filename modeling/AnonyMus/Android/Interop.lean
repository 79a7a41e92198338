import AnonyMus.Android.DoubleRatchet
import AnonyMus.Lib.Simulation
import AnonyMus.Python.Sound

/-!
# Android client — interoperability with the Python core

The session of `DoubleRatchetSession.kt` that holds the keys of a session of
`core/double_ratchet.py`, and runs in which both make the same calls. The Kotlin
session never evicts a skipped key, counts in 32 bits, and turns to a new ratchet
key before it looks at its length.

* `ofPython` — the Kotlin session with the keys of a Python session;
* `Conforms` — the calls on which none of the three differences shows;
* `encrypt_ofPython`, `decrypt_ofPython` — one such call on either side;
* `kotlin_interoperable` — over a run of them, both sides return the same keys and
  headers, reject the same headers, and hold the same skipped keys.
-/

namespace AnonyMus.Android

open EStateM (Result)
open Python (PySession Sound skipRound_keeps)

variable (C : Python.Crypto (Bytes 32)) (P : Provider)

/-! ## Equal sessions -/

/-- Both sides call implementations of the same functions. -/
structure SameFunctions : Prop where
  /-- HKDF-SHA256 with an output of two blocks. -/
  hkdf : ∀ salt info ikm, salt ≠ [] →
    (C.hkdf salt info ikm).1 =
      (P.hmac (P.hmac salt ikm).1 (info ++ [0x01])).1 ++
        (P.hmac (P.hmac salt ikm).1
          ((P.hmac (P.hmac salt ikm).1 (info ++ [0x01])).1 ++ info ++ [0x02])).1
  xdh : ∀ x d z, C.exchange x d = some z →
    P.xdh (pkcs8Header ++ x.1) (spkiHeader ++ d.1) = .ok z.1
  /-- Both libraries reject an all-zero secret. -/
  xdh_none : ∀ x d, C.exchange x d = none →
    ∃ e, P.xdh (pkcs8Header ++ x.1) (spkiHeader ++ d.1) = .error e

/-- The Kotlin session in the same state. -/
def ofPython (s : PySession) : DoubleRatchetSession where
  dhPrivateKeyBytes := s.dhPrivate.map Subtype.val
  dhPublicKeyBytes := s.dhPrivate.map fun x => (C.publicBytes x).1
  dhRemotePublicKeyBytes := s.dhRemote.map Subtype.val
  rootKey := s.rootKey
  sendingChainKey := s.sendingChainKey.map Subtype.val
  receivingChainKey := s.receivingChainKey.map Subtype.val
  seqSend := s.seqSend
  seqRecv := s.seqRecv
  prevChainLength := s.prevChainLength
  skippedMessageKeys := s.skippedMessageKeys

/-- The counters of a session that an `Int` can hold. -/
structure Fits (s : PySession) : Prop where
  seqSend : s.seqSend < 2 ^ 31
  seqRecv : s.seqRecv < 2 ^ 31
  prev    : s.prevChainLength < 2 ^ 31

/-- The two sessions are in the same state. -/
def Ported (py : PySession) (kt : DoubleRatchetSession) : Prop :=
  kt = ofPython C py ∧ Sound py ∧ Fits py

/-- The key pair that either side generates. -/
def keyPairOf (x : Bytes 32) : KeyPair := ⟨x, C.publicBytes x⟩

/-! ## Calls without a difference -/

/-- The text keys of the numbers from `n` on. -/
def slotsFrom (d : Bytes 32) : ℕ → ℕ → List (List Char)
  | _, 0 => []
  | n, count + 1 => Python.skipKey d.1 n :: slotsFrom d (n + 1) count

/-- The slots that skipping up to `untilSeq` stores. -/
def slots (s : PySession) (untilSeq : ℤ) : List (List Char) :=
  match s.receivingChainKey, s.dhRemote with
  | some _, some d => slotsFrom d s.seqRecv (untilSeq - s.seqRecv).toNat
  | _, _ => []

/-- No slot is written while 1000 are stored, so Python evicts nothing. -/
def RoomFor : (stored slots : List (List Char)) → Prop
  | _, [] => True
  | stored, k :: ks => stored.length < 1000 ∧ RoomFor (Dict.addKey stored k) ks

instance decidableRoomFor : ∀ stored slots, Decidable (RoomFor stored slots)
  | _, [] => .isTrue trivial
  | stored, k :: ks =>
    have := decidableRoomFor (Dict.addKey stored k) ks
    inferInstanceAs (Decidable (stored.length < 1000 ∧ RoomFor (Dict.addKey stored k) ks))

/-- Skipping on the current chain overflows nothing and evicts nothing. -/
def SkipConforms (s : PySession) (untilSeq : ℤ) : Prop :=
  s.receivingChainKey ≠ none →
    s.seqRecv + 100 < 2 ^ 31 ∧
      (untilSeq ≤ s.seqRecv + 100 → RoomFor s.skippedMessageKeys.keys (slots s untilSeq))

/-- The ratchet step for this peer key goes through. -/
def Turns (s : PySession) (d generated : Bytes 32) : Prop :=
  s.rootKey ≠ none ∧ C.exchange generated d ≠ none ∧
    ∃ x, s.dhPrivate = some x ∧ C.exchange x d ≠ none

/-- One call on either side, with the same header and the same generated key.
The numbers of a header are `Int`s. -/
inductive Op
  | encrypt
  | decrypt (dh : List UInt8) (seq prevChainLen : Int32) (generated : Bytes 32)

/-- Sending does not overflow. Receiving takes a stored key, or a ratchet key of
32 bytes unless the skip is refused first, and neither overflows nor evicts. -/
def Conforms : Op → PySession → Prop
  | .encrypt, s => s.sendingChainKey ≠ none → s.seqSend + 1 < 2 ^ 31
  | .decrypt dh seq pn generated, s =>
    s.skippedMessageKeys.get? (Python.skipKey dh seq.toInt) = none →
      if s.dhRemote.map Subtype.val = some dh then
        SkipConforms s seq.toInt ∧
          (s.receivingChainKey ≠ none → seq.toInt ≤ s.seqRecv + 100 → seq.toInt + 1 < 2 ^ 31)
      else
        SkipConforms s pn.toInt ∧
          (¬ Python.TooFar s pn.toInt → ∃ h : dh.length = 32,
            Turns C s ⟨dh, h⟩ generated → seq.toInt ≤ 100 →
              RoomFor ((slots s pn.toInt).foldl Dict.addKey s.skippedMessageKeys.keys)
                (slotsFrom ⟨dh, h⟩ 0 seq.toInt.toNat))

variable {C P}

/-! ## Derivations -/

theorem deriveHalves_eq (hsame : SameFunctions C P) (ikm info : List UInt8) {salt : List UInt8}
    (hsalt : salt ≠ []) :
    deriveHalves P ikm info salt =
      .ok ((C.hkdf salt info ikm).1.take 32, (C.hkdf salt info ikm).1.drop 32) := by
  have hne : ∀ b : Bytes 32, b.1 ≠ [] := Python.ne_nil_of_length (by decide)
  have hlen := (C.hkdf salt info ikm).2
  have hderive : hkdfDerive512 P ikm info salt = .ok (C.hkdf salt info ikm).1 := by
    rw [hsame.hkdf salt info ikm hsalt]
    unfold hkdfDerive512 hmacSha256
    rw [if_neg hsalt]
    dsimp only [bind, Except.bind]
    rw [if_neg (hne _)]
    dsimp only
    rw [if_neg (hne _)]
    rfl
  rw [deriveHalves, hderive]
  show Except.ok (_, ((C.hkdf salt info ikm).1.take 64).drop 32) = _
  rw [List.take_of_length_le (Nat.le_of_eq hlen)]

theorem chainStep_eq (hsame : SameFunctions C P) (ck : Bytes 32) :
    deriveHalves P (List.replicate 32 0) chainInfo ck.1 =
      .ok ((Python.chainRatchet C ck).1.1, (Python.chainRatchet C ck).2.1) := by
  rw [deriveHalves_eq hsame _ _ (Python.ne_nil_of_length (by decide) ck)]
  rfl

theorem rootStep_eq (hsame : SameFunctions C P) {rk : List UInt8} (hrk : rk ≠ [])
    (z : Bytes 32) :
    deriveHalves P z.1 rootInfo rk =
      .ok ((Python.rootRatchet C rk z).1, (Python.rootRatchet C rk z).2.1) := by
  rw [deriveHalves_eq hsame _ _ hrk]
  rfl

/-! ## Encrypt step -/

variable {s : PySession}

/-- `encrypt` on both sides. -/
theorem encrypt_ofPython (hsame : SameFunctions C P) (hs : Sound s) (hfits : Fits s)
    (hseq : s.sendingChainKey ≠ none → s.seqSend + 1 < 2 ^ 31) :
    (Python.encrypt C s).Rel (Ported C)
      (fun sent step => step = ⟨sent.1.1, sent.2.1.1, sent.2.2.1, sent.2.2.2⟩)
      (encrypt P (ofPython C s)) := by
  rw [encrypt, EStateM.apply_bind, EStateM.apply_get]
  dsimp only
  cases hck : s.sendingChainKey with
  | none =>
    have hkt : (ofPython C s).sendingChainKey = none :=
      congrArg (Option.map Subtype.val) hck
    rw [Python.encrypt_of_none C (Or.inr hck), hkt]
    exact .error ⟨rfl, hs, hfits⟩
  | some ck =>
    have hsome : s.sendingChainKey ≠ none := by
      rw [hck]
      exact Option.some_ne_none ck
    have hnext := hseq hsome
    obtain ⟨x, hx⟩ := Option.ne_none_iff_exists'.mp (hs.own hsome)
    have hkt : (ofPython C s).sendingChainKey = some ck.1 :=
      congrArg (Option.map Subtype.val) hck
    have hpublic : (ofPython C s).dhPublicKeyBytes = some (C.publicBytes x).1 := by
      rw [ofPython, hx]
      rfl
    have hsum := int32_succ hnext
    -- both take the same chain step, and Kotlin reads the header field by field
    rw [Python.encrypt_of_chain C hx hck, hkt]
    dsimp only
    rw [chainStep_eq hsame]
    rw [EStateM.apply_bind, EStateM.apply_ofExcept_ok]
    dsimp only
    rw [EStateM.apply_bind, EStateM.apply_modify]
    dsimp only
    rw [EStateM.apply_bind, EStateM.apply_get]
    dsimp only
    rw [EStateM.apply_bind, EStateM.apply_modify]
    dsimp only
    rw [EStateM.apply_bind, EStateM.apply_get]
    dsimp only
    rw [hpublic]
    dsimp only
    rw [EStateM.apply_bind, EStateM.apply_get, show (ofPython C s).seqSend = s.seqSend from rfl,
      hsum, ← hpublic]
    refine .ok rfl ⟨rfl, ⟨hs.root, fun _ => ?_, hs.remote, hs.stored⟩,
      ⟨hnext, hfits.seqRecv, hfits.prev⟩⟩
    show s.dhPrivate ≠ none
    rw [hx]
    exact Option.some_ne_none x

/-! ## Skipping -/

/-- A round with room: nothing is evicted. -/
theorem skipRound_of_room {ck d : Bytes 32} (hck : s.receivingChainKey = some ck)
    (hroom : s.skippedMessageKeys.keys.length < 1000) :
    Python.skipRound C d s =
      { s with
        receivingChainKey := some (Python.chainRatchet C ck).2
        skippedMessageKeys := s.skippedMessageKeys.insert (Python.skipKey d.1 s.seqRecv)
          (toHex (Python.chainRatchet C ck).1.1)
        seqRecv := s.seqRecv + 1 } := by
  rw [Dict.length_keys] at hroom
  unfold Python.skipRound
  rw [hck]
  dsimp only
  rw [if_neg (Nat.not_le_of_lt hroom)]

/-- With room for every slot, the Kotlin loop stores what the Python loop does.
Meanwhile `receivingChainKey` keeps its value, and a local variable the chain. -/
theorem skipLoop_ofPython (hsame : SameFunctions C P) {ck d : Bytes 32} {untilSeq : ℤ}
    (huntil : untilSeq < 2 ^ 31) (old : Option (List UInt8)) {fuel : ℕ}
    (hfuel : (untilSeq - s.seqRecv).toNat = fuel) (hs : Sound s)
    (hck : s.receivingChainKey = some ck) (hd : s.dhRemote = some d)
    (hroom : RoomFor s.skippedMessageKeys.keys (slotsFrom d s.seqRecv fuel)) :
    ∃ ck' D, Python.skipLoop C d untilSeq fuel s =
        { s with
          receivingChainKey := some ck', skippedMessageKeys := D, seqRecv := s.seqRecv + fuel } ∧
      Sound { s with
        receivingChainKey := some ck', skippedMessageKeys := D, seqRecv := s.seqRecv + fuel } ∧
      D.keys = (slotsFrom d s.seqRecv fuel).foldl Dict.addKey s.skippedMessageKeys.keys ∧
      skipLoop P untilSeq fuel ck.1 { ofPython C s with receivingChainKey := old } =
        .ok ck'.1 { ofPython C s with
          receivingChainKey := old, skippedMessageKeys := D, seqRecv := (s.seqRecv + fuel : ℕ) } := by
  induction fuel generalizing s ck with
  | zero =>
    refine ⟨ck, s.skippedMessageKeys, ?_, ?_, rfl, rfl⟩
    · rw [← hck]
      rfl
    · rw [← hck]
      exact hs
  | succ fuel ih =>
    have hlt : (s.seqRecv : ℤ) < untilSeq := by omega
    obtain ⟨hsize, hrest⟩ := hroom
    have hround := skipRound_of_room (C := C) (d := d) hck hsize
    have hsound := hs.skipRound (C := C) d hd
    rw [hround] at hsound
    have hsum : int32 ((s.seqRecv : ℤ) + 1) = ((s.seqRecv + 1 : ℕ) : ℤ) := int32_succ (by omega)
    have hremote : (ofPython C s).dhRemotePublicKeyBytes = some d.1 :=
      congrArg (Option.map Subtype.val) hd
    obtain ⟨ck', D, hpy, hsound', hkeys, hkt⟩ := ih
      (s := { s with
        receivingChainKey := some (Python.chainRatchet C ck).2
        skippedMessageKeys := s.skippedMessageKeys.insert (Python.skipKey d.1 s.seqRecv)
          (toHex (Python.chainRatchet C ck).1.1)
        seqRecv := s.seqRecv + 1 })
      (by dsimp only; omega) hsound rfl hd (by rw [Dict.keys_insert]; exact hrest)
    have hcount : s.seqRecv + 1 + fuel = s.seqRecv + (fuel + 1) := by omega
    dsimp only at hpy hsound' hkeys hkt
    rw [hcount] at hpy hsound' hkt
    refine ⟨ck', D, ?_, hsound', ?_, ?_⟩
    · rw [Python.skipLoop, if_pos hlt, hround]
      exact hpy
    · rw [hkeys, Dict.keys_insert, slotsFrom, List.foldl_cons]
    · -- one round in Kotlin, and then the rest
      rw [skipLoop, EStateM.apply_bind, EStateM.apply_get]
      dsimp only
      rw [show (ofPython C s).seqRecv = s.seqRecv from rfl, if_pos hlt, chainStep_eq hsame]
      simp only [EStateM.apply_bind, EStateM.apply_ofExcept_ok, EStateM.apply_get, hremote,
        EStateM.apply_modify]
      rw [hsum, ← hremote]
      exact hkt

/-- Skipping goes through on both sides, unless it is refused. -/
theorem skipMessages_ofPython (hsame : SameFunctions C P) {untilSeq : ℤ}
    (huntil : untilSeq < 2 ^ 31) (hs : Sound s) (hfar : ¬ Python.TooFar s untilSeq)
    (hskip : SkipConforms s untilSeq) :
    ∃ rck D n, Python.skipMessages C untilSeq s =
        .ok () { s with receivingChainKey := rck, skippedMessageKeys := D, seqRecv := n } ∧
      Sound { s with receivingChainKey := rck, skippedMessageKeys := D, seqRecv := n } ∧
      D.keys = (slots s untilSeq).foldl Dict.addKey s.skippedMessageKeys.keys ∧
      (rck = none ↔ s.receivingChainKey = none) ∧ (n : ℤ) ≤ max (s.seqRecv : ℤ) untilSeq ∧
      skipMessages P untilSeq (ofPython C s) = .ok () (ofPython C
        { s with receivingChainKey := rck, skippedMessageKeys := D, seqRecv := n }) := by
  rw [skipMessages, EStateM.apply_bind, EStateM.apply_get]
  dsimp only
  cases hck : s.receivingChainKey with
  | none =>
    have hkt : (ofPython C s).receivingChainKey = none :=
      congrArg (Option.map Subtype.val) hck
    have hslots : slots s untilSeq = [] := by rw [slots, hck]
    have hself : { s with
        receivingChainKey := none, skippedMessageKeys := s.skippedMessageKeys
        seqRecv := s.seqRecv } = s := by rw [← hck]
    refine ⟨none, s.skippedMessageKeys, s.seqRecv, ?_, ?_, ?_, Iff.rfl, Int.le_max_left _ _, ?_⟩
    · rw [Python.skipMessages_of_none C (Or.inl hck), hself]
    · rwa [hself]
    · rw [hslots]
      rfl
    · rw [hkt, hself]
      rfl
  | some ck =>
    have hsome : s.receivingChainKey ≠ none := by
      rw [hck]
      exact Option.some_ne_none ck
    obtain ⟨d, hd⟩ := Option.ne_none_iff_exists'.mp (hs.remote hsome)
    have hnear : untilSeq ≤ s.seqRecv + 100 :=
      Int.not_lt.mp fun h => hfar ⟨hsome, hs.remote hsome, h⟩
    -- the sum does not overflow, and the keys are stored without an eviction
    obtain ⟨hover, hroom⟩ := hskip hsome
    have hslots : slots s untilSeq = slotsFrom d s.seqRecv (untilSeq - s.seqRecv).toNat := by
      rw [slots, hck, hd]
    have hroom := hslots ▸ hroom hnear
    obtain ⟨ck', D, hpy, hsound, hkeys, hloop⟩ := skipLoop_ofPython hsame huntil
      (some ck.1) rfl hs hck hd hroom
    have hkt : (ofPython C s).receivingChainKey = some ck.1 :=
      congrArg (Option.map Subtype.val) hck
    have hlimit : int32 ((s.seqRecv : ℤ) + maxSkip) = s.seqRecv + 100 := by
      rw [show maxSkip = 100 from rfl, int32_of_lt (by omega) (by omega)]
    refine ⟨some ck', D, _, ?_, hsound, hslots ▸ hkeys, by simp, ?_, ?_⟩
    · rw [Python.skipMessages_of_some C hck hd hfar, hpy]
    · omega
    · have hsame' : ({ ofPython C s with receivingChainKey := some ck.1 } : DoubleRatchetSession) =
          ofPython C s := by rw [← hkt]
      rw [hsame'] at hloop
      rw [hkt]
      dsimp only
      rw [show (ofPython C s).seqRecv = s.seqRecv from rfl, hlimit, if_neg (Int.not_lt.mpr hnear),
        EStateM.apply_bind, hloop]
      rfl

/-- A refused skip changes nothing on either side. -/
theorem skipMessages_refused {untilSeq : ℤ} (hfar : Python.TooFar s untilSeq)
    (hskip : SkipConforms s untilSeq) :
    ∃ e, skipMessages P untilSeq (ofPython C s) = .error e (ofPython C s) := by
  obtain ⟨hsome, -, hlt⟩ := hfar
  obtain ⟨ck, hck⟩ := Option.ne_none_iff_exists'.mp hsome
  have hover := (hskip hsome).1
  have hkt : (ofPython C s).receivingChainKey = some ck.1 :=
    congrArg (Option.map Subtype.val) hck
  have hlimit : int32 ((s.seqRecv : ℤ) + maxSkip) = s.seqRecv + 100 := by
    rw [show maxSkip = 100 from rfl, int32_of_lt (by omega) (by omega)]
  rw [skipMessages, EStateM.apply_bind, EStateM.apply_get]
  dsimp only
  rw [hkt]
  dsimp only
  rw [show (ofPython C s).seqRecv = s.seqRecv from rfl, hlimit, if_pos hlt]
  exact ⟨_, rfl⟩

/-! ## Decrypt step -/

/-- The ratchet step goes through on both sides. -/
theorem ratchetStep_of_turns (hsame : SameFunctions C P) (hs : Sound s) (hfits : Fits s)
    {d generated : Bytes 32} (hturns : Turns C s d generated) :
    ∃ py, Python.ratchetStep C d generated s = .ok () py ∧
      ratchetStep P d.1 (keyPairOf C generated) (ofPython C s) = .ok () (ofPython C py) ∧
      Sound py ∧ Fits py ∧ py.dhRemote = some d ∧ py.seqRecv = 0 ∧
      py.skippedMessageKeys = s.skippedMessageKeys := by
  obtain ⟨hroot, hz', x, hx, hz⟩ := hturns
  obtain ⟨rk, hrk⟩ := Option.ne_none_iff_exists'.mp hroot
  obtain ⟨z, hz⟩ := Option.ne_none_iff_exists'.mp hz
  obtain ⟨z', hz'⟩ := Option.ne_none_iff_exists'.mp hz'
  have hne : rk ≠ [] := fun h => hs.root (hrk.trans (congrArg some h))
  have hprivate : (ofPython C s).dhPrivateKeyBytes = some x.1 :=
    congrArg (Option.map Subtype.val) hx
  have hrootKt : (ofPython C s).rootKey = some rk := hrk
  have hdh1 : x25519Dh P x.1 d.1 = .ok z.1 := hsame.xdh x d z hz
  have hdh2 : x25519Dh P (keyPairOf C generated).privateRaw.1 d.1 = .ok z'.1 :=
    hsame.xdh generated d z' hz'
  have hstep1 := rootStep_eq hsame hne z
  have hstep2 := rootStep_eq hsame (Python.rootRatchet_ne_nil C rk z) z'
  refine ⟨_, Python.ratchetStep_of_exchange C hx hrk hz hz', ?_, ?_, ⟨?_, ?_, hfits.seqSend⟩, rfl,
    rfl, rfl⟩
  · rw [ratchetStep, EStateM.apply_bind, EStateM.apply_modify]
    dsimp only
    rw [EStateM.apply_bind, EStateM.apply_get]
    dsimp only
    rw [hprivate]
    simp only [EStateM.apply_bind, EStateM.apply_modify, EStateM.apply_get,
      EStateM.apply_ofExcept_ok, hdh1, hrootKt, hstep1, hdh2, hstep2]
    rfl
  · exact ⟨fun h => Python.rootRatchet_ne_nil C _ _ (Option.some.inj h),
      fun _ => Option.some_ne_none generated, fun _ => Option.some_ne_none d, hs.stored⟩
  · exact (by decide : 0 < 2 ^ 31)
  · exact (by decide : 0 < 2 ^ 31)

/-- The ratchet step fails on both sides, and leaves the same keys. -/
theorem ratchetStep_fails (hsame : SameFunctions C P) (hs : Sound s) (hfits : Fits s)
    {d generated : Bytes 32} (hturns : ¬ Turns C s d generated) :
    (Python.ratchetStep C d generated s).Rel (Ported C) (fun _ _ => False)
      (ratchetStep P d.1 (keyPairOf C generated) (ofPython C s)) := by
  have hturned : Ported C { s with dhRemote := some d }
      { ofPython C s with dhRemotePublicKeyBytes := some d.1 } :=
    ⟨rfl, ⟨hs.root, hs.own, fun _ => Option.some_ne_none d, hs.stored⟩,
      ⟨hfits.seqSend, hfits.seqRecv, hfits.prev⟩⟩
  rw [ratchetStep, EStateM.apply_bind, EStateM.apply_modify]
  dsimp only at hturned ⊢
  rw [EStateM.apply_bind, EStateM.apply_get]
  dsimp only
  cases hx : s.dhPrivate with
  | none =>
    have hprivate : (ofPython C s).dhPrivateKeyBytes = none :=
      congrArg (Option.map Subtype.val) hx
    rw [Python.ratchetStep_of_none C (Or.inl hx), hprivate]
    rw [hprivate] at hturned
    exact .error hturned
  | some x =>
    have hprivate : (ofPython C s).dhPrivateKeyBytes = some x.1 :=
      congrArg (Option.map Subtype.val) hx
    rw [hprivate]
    rw [hprivate] at hturned
    dsimp only
    cases hz : C.exchange x d with
    | none =>
      obtain ⟨e, he⟩ := hsame.xdh_none x d hz
      have hdh : x25519Dh P x.1 d.1 = .error e := he
      rw [EStateM.apply_bind, hdh, EStateM.apply_ofExcept_error]
      cases hrk : s.rootKey with
      | none =>
        rw [Python.ratchetStep_of_none C (Or.inr hrk)]
        exact .error hturned
      | some rk =>
        rw [Python.ratchetStep_of_rejected C hx hrk hz]
        exact .error hturned
    | some z =>
      have hdh : x25519Dh P x.1 d.1 = .ok z.1 := hsame.xdh x d z hz
      rw [EStateM.apply_bind, hdh, EStateM.apply_ofExcept_ok]
      dsimp only
      rw [EStateM.apply_bind, EStateM.apply_get]
      dsimp only
      cases hrk : s.rootKey with
      | none =>
        -- Kotlin computes a secret before it misses the root key
        have hroot : (ofPython C s).rootKey = none := hrk
        rw [Python.ratchetStep_of_none C (Or.inr hrk), hroot]
        rw [hroot] at hturned
        exact .error hturned
      | some rk =>
        have hroot : (ofPython C s).rootKey = some rk := hrk
        have hne : rk ≠ [] := fun h => hs.root (hrk.trans (congrArg some h))
        have hz' : C.exchange generated d = none := by
          by_contra hz'
          refine hturns ⟨?_, hz', x, hx, ?_⟩
          · rw [hrk]
            exact Option.some_ne_none rk
          · rw [hz]
            exact Option.some_ne_none z
        obtain ⟨e, he⟩ := hsame.xdh_none generated d hz'
        have hdh' : x25519Dh P (keyPairOf C generated).privateRaw.1 d.1 = .error e := he
        rw [Python.ratchetStep_of_rejected_again C hx hrk hz hz', hroot]
        simp only [EStateM.apply_bind, EStateM.apply_modify, EStateM.apply_ofExcept_ok,
          EStateM.apply_ofExcept_error, rootStep_eq hsame hne z, hdh']
        refine .error ⟨rfl, ⟨?_, fun _ => Option.some_ne_none generated,
          fun _ => Option.some_ne_none d, hs.stored⟩, ⟨hfits.seqSend, hfits.seqRecv, hfits.prev⟩⟩
        exact fun h => Python.rootRatchet_ne_nil C rk z (Option.some.inj h)

theorem takeKey_ofPython (hsame : SameFunctions C P) (hs : Sound s) (hfits : Fits s)
    (hnext : s.receivingChainKey ≠ none → s.seqRecv + 1 < 2 ^ 31) :
    (Python.takeKey C s).Rel (Ported C) (fun key key' => key' = key)
      (takeKey P (ofPython C s)) := by
  rw [takeKey, EStateM.apply_bind, EStateM.apply_get]
  dsimp only
  cases hck : s.receivingChainKey with
  | none =>
    have hkt : (ofPython C s).receivingChainKey = none :=
      congrArg (Option.map Subtype.val) hck
    rw [Python.takeKey_of_none C hck, hkt]
    exact .error ⟨rfl, hs, hfits⟩
  | some ck =>
    have hsome : s.receivingChainKey ≠ none := by
      rw [hck]
      exact Option.some_ne_none ck
    have hkt : (ofPython C s).receivingChainKey = some ck.1 :=
      congrArg (Option.map Subtype.val) hck
    have hsum := int32_succ (hnext hsome)
    rw [Python.takeKey_of_some C hck, hkt]
    dsimp only
    rw [chainStep_eq hsame, EStateM.apply_bind, EStateM.apply_ofExcept_ok]
    dsimp only
    rw [EStateM.apply_bind, EStateM.apply_modify,
      show (ofPython C s).seqRecv = s.seqRecv from rfl, hsum]
    exact .ok rfl ⟨rfl, ⟨hs.root, hs.own, fun _ => hs.remote hsome, hs.stored⟩,
      ⟨hfits.seqSend, hnext hsome, hfits.prev⟩⟩

/-- The end of `decrypt` on both sides, once the ratchet key is the current one. -/
theorem receive_ofPython (hsame : SameFunctions C P) (hs : Sound s) (hfits : Fits s) {seq : ℤ}
    (hseq : seq < 2 ^ 31) (hskip : SkipConforms s seq)
    (hnext : s.receivingChainKey ≠ none → seq ≤ s.seqRecv + 100 → seq + 1 < 2 ^ 31) :
    ((do
      Python.skipMessages C seq
      Python.takeKey C) s).Rel (Ported C) (fun key key' => key' = key)
      ((do
        skipMessages P seq
        takeKey P) (ofPython C s)) := by
  rw [EStateM.apply_bind, EStateM.apply_bind]
  by_cases hfar : Python.TooFar s seq
  · obtain ⟨e, hkt⟩ := skipMessages_refused (C := C) (P := P) hfar hskip
    rw [Python.skipMessages_of_tooFar C hfar, hkt]
    exact .error ⟨rfl, hs, hfits⟩
  · obtain ⟨rck, D, n, hpy, hsound, -, hnone, hn, hkt⟩ :=
      skipMessages_ofPython hsame hseq hs hfar hskip
    have hseqRecv := hfits.seqRecv
    rw [hpy, hkt]
    dsimp only
    refine takeKey_ofPython hsame hsound ⟨hfits.seqSend, ?_, hfits.prev⟩ ?_
    · show n < 2 ^ 31
      omega
    · intro hrck
      dsimp only at hrck ⊢
      have hsome : s.receivingChainKey ≠ none := fun h => hrck (hnone.mpr h)
      have hnear : seq ≤ s.seqRecv + 100 :=
        Int.not_lt.mp fun h => hfar ⟨hsome, hs.remote hsome, h⟩
      have hover := (hskip hsome).1
      have hlast := hnext hsome hnear
      omega

/-- `decrypt` on both sides. -/
theorem decrypt_ofPython (hsame : SameFunctions C P) (hs : Sound s) (hfits : Fits s)
    {dh : List UInt8} {seq pn : Int32} {generated : Bytes 32}
    (hconforms : Conforms C (.decrypt dh seq pn generated) s) :
    (Python.decrypt C dh seq.toInt pn.toInt generated s).Rel (Ported C)
      (fun key key' => key' = key)
      (decrypt P dh seq.toInt pn.toInt (keyPairOf C generated) (ofPython C s)) := by
  have hseq : seq.toInt < 2 ^ 31 := seq.toInt_lt
  have hpn : pn.toInt < 2 ^ 31 := pn.toInt_lt
  have hremote : (ofPython C s).dhRemotePublicKeyBytes = s.dhRemote.map Subtype.val := rfl
  rw [decrypt, EStateM.apply_bind, EStateM.apply_get]
  dsimp only
  rw [show (ofPython C s).skippedMessageKeys.get? (skipKey dh seq.toInt) =
    s.skippedMessageKeys.get? (Python.skipKey dh seq.toInt) from rfl]
  cases hstore : s.skippedMessageKeys.get? (Python.skipKey dh seq.toInt) with
  | some v =>
    obtain ⟨key, rfl⟩ := hs.stored _ v hstore
    have hread : bytesOfHex (toHex key.1) = key.1 := by
      rw [bytesOfHex, fromHex_toHex]
      rfl
    rw [Python.decrypt_of_stored C hstore, Python.bytesFromHex, fromHex_toHex]
    dsimp only
    rw [EStateM.apply_ofExcept_ok, EStateM.apply_bind, EStateM.apply_modify]
    exact .ok hread ⟨rfl, hs.erase _, ⟨hfits.seqSend, hfits.seqRecv, hfits.prev⟩⟩
  | none =>
    have hcase := hconforms hstore
    dsimp only
    rw [EStateM.apply_bind, turnTo, EStateM.apply_bind, EStateM.apply_get]
    dsimp only
    rw [hremote]
    by_cases hd : s.dhRemote.map Subtype.val = some dh
    · -- the current ratchet key
      rw [if_pos hd] at hcase
      obtain ⟨d, hd', rfl⟩ := Option.map_eq_some_iff.mp hd
      rw [if_neg (not_not_intro hd), Python.decrypt_of_miss C hstore, EStateM.apply_bind,
        Python.turnTo_of_eq C hd']
      exact receive_ofPython hsame hs hfits hseq hcase.1 hcase.2
    · rw [if_neg hd] at hcase
      obtain ⟨hskip, hturn⟩ := hcase
      rw [if_pos hd, EStateM.apply_bind]
      by_cases hfar : Python.TooFar s pn.toInt
      · -- the skip on the old chain is refused, whatever the new key is
        obtain ⟨e, hkt⟩ := skipMessages_refused (C := C) (P := P) hfar hskip
        rw [hkt]
        by_cases hlen : dh.length = 32
        · have hd' : s.dhRemote ≠ some ⟨dh, hlen⟩ := fun h => hd (by rw [h]; rfl)
          rw [Python.decrypt_of_miss (d := ⟨dh, hlen⟩) C hstore, EStateM.apply_bind,
            Python.turnTo_of_ne C hd', EStateM.apply_bind, Python.skipMessages_of_tooFar C hfar]
          exact .error ⟨rfl, hs, hfits⟩
        · rw [Python.decrypt_of_length_ne C hstore hlen]
          exact .error ⟨rfl, hs, hfits⟩
      · obtain ⟨hlen, hroom⟩ := hturn hfar
        have hd' : s.dhRemote ≠ some ⟨dh, hlen⟩ := fun h => hd (by rw [h]; rfl)
        obtain ⟨rck, D, n, hpy, hsound, hkeys, -, hn, hkt⟩ :=
          skipMessages_ofPython hsame hpn hs hfar hskip
        have hseqRecv := hfits.seqRecv
        have hfits' : Fits { s with
            receivingChainKey := rck, skippedMessageKeys := D, seqRecv := n } :=
          ⟨hfits.seqSend, (by omega : n < 2 ^ 31), hfits.prev⟩
        rw [Python.decrypt_of_miss (d := ⟨dh, hlen⟩) C hstore, EStateM.apply_bind,
          Python.turnTo_of_ne C hd', EStateM.apply_bind, hpy, hkt]
        dsimp only
        by_cases hturns : Turns C s ⟨dh, hlen⟩ generated
        · obtain ⟨py, hstep, hstepKt, hsound', hfits'', hremote', hzero, hdict⟩ :=
            ratchetStep_of_turns hsame hsound hfits' (d := ⟨dh, hlen⟩) hturns
          rw [hstep, hstepKt]
          dsimp only
          refine receive_ofPython hsame hsound' hfits'' hseq ?_ ?_
          · intro hsome
            rw [hzero]
            refine ⟨by decide, fun hnear => ?_⟩
            obtain ⟨ck, hck⟩ := Option.ne_none_iff_exists'.mp hsome
            rw [slots, hck, hremote', hzero, hdict]
            dsimp only
            rw [hkeys, show seq.toInt - ((0 : ℕ) : ℤ) = seq.toInt by omega]
            exact hroom hturns (by omega)
          · intro _ hnear
            rw [hzero] at hnear
            omega
        · have hfail := ratchetStep_fails hsame hsound hfits' (d := ⟨dh, hlen⟩) hturns
          exact hfail.bind
            (f := fun _ => do
              Python.skipMessages C seq.toInt
              Python.takeKey C)
            (g := fun _ => do
              skipMessages P seq.toInt
              takeKey P)
            (fun _ _ h => h) (fun _ _ _ _ hv _ => hv.elim)

/-! ## Runs -/

/-- What a call returns. -/
inductive Derived
  | sent (key dh : List UInt8) (seq prevChainLen : ℤ)
  | received (key : List UInt8)
deriving DecidableEq

def pythonCall (C : Python.Crypto (Bytes 32)) :
    Op → EStateM Python.PyError PySession Derived
  | .encrypt => do
    let (key, dh, seq, prevChainLen) ← Python.encrypt C
    return .sent key.1 dh.1 seq prevChainLen
  | .decrypt dh seq prevChainLen generated => do
    return .received (← Python.decrypt C dh seq.toInt prevChainLen.toInt generated)

def kotlinCall (C : Python.Crypto (Bytes 32)) (P : Provider) :
    Op → EStateM KtException DoubleRatchetSession Derived
  | .encrypt => do
    let step ← encrypt P
    return .sent step.messageKey step.myDhPublicBytes step.seq step.prevChainLen
  | .decrypt dh seq prevChainLen generated => do
    return .received
      (← decrypt P dh seq.toInt prevChainLen.toInt (keyPairOf C generated))

/-- Both calls return the same, or both raise. -/
def SameOutcome (py : Except Python.PyError Derived) (kt : Except KtException Derived) : Prop :=
  py.toOption = kt.toOption

/-- Calls that end alike have the same outcome. -/
theorem sameOutcome_of_rel {α β : Type} {x : EStateM Python.PyError PySession α}
    {y : EStateM KtException DoubleRatchetSession β} {f : α → Derived} {g : β → Derived}
    {kt : DoubleRatchetSession} {V : α → β → Prop} (h : (x s).Rel (Ported C) V (y kt))
    (hfg : ∀ a b, V a b → f a = g b) :
    SameOutcome ((do return f (← x) : EStateM _ _ _) s).toExcept
        ((do return g (← y) : EStateM _ _ _) kt).toExcept ∧
      Ported C ((do return f (← x) : EStateM _ _ _) s).state
        ((do return g (← y) : EStateM _ _ _) kt).state := by
  rw [EStateM.apply_bind, EStateM.apply_bind]
  revert h
  rcases x s with ⟨a, py'⟩ | ⟨e, py'⟩
  · rcases y kt with ⟨b, kt'⟩ | ⟨e', kt'⟩
    · rintro (⟨hv, hr⟩ | -)
      exact ⟨congrArg some (hfg a b hv), hr⟩
    · rintro ⟨⟩
  · rcases y kt with ⟨b, kt'⟩ | ⟨e', kt'⟩
    · rintro ⟨⟩
    · rintro (- | hr)
      exact ⟨rfl, hr⟩

/-- One call. -/
theorem call_agrees (hsame : SameFunctions C P) {op : Op} {py : PySession}
    {kt : DoubleRatchetSession} (hported : Ported C py kt) (hconforms : Conforms C op py) :
    SameOutcome (pythonCall C op py).toExcept (kotlinCall C P op kt).toExcept ∧
      Ported C (pythonCall C op py).state (kotlinCall C P op kt).state := by
  obtain ⟨rfl, hs, hfits⟩ := hported
  cases op with
  | encrypt =>
    refine sameOutcome_of_rel (encrypt_ofPython hsame hs hfits hconforms) ?_
    rintro sent step rfl
    rfl
  | decrypt dh seq pn generated =>
    refine sameOutcome_of_rel (decrypt_ofPython hsame hs hfits hconforms) ?_
    rintro key key' rfl
    rfl

/-- **Interoperability.** Over every run of conforming calls, from equal
sessions, both sides return the same keys and headers, raise on the same calls,
and are in equal states, with the same skipped keys, after each of them. -/
theorem kotlin_interoperable (hsame : SameFunctions C P) {py : PySession} {kt : DoubleRatchetSession}
    (hported : Ported C py kt) {ops : List Op}
    (hconforms : EStateM.AllMeet (pythonCall C) (Conforms C) ops py) :
    (∀ done todo, ops = done ++ todo →
        Ported C (EStateM.after (pythonCall C) done py)
          (EStateM.after (kotlinCall C P) done kt)) ∧
      ∀ done op todo, ops = done ++ op :: todo →
        SameOutcome (pythonCall C op (EStateM.after (pythonCall C) done py)).toExcept
          (kotlinCall C P op (EStateM.after (kotlinCall C P) done kt)).toExcept :=
  EStateM.run_related (O := fun _ => SameOutcome) (fun _ _ _ => call_agrees hsame) hported
    hconforms

/-- Primitives by small formulas, the same on both sides. -/
def sampleProvider : Provider where
  xdh pkcs8 spki :=
    .ok (Bytes.replicate 32 ((pkcs8.drop 16).headD 0 + (spki.drop 12).headD 0)).1
  hmac key data := Bytes.replicate 32 (key.headD 0 + data.headD 0 + 1)

def sampleCrypto : Python.Crypto (Bytes 32) where
  publicBytes x := x
  exchange x d := some (Bytes.replicate 32 (x.1.headD 0 + d.1.headD 0))
  hkdf salt info ikm :=
    let prk := sampleProvider.hmac salt ikm
    let t1 := sampleProvider.hmac prk.1 (info ++ [0x01])
    let t2 := sampleProvider.hmac prk.1 (t1.1 ++ info ++ [0x02])
    ⟨t1.1 ++ t2.1, by rw [List.length_append, t1.2, t2.2]⟩

theorem sample_sameFunctions : SameFunctions sampleCrypto sampleProvider where
  hkdf _ _ _ _ := rfl
  xdh x d z hz := by
    obtain rfl := Option.some.inj hz
    rfl
  xdh_none x d h := absurd h (Option.some_ne_none _)

theorem ported_initBob {ss : List UInt8} (hss : ss ≠ []) (x : Bytes 32) :
    Ported C (Python.initBob ss x) (initBob ss x.1 (C.publicBytes x).1) := by
  refine ⟨rfl, Python.initBob_sound hss x, ?_, ?_, ?_⟩
  · exact (by decide : 0 < 2 ^ 31)
  · exact (by decide : 0 < 2 ^ 31)
  · exact (by decide : 0 < 2 ^ 31)

/-- Bob receives number 2 of a chain, and answers. -/
def sampleOps : List Op :=
  [.decrypt (Bytes.replicate 32 1).1 2 0 (Bytes.replicate 32 3), .encrypt]

theorem kotlin_interoperable_sample :
    Ported sampleCrypto
      (EStateM.after (pythonCall sampleCrypto) sampleOps
        (Python.initBob [5] (Bytes.replicate 32 2)))
      (EStateM.after (kotlinCall sampleCrypto sampleProvider) sampleOps
        (initBob [5] (Bytes.replicate 32 2).1 (Bytes.replicate 32 2).1)) := by
  have hconforms : EStateM.AllMeet (pythonCall sampleCrypto) (Conforms sampleCrypto) sampleOps
      (Python.initBob [5] (Bytes.replicate 32 2)) := by
    refine ⟨fun _ => ⟨fun h => absurd rfl h, fun _ => ⟨rfl, fun _ _ => ?_⟩⟩, ?_, trivial⟩
    · show RoomFor [] (slotsFrom (Bytes.replicate 32 1) 0 2)
      decide
    · intro _
      decide +kernel
  exact (kotlin_interoperable sample_sameFunctions (ported_initBob (by decide) _) hconforms).1
    sampleOps [] (List.append_nil _).symm

/-! ## A full store -/

/-- The first `count` keys of one old chain. -/
def oldChain (count : ℕ) : Dict (List Char) (List Char) where
  entries := (List.range count).map fun n : ℕ =>
    (Python.skipKey (Bytes.replicate 32 9).1 n, toHex (Bytes.replicate 32 0).1)
  nodup := by
    rw [List.map_map]
    refine List.nodup_range.map ?_
    intro m n h
    exact Int.ofNat_inj.mp (Python.skipKey_injective h).2

theorem oldChain_stored {count : ℕ} {k v : List Char} (hv : (oldChain count).get? k = some v) :
    ∃ key : Bytes 32, v = toHex key.1 := by
  obtain ⟨e, hfind, rfl⟩ := Option.map_eq_some_iff.mp hv
  obtain ⟨n, -, rfl⟩ := List.mem_map.mp (List.mem_of_find?_eq_some hfind)
  exact ⟨_, rfl⟩

/-- A session that has stored a thousand of them. -/
def fullSession : PySession where
  dhPrivate := some (Bytes.replicate 32 2)
  dhRemote := some (Bytes.replicate 32 1)
  rootKey := some (Bytes.replicate 32 5).1
  sendingChainKey := some (Bytes.replicate 32 6)
  receivingChainKey := some (Bytes.replicate 32 7)
  seqSend := 0
  seqRecv := 0
  prevChainLength := 0
  skippedMessageKeys := oldChain 1000

/-- A genuine header, one number ahead: Python evicts its oldest key, Kotlin does not. -/
theorem kotlin_never_evicts :
    Ported sampleCrypto fullSession (ofPython sampleCrypto fullSession) ∧
      (pythonCall sampleCrypto (.decrypt (Bytes.replicate 32 1).1 1 0 (Bytes.replicate 32 3))
        fullSession).state.skippedMessageKeys.size = 1000 ∧
      (kotlinCall sampleCrypto sampleProvider
        (.decrypt (Bytes.replicate 32 1).1 1 0 (Bytes.replicate 32 3))
        (ofPython sampleCrypto fullSession)).state.skippedMessageKeys.size = 1001 := by
  refine ⟨⟨rfl, ⟨?_, fun _ => Option.some_ne_none _, fun _ => Option.some_ne_none _,
    fun _ _ => oldChain_stored⟩, ⟨?_, ?_, ?_⟩⟩, by decide +kernel, by decide +kernel⟩
  · intro h
    cases Option.some.inj h
  · exact (by decide : 0 < 2 ^ 31)
  · exact (by decide : 0 < 2 ^ 31)
  · exact (by decide : 0 < 2 ^ 31)

end AnonyMus.Android
