import AnonyMus.Lib.Bytes
import AnonyMus.Lib.Dict
import AnonyMus.Lib.EState
import AnonyMus.Lib.RatchetOnce
import Mathlib.Data.Int.Notation
import Std.Data.String.ToInt

/-!
# Python core — the double ratchet session

`core/double_ratchet.py` on byte strings. A method that may raise is an
`EStateM` action, so that a raise keeps the assignments made before it. The
curve and HKDF come from `cryptography` and are parameters, the key pair that
`X25519PrivateKey.generate` would return is an argument, and text is a list of
characters.

* `DoubleRatchetSession`, `initAlice`, `initBob`, `encrypt`, `decrypt` — the code;
* `skipMessages_of_tooFar`, `ratchetStep_of_exchange`, `decrypt_of_miss`, … — what
  each part does on a given session;
* `skipKey_injective` — the text keys of the skipped-key map tell slots apart.
-/

namespace AnonyMus.Python

/-! ## Exceptions and primitives -/

/-- The exceptions raised on the way of a message. -/
inductive PyError
  | valueError (msg : String)
  | typeError (msg : String)
  | keyError (key : String)
  | structError (msg : String)
  | unicodeError (msg : String)
  | cryptoError (msg : String)
  | invalidTag
deriving DecidableEq, Repr

/-- X25519 and HKDF-SHA256 of the `cryptography` package. -/
structure Crypto (Priv : Type) where
  publicBytes : Priv → Bytes 32
  /-- `none` when the shared secret is all zeros, for which the library raises. -/
  exchange : Priv → Bytes 32 → Option (Bytes 32)
  /-- HKDF with an output of 64 bytes. -/
  hkdf : (salt info ikm : List UInt8) → Bytes 64

def rootInfo : List UInt8 := "AnonyMus-DR-RootRatchet".toUTF8.toList
def chainInfo : List UInt8 := "AnonyMus-DR-ChainRatchet".toUTF8.toList

/-- `X25519PublicKey.from_public_bytes`. -/
def fromPublicBytes (data : List UInt8) : Except PyError (Bytes 32) :=
  if h : data.length = 32 then .ok ⟨data, h⟩
  else .error (.valueError "An X25519 public key is 32 bytes long")

/-- `bytes.fromhex`, on text without blanks. -/
def bytesFromHex (text : List Char) : Except PyError (List UInt8) :=
  match fromHex text with
  | some data => .ok data
  | none => .error (.valueError "non-hexadecimal number found in fromhex() arg")

/-- The key of a skipped message in the map: `f"{peer_dh_b64}_{seq}"`. -/
def skipKey (peerDhPub : List UInt8) (seq : ℤ) : List Char :=
  b64encode peerDhPub ++ '_' :: (toString seq).toList

/-! ## Session state -/

structure DoubleRatchetSession (Priv : Type) where
  dhPrivate          : Option Priv
  dhRemote           : Option (Bytes 32)
  rootKey            : Option (List UInt8)
  sendingChainKey    : Option (Bytes 32)
  receivingChainKey  : Option (Bytes 32)
  seqSend            : ℕ
  seqRecv            : ℕ
  prevChainLength    : ℕ
  skippedMessageKeys : Dict (List Char) (List Char)
deriving DecidableEq

section

variable {Priv : Type} (C : Crypto Priv)

/-- `X25519PrivateKey.exchange`. -/
def exchange (x : Priv) (peer : Bytes 32) : Except PyError (Bytes 32) :=
  match C.exchange x peer with
  | some shared => .ok shared
  | none => .error (.valueError "Error computing shared key.")

/-- One root ratchet step: the new root key and the chain key. -/
def rootRatchet (rootKey : List UInt8) (dhOut : Bytes 32) : List UInt8 × Bytes 32 :=
  let derived := C.hkdf rootKey rootInfo dhOut.1
  ((derived.take 32).1, derived.drop 32)

/-- One chain step: the message key and the new chain key. -/
def chainRatchet (chainKey : Bytes 32) : Bytes 32 × Bytes 32 :=
  let derived := C.hkdf chainKey.1 chainInfo (List.replicate 32 0)
  (derived.take 32, derived.drop 32)

def initAlice (sharedSecret peerDhPub : List UInt8) (generated : Priv) :
    Except PyError (DoubleRatchetSession Priv) := do
  let dhRemote ← fromPublicBytes peerDhPub
  let dhOut ← exchange C generated dhRemote
  let derived := rootRatchet C sharedSecret dhOut
  return { dhPrivate := some generated, dhRemote := some dhRemote, rootKey := some derived.1,
           sendingChainKey := some derived.2, receivingChainKey := none, seqSend := 0,
           seqRecv := 0, prevChainLength := 0, skippedMessageKeys := Dict.empty }

def initBob (sharedSecret : List UInt8) (myDhPriv : Priv) : DoubleRatchetSession Priv :=
  { dhPrivate := some myDhPriv, dhRemote := none, rootKey := some sharedSecret,
    sendingChainKey := none, receivingChainKey := none, seqSend := 0, seqRecv := 0,
    prevChainLength := 0, skippedMessageKeys := Dict.empty }

/-- The message key, the own ratchet key, the number and the previous length. -/
def encrypt : EStateM PyError (DoubleRatchetSession Priv) (Bytes 32 × Bytes 32 × ℕ × ℕ) := do
  let s ← get
  match s.dhPrivate, s.sendingChainKey with
  | some dhPrivate, some chainKey =>
    let derived := chainRatchet C chainKey
    let messageKey := derived.1
    set { s with sendingChainKey := some derived.2, seqSend := s.seqSend + 1 }
    return (messageKey, C.publicBytes dhPrivate, s.seqSend, s.prevChainLength)
  | _, _ => throw (.valueError "Session keys not initialized")

/-- The body of the loop of `_skip_messages`: store the next message key of the
receiving chain, evicting the oldest stored one at 1000. -/
def skipRound (dhRemote : Bytes 32) (s : DoubleRatchetSession Priv) :
    DoubleRatchetSession Priv :=
  match s.receivingChainKey with
  | none => s
  | some chainKey =>
    let derived := chainRatchet C chainKey
    let msgKey := derived.1
    let kept := if 1000 ≤ s.skippedMessageKeys.size then s.skippedMessageKeys.dropOldest
      else s.skippedMessageKeys
    { s with
      receivingChainKey := some derived.2
      skippedMessageKeys := kept.insert (skipKey dhRemote.1 s.seqRecv) (toHex msgKey.1)
      seqRecv := s.seqRecv + 1 }

/-- `while self.seq_recv < until_seq`, in at most `fuel` rounds. -/
def skipLoop (dhRemote : Bytes 32) (untilSeq : ℤ) :
    ℕ → DoubleRatchetSession Priv → DoubleRatchetSession Priv
  | 0, s => s
  | fuel + 1, s =>
    if s.seqRecv < untilSeq then skipLoop dhRemote untilSeq fuel (skipRound C dhRemote s) else s

def skipMessages (untilSeq : ℤ) : EStateM PyError (DoubleRatchetSession Priv) Unit := do
  let s ← get
  match s.receivingChainKey, s.dhRemote with
  | some _, some dhRemote =>
    if (s.seqRecv : ℤ) + 100 < untilSeq then
      throw (.valueError "Too many skipped messages, refusing to ratchet.")
    set (skipLoop C dhRemote untilSeq (untilSeq - s.seqRecv).toNat s)
  | _, _ => return

/-- The DH ratchet step of `decrypt`, once the old chain has been skipped. -/
def ratchetStep (peerDhPub : Bytes 32) (generated : Priv) :
    EStateM PyError (DoubleRatchetSession Priv) Unit := do
  modify fun s => { s with dhRemote := some peerDhPub }
  let s ← get
  match s.dhPrivate, s.rootKey with
  | some dhPrivate, some rootKey =>
    let dhOut1 ← ofExcept (exchange C dhPrivate peerDhPub)
    let derived1 := rootRatchet C rootKey dhOut1
    modify fun s => { s with rootKey := some derived1.1, receivingChainKey := some derived1.2 }
    modify fun s => { s with dhPrivate := some generated }
    let dhOut2 ← ofExcept (exchange C generated peerDhPub)
    let derived2 := rootRatchet C derived1.1 dhOut2
    modify fun s => { s with rootKey := some derived2.1, sendingChainKey := some derived2.2 }
    modify fun s => { s with prevChainLength := s.seqSend, seqSend := 0, seqRecv := 0 }
  | _, _ => throw (.valueError "Keys not initialized for ratchet step")

/-- The `if` block of `decrypt`. -/
def turnTo (peerDhPub : Bytes 32) (prevChainLen : ℤ) (generated : Priv) :
    EStateM PyError (DoubleRatchetSession Priv) Unit := do
  if (← get).dhRemote ≠ some peerDhPub then
    skipMessages C prevChainLen
    ratchetStep C peerDhPub generated

/-- The last block of `decrypt`: one step of the receiving chain. -/
def takeKey : EStateM PyError (DoubleRatchetSession Priv) (List UInt8) := do
  match (← get).receivingChainKey with
  | none => throw (.valueError "Receiving chain key not initialized")
  | some chainKey =>
    let derived := chainRatchet C chainKey
    let messageKey := derived.1
    modify fun s => { s with receivingChainKey := some derived.2, seqRecv := s.seqRecv + 1 }
    return messageKey.1

def decrypt (peerDhPub : List UInt8) (seq prevChainLen : ℤ) (generated : Priv) :
    EStateM PyError (DoubleRatchetSession Priv) (List UInt8) := do
  match (← get).skippedMessageKeys.get? (skipKey peerDhPub seq) with
  | some keyHex =>
    modify fun s => { s with
      skippedMessageKeys := s.skippedMessageKeys.erase (skipKey peerDhPub seq) }
    ofExcept (bytesFromHex keyHex)
  | none =>
    let peerDhPub ← ofExcept (fromPublicBytes peerDhPub)
    turnTo C peerDhPub prevChainLen generated
    skipMessages C seq
    takeKey C

/-! ## What each part does -/

theorem rootRatchet_ne_nil (rk : List UInt8) (z : Bytes 32) : (rootRatchet C rk z).1 ≠ [] := by
  intro h
  have hlen := ((C.hkdf rk rootInfo z.1).take 32).2
  rw [show ((C.hkdf rk rootInfo z.1).take 32).1 = [] from h] at hlen
  cases hlen

theorem initAlice_of_exchange {a : Priv} {d shared : Bytes 32} (ss : List UInt8)
    (hexchange : C.exchange a d = some shared) :
    initAlice C ss d.1 a = .ok
      { dhPrivate := some a, dhRemote := some d, rootKey := some (rootRatchet C ss shared).1,
        sendingChainKey := some (rootRatchet C ss shared).2, receivingChainKey := none,
        seqSend := 0, seqRecv := 0, prevChainLength := 0, skippedMessageKeys := Dict.empty } := by
  rw [initAlice, fromPublicBytes, dif_pos d.2]
  dsimp only [bind, Except.bind]
  rw [exchange, hexchange]
  rfl

/-- Skipping up to `untilSeq` is refused: there is a receiving chain, and it is
more than 100 messages behind. -/
def TooFar (s : DoubleRatchetSession Priv) (untilSeq : ℤ) : Prop :=
  s.receivingChainKey ≠ none ∧ s.dhRemote ≠ none ∧ (s.seqRecv : ℤ) + 100 < untilSeq

instance (s : DoubleRatchetSession Priv) (untilSeq : ℤ) : Decidable (TooFar s untilSeq) := by
  unfold TooFar
  infer_instance

section

variable {s : DoubleRatchetSession Priv} {untilSeq : ℤ}

theorem encrypt_of_chain {x : Priv} {ck : Bytes 32} (hx : s.dhPrivate = some x)
    (hck : s.sendingChainKey = some ck) :
    encrypt C s = .ok ((chainRatchet C ck).1, C.publicBytes x, s.seqSend, s.prevChainLength)
      { s with sendingChainKey := some (chainRatchet C ck).2, seqSend := s.seqSend + 1 } := by
  rw [encrypt, EStateM.apply_bind, EStateM.apply_get]
  dsimp only
  rw [hx, hck]
  rfl

theorem encrypt_of_none (h : s.dhPrivate = none ∨ s.sendingChainKey = none) :
    encrypt C s = .error (.valueError "Session keys not initialized") s := by
  rw [encrypt, EStateM.apply_bind, EStateM.apply_get]
  dsimp only
  rcases h with h | h
  · rw [h]
    rfl
  · rw [h]
    cases s.dhPrivate <;> rfl

theorem skipMessages_of_tooFar (h : TooFar s untilSeq) :
    skipMessages C untilSeq s =
      .error (.valueError "Too many skipped messages, refusing to ratchet.") s := by
  obtain ⟨hck, hd, hfar⟩ := h
  obtain ⟨ck, hck⟩ := Option.ne_none_iff_exists'.mp hck
  obtain ⟨d, hd⟩ := Option.ne_none_iff_exists'.mp hd
  rw [skipMessages, EStateM.apply_bind, EStateM.apply_get]
  dsimp only
  rw [hck, hd]
  dsimp only
  rw [if_pos hfar]
  rfl

theorem skipMessages_of_none (h : s.receivingChainKey = none ∨ s.dhRemote = none) :
    skipMessages C untilSeq s = .ok () s := by
  rw [skipMessages, EStateM.apply_bind, EStateM.apply_get]
  dsimp only
  rcases h with h | h
  · rw [h]
    rfl
  · rw [h]
    cases s.receivingChainKey <;> rfl

theorem skipMessages_of_some {ck d : Bytes 32} (hck : s.receivingChainKey = some ck)
    (hd : s.dhRemote = some d) (hfar : ¬ TooFar s untilSeq) :
    skipMessages C untilSeq s =
      .ok () (skipLoop C d untilSeq (untilSeq - s.seqRecv).toNat s) := by
  have hle : ¬ (s.seqRecv : ℤ) + 100 < untilSeq := fun hlt =>
    hfar ⟨by rw [hck]; exact Option.some_ne_none _, by rw [hd]; exact Option.some_ne_none _, hlt⟩
  rw [skipMessages, EStateM.apply_bind, EStateM.apply_get]
  dsimp only
  rw [hck, hd]
  dsimp only
  rw [if_neg hle]
  rfl

/-- Skipping leaves the session as it is, refused or not, or runs the loop. -/
theorem state_skipMessages (untilSeq : ℤ) (s : DoubleRatchetSession Priv) :
    (skipMessages C untilSeq s).state = s ∨ ∃ d,
      (skipMessages C untilSeq s).state = skipLoop C d untilSeq (untilSeq - s.seqRecv).toNat s := by
  by_cases hnone : s.receivingChainKey = none ∨ s.dhRemote = none
  · left
    rw [skipMessages_of_none C hnone, EStateM.Result.state_ok]
  · obtain ⟨hck, hd⟩ := not_or.mp hnone
    obtain ⟨ck, hck⟩ := Option.ne_none_iff_exists'.mp hck
    obtain ⟨d, hd⟩ := Option.ne_none_iff_exists'.mp hd
    by_cases hfar : TooFar s untilSeq
    · left
      rw [skipMessages_of_tooFar C hfar, EStateM.Result.state_error]
    · right
      exact ⟨d, by rw [skipMessages_of_some C hck hd hfar, EStateM.Result.state_ok]⟩

theorem ratchetStep_of_exchange {d z z' : Bytes 32} {x generated : Priv} {rk : List UInt8}
    (hx : s.dhPrivate = some x) (hrk : s.rootKey = some rk) (hz : C.exchange x d = some z)
    (hz' : C.exchange generated d = some z') :
    ratchetStep C d generated s = .ok ()
      { s with
        dhPrivate := some generated, dhRemote := some d
        rootKey := some (rootRatchet C (rootRatchet C rk z).1 z').1
        sendingChainKey := some (rootRatchet C (rootRatchet C rk z).1 z').2
        receivingChainKey := some (rootRatchet C rk z).2
        seqSend := 0, seqRecv := 0, prevChainLength := s.seqSend } := by
  rw [ratchetStep, EStateM.apply_bind, EStateM.apply_modify]
  dsimp only
  rw [EStateM.apply_bind, EStateM.apply_get]
  dsimp only
  rw [hx, hrk]
  simp only [EStateM.apply_bind, EStateM.apply_modify, EStateM.apply_ofExcept, exchange, hz, hz']

theorem ratchetStep_of_none (h : s.dhPrivate = none ∨ s.rootKey = none) (d : Bytes 32)
    (generated : Priv) :
    ratchetStep C d generated s =
      .error (.valueError "Keys not initialized for ratchet step")
        { s with dhRemote := some d } := by
  rw [ratchetStep, EStateM.apply_bind, EStateM.apply_modify]
  dsimp only
  rw [EStateM.apply_bind, EStateM.apply_get]
  dsimp only
  rcases h with h | h
  · rw [h]
    rfl
  · rw [h]
    cases s.dhPrivate <;> rfl

/-- The library rejects the peer's key. -/
theorem ratchetStep_of_rejected {d : Bytes 32} {x : Priv} {rk : List UInt8}
    (hx : s.dhPrivate = some x) (hrk : s.rootKey = some rk) (hz : C.exchange x d = none)
    (generated : Priv) :
    ratchetStep C d generated s =
      .error (.valueError "Error computing shared key.") { s with dhRemote := some d } := by
  rw [ratchetStep, EStateM.apply_bind, EStateM.apply_modify]
  dsimp only
  rw [EStateM.apply_bind, EStateM.apply_get]
  dsimp only
  rw [hx, hrk]
  dsimp only
  rw [EStateM.apply_bind, exchange, hz]
  rfl

/-- The library rejects the peer's key only with the generated one. -/
theorem ratchetStep_of_rejected_again {d z : Bytes 32} {x generated : Priv} {rk : List UInt8}
    (hx : s.dhPrivate = some x) (hrk : s.rootKey = some rk) (hz : C.exchange x d = some z)
    (hz' : C.exchange generated d = none) :
    ratchetStep C d generated s =
      .error (.valueError "Error computing shared key.")
        { s with
          dhPrivate := some generated, dhRemote := some d
          rootKey := some (rootRatchet C rk z).1
          receivingChainKey := some (rootRatchet C rk z).2 } := by
  rw [ratchetStep, EStateM.apply_bind, EStateM.apply_modify]
  dsimp only
  rw [EStateM.apply_bind, EStateM.apply_get]
  dsimp only
  rw [hx, hrk]
  simp only [EStateM.apply_bind, EStateM.apply_modify, EStateM.apply_ofExcept, exchange, hz, hz']

theorem turnTo_of_eq {d : Bytes 32} (hd : s.dhRemote = some d) (pn : ℤ) (generated : Priv) :
    turnTo C d pn generated s = .ok () s := by
  rw [turnTo, EStateM.apply_bind, EStateM.apply_get]
  dsimp only
  rw [if_neg (not_not_intro hd)]
  rfl

theorem turnTo_of_ne {d : Bytes 32} (hd : s.dhRemote ≠ some d) (pn : ℤ) (generated : Priv) :
    turnTo C d pn generated s = (do
      skipMessages C pn
      ratchetStep C d generated) s := by
  rw [turnTo, EStateM.apply_bind, EStateM.apply_get]
  dsimp only
  rw [if_pos hd]

theorem takeKey_of_some {ck : Bytes 32} (hck : s.receivingChainKey = some ck) :
    takeKey C s = .ok (chainRatchet C ck).1.1
      { s with receivingChainKey := some (chainRatchet C ck).2, seqRecv := s.seqRecv + 1 } := by
  rw [takeKey, EStateM.apply_bind, EStateM.apply_get]
  dsimp only
  rw [hck]
  rfl

theorem takeKey_of_none (hck : s.receivingChainKey = none) :
    takeKey C s = .error (.valueError "Receiving chain key not initialized") s := by
  rw [takeKey, EStateM.apply_bind, EStateM.apply_get]
  dsimp only
  rw [hck]
  rfl

theorem decrypt_of_stored {d : List UInt8} {seq : ℤ} {keyHex : List Char}
    (hstore : s.skippedMessageKeys.get? (skipKey d seq) = some keyHex) (pn : ℤ)
    (generated : Priv) :
    decrypt C d seq pn generated s =
      (ofExcept (bytesFromHex keyHex) :
        EStateM PyError (DoubleRatchetSession Priv) (List UInt8))
        { s with skippedMessageKeys := s.skippedMessageKeys.erase (skipKey d seq) } := by
  rw [decrypt, EStateM.apply_bind, EStateM.apply_get]
  dsimp only
  rw [hstore]
  rfl

/-- Without a stored key, only a key of 32 bytes gets past the import. -/
theorem decrypt_of_length_ne {d : List UInt8} {seq : ℤ}
    (hstore : s.skippedMessageKeys.get? (skipKey d seq) = none) (hd : d.length ≠ 32) (pn : ℤ)
    (generated : Priv) :
    decrypt C d seq pn generated s =
      .error (.valueError "An X25519 public key is 32 bytes long") s := by
  rw [decrypt, EStateM.apply_bind, EStateM.apply_get]
  dsimp only
  rw [hstore]
  dsimp only
  rw [EStateM.apply_bind, fromPublicBytes, dif_neg hd]
  rfl

theorem decrypt_of_miss {d : Bytes 32} {seq : ℤ}
    (hstore : s.skippedMessageKeys.get? (skipKey d.1 seq) = none) (pn : ℤ)
    (generated : Priv) :
    decrypt C d.1 seq pn generated s = (do
      turnTo C d pn generated
      skipMessages C seq
      takeKey C) s := by
  rw [decrypt, EStateM.apply_bind, EStateM.apply_get]
  dsimp only
  rw [hstore]
  dsimp only
  rw [EStateM.apply_bind, fromPublicBytes, dif_pos d.2]
  rfl

/-- A first check that fails leaves the session alone. -/
theorem decrypt_of_refused {d : Bytes 32} {seq pn : ℤ}
    (hstore : s.skippedMessageKeys.get? (skipKey d.1 seq) = none)
    (hfar : if s.dhRemote = some d then TooFar s seq else TooFar s pn) (generated : Priv) :
    decrypt C d.1 seq pn generated s =
      .error (.valueError "Too many skipped messages, refusing to ratchet.") s := by
  rw [decrypt_of_miss C hstore, EStateM.apply_bind]
  by_cases hd : s.dhRemote = some d
  · rw [if_pos hd] at hfar
    rw [turnTo_of_eq C hd]
    dsimp only
    rw [EStateM.apply_bind, skipMessages_of_tooFar C hfar]
  · rw [if_neg hd] at hfar
    rw [turnTo_of_ne C hd, EStateM.apply_bind, skipMessages_of_tooFar C hfar]

end

/-! ## Keys of the skipped-key map -/

omit C in
/-- The text key tells ratchet keys and numbers apart. -/
theorem skipKey_injective {d d' : Bytes 32} {n n' : ℤ}
    (h : skipKey d.1 n = skipKey d'.1 n') : d = d' ∧ n = n' := by
  have hlen : d.1.length = d'.1.length := d.2.trans d'.2.symm
  -- both encodings have 44 characters, so the texts split at the same place
  obtain ⟨hd, hn⟩ := List.append_inj h (by rw [length_b64encode, length_b64encode, hlen])
  refine ⟨Subtype.ext (b64encode_injective hd), ?_⟩
  have hstr : toString n = toString n' := String.toList_inj.mp (List.cons.inj hn).2
  exact Int.repr_injective hstr

omit C in
theorem skipKey_eq_iff {d d' : Bytes 32} {n n' : ℕ} :
    skipKey d'.1 n' = skipKey d.1 n ↔ d' = d ∧ n' = n := by
  constructor
  · intro h
    obtain ⟨hd, hn⟩ := skipKey_injective h
    exact ⟨hd, Int.ofNat_inj.mp hn⟩
  · rintro ⟨rfl, rfl⟩
    rfl

end

end AnonyMus.Python
