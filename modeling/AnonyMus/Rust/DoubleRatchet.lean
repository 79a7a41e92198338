import AnonyMus.Lib.Dict
import AnonyMus.Lib.EState
import AnonyMus.Lib.RatchetOnce
import AnonyMus.Rust.Crypto

/-!
# Rust core — the double ratchet session

`core/rust/src/protocol/double_ratchet.rs`. A method taking `&mut self` and
returning `Result` is an `EStateM` action: an error keeps the mutations made
before it, as in the source. The key pair that `StaticKeypair::generate` would
return in a DH ratchet step is an argument. Counters are `u32` and wrap, as in
a release build.

* `Header` — the 40-byte wire header, with `Header.decode_encode`;
* `Session`, `initSender`, `initReceiver`, `encrypt`, `decrypt` — the session;
* `receiveKey`, `decrypt_eq` — the part of `decrypt` before the AEAD call;
* `Session.view` — a session as a party of the abstract ratchet, with
  `skipMessageKeys_view`, `ratchetStep_view` and `receiveKey_view`: while no
  bound is met, the code computes what the abstract ratchet does.
-/

namespace AnonyMus.Rust

/-- Maximum number of out-of-order messages to buffer per ratchet step. -/
def maxSkip : UInt32 := 1000

/-! ## Header -/

structure Header where
  dhPublic : Bytes 32
  pn       : UInt32
  n        : UInt32
deriving DecidableEq

namespace Header

def encode (h : Header) : Bytes 40 :=
  ⟨h.dhPublic.1 ++ be32 h.pn ++ be32 h.n, by simp [h.dhPublic.2]⟩

def decode (bytes : Bytes 40) : Header where
  dhPublic := bytes.take 32
  pn := ofBe32 ((bytes.1.drop 32).take 4)
  n := ofBe32 (bytes.1.drop 36)

theorem decode_encode (h : Header) : decode h.encode = h := by
  obtain ⟨⟨dh, hdh⟩, pn, n⟩ := h
  simp only [decode, encode, Bytes.take, Header.mk.injEq, Subtype.mk.injEq, List.append_assoc]
  refine ⟨?_, ?_, ?_⟩
  · rw [List.take_append_of_le_length (by omega), List.take_of_length_le (by omega)]
  · rw [List.drop_left' hdh]
    exact ofBe32_be32 pn
  · rw [← List.append_assoc, List.drop_left' (by simp [hdh])]
    exact ofBe32_be32 n

/-- The header as the abstract ratchet reads it. -/
def view (h : Header) : Ratchet.Header (Bytes 32) := ⟨h.dhPublic, h.pn.toNat, h.n.toNat⟩

end Header

/-! ## Session state -/

/-- Key identifying a skipped message: sender DH key + message number. -/
structure SkipKey where
  dhPublic : Bytes 32
  n        : UInt32
deriving DecidableEq

structure Session (Priv Key : Type) where
  dhSelf   : Priv
  dhRemote : Option (Bytes 32)
  rk       : Key
  cks      : Option Key
  ckr      : Option Key
  ns       : UInt32
  nr       : UInt32
  pn       : UInt32
  skipped  : Dict SkipKey Key
deriving DecidableEq

section

variable {Priv Dh Key Nonce : Type} (P : Primitives Priv Dh Key Nonce)

/-- `Session::init_sender`, with the ratchet key it generates. -/
def initSender (sharedSecret : Key) (bobRatchetPublic : Bytes 32) (generated : Priv) :
    Session Priv Key :=
  let initialRk := P.rootSeed sharedSecret
  let out := P.kdfRk initialRk (P.dh generated bobRatchetPublic)
  { dhSelf := generated, dhRemote := some bobRatchetPublic, rk := out.1, cks := some out.2,
    ckr := none, ns := 0, nr := 0, pn := 0, skipped := Dict.empty }

def initReceiver (sharedSecret : Key) (bobRatchetPrivate : Priv) : Session Priv Key :=
  { dhSelf := bobRatchetPrivate, dhRemote := none, rk := P.rootSeed sharedSecret, cks := none,
    ckr := none, ns := 0, nr := 0, pn := 0, skipped := Dict.empty }

def encrypt (plaintext : List UInt8) :
    EStateM AnonymusError (Session Priv Key) (Bytes 40 × List UInt8) := do
  let s ← get
  match s.cks with
  | none => throw (.internal "sending chain not initialised")
  | some cks =>
    let out := P.fromChain cks
    let mk := out.1
    let newCk := out.2
    let header : Header := { dhPublic := P.publicBytes s.dhSelf, pn := s.pn, n := s.ns }
    set { s with cks := some newCk, ns := s.ns + 1 }
    let headerBytes := header.encode
    let nonce := P.deriveNonce mk
    let ct ← ofExcept (P.encryptWithNonce mk nonce plaintext headerBytes.1)
    return (headerBytes, ct)

def ratchetStep (dhRemote : Bytes 32) (generated : Priv) :
    EStateM AnonymusError (Session Priv Key) Unit :=
  modify fun s =>
    let s := { s with pn := s.ns, ns := 0, nr := 0, dhRemote := some dhRemote }
    -- receiving chain
    let out := P.kdfRk s.rk (P.dh s.dhSelf dhRemote)
    let s := { s with rk := out.1, ckr := some out.2 }
    -- new sending ratchet keypair and sending chain
    let s := { s with dhSelf := generated }
    let out2 := P.kdfRk s.rk (P.dh s.dhSelf dhRemote)
    { s with rk := out2.1, cks := some out2.2 }

/-- The `while self.nr < until` loop of `skip_message_keys` and the write-back
of the chain key; `fuel` bounds the number of rounds. -/
def skipLoop (till : UInt32) : ℕ → Key → Session Priv Key → Session Priv Key
  | 0, ck, s => { s with ckr := some ck }
  | fuel + 1, ck, s =>
    if s.nr < till then
      let out := P.fromChain ck
      let mk := out.1
      let newCk := out.2
      let skipKey : SkipKey := { dhPublic := s.dhRemote.getD (Bytes.replicate 32 0), n := s.nr }
      skipLoop till fuel newCk { s with skipped := s.skipped.insert skipKey mk, nr := s.nr + 1 }
    else { s with ckr := some ck }

def skipMessageKeys (till : UInt32) : EStateM AnonymusError (Session Priv Key) Unit := do
  let s ← get
  if s.nr + maxSkip < till then
    throw (.decrypt "too many skipped messages")
  match s.ckr with
  | none => return
  | some ckr => set (skipLoop P till (till.toNat - s.nr.toNat) ckr s)

/-- The `if` block of `decrypt`: a DH ratchet step if the sender has a new
ratchet key. -/
def turnTo (header : Header) (generated : Priv) :
    EStateM AnonymusError (Session Priv Key) Unit := do
  if some header.dhPublic ≠ (← get).dhRemote then
    skipMessageKeys P header.pn
    ratchetStep P header.dhPublic generated

/-- The last block of `decrypt` before the AEAD call: one step of the receiving
chain. -/
def takeKey : EStateM AnonymusError (Session Priv Key) Key := do
  match (← get).ckr with
  | none => throw (.internal "receiving chain not initialised")
  | some ckr =>
    let out := P.fromChain ckr
    let mk := out.1
    let newCkr := out.2
    modify fun s => { s with ckr := some newCkr, nr := s.nr + 1 }
    return mk

def decrypt (headerBytes : Bytes 40) (ciphertext : List UInt8) (generated : Priv) :
    EStateM AnonymusError (Session Priv Key) (List UInt8) := do
  let header := Header.decode headerBytes
  -- check skipped keys first
  let skipKey : SkipKey := { dhPublic := header.dhPublic, n := header.n }
  match (← get).skipped.get? skipKey with
  | some mkBytes =>
    modify fun s => { s with skipped := s.skipped.erase skipKey }
    let nonce := P.deriveNonce mkBytes
    ofExcept (P.decryptWithNonce mkBytes nonce ciphertext headerBytes.1)
  | none =>
    turnTo P header generated
    skipMessageKeys P header.n
    let mk ← takeKey P
    let nonce := P.deriveNonce mk
    ofExcept (P.decryptWithNonce mk nonce ciphertext headerBytes.1)

theorem encrypt_of_none {s : Session Priv Key} (hcks : s.cks = none)
    (plaintext : List UInt8) :
    encrypt P plaintext s = .error (.internal "sending chain not initialised") s := by
  rw [encrypt, EStateM.apply_bind, EStateM.apply_get]
  dsimp only
  rw [hcks]
  rfl

/-- The chain advances whether or not the AEAD call succeeds. -/
theorem encrypt_of_chain {s : Session Priv Key} {ck : Key} (hcks : s.cks = some ck)
    (plaintext : List UInt8) :
    encrypt P plaintext s =
      match P.encryptWithNonce (P.fromChain ck).1 (P.deriveNonce (P.fromChain ck).1) plaintext
        (Header.encode ⟨P.publicBytes s.dhSelf, s.pn, s.ns⟩).1 with
      | .ok ct => .ok (Header.encode ⟨P.publicBytes s.dhSelf, s.pn, s.ns⟩, ct)
        { s with cks := some (P.fromChain ck).2, ns := s.ns + 1 }
      | .error e => .error e { s with cks := some (P.fromChain ck).2, ns := s.ns + 1 } := by
  rw [encrypt, EStateM.apply_bind, EStateM.apply_get]
  dsimp only
  rw [hcks]
  simp only [EStateM.apply_bind, EStateM.apply_set, EStateM.apply_ofExcept]
  cases P.encryptWithNonce (P.fromChain ck).1 (P.deriveNonce (P.fromChain ck).1) plaintext
    (Header.encode ⟨P.publicBytes s.dhSelf, s.pn, s.ns⟩).1 <;> rfl

/-! ## The message key of a header -/

/-- What `decrypt` does before the AEAD call. -/
def receiveKey (header : Header) (generated : Priv) :
    EStateM AnonymusError (Session Priv Key) Key := do
  let skipKey : SkipKey := { dhPublic := header.dhPublic, n := header.n }
  match (← get).skipped.get? skipKey with
  | some mkBytes =>
    modify fun s => { s with skipped := s.skipped.erase skipKey }
    return mkBytes
  | none =>
    turnTo P header generated
    skipMessageKeys P header.n
    takeKey P

/-- Decryption is the message key of the header followed by the AEAD call. -/
theorem decrypt_eq (headerBytes : Bytes 40) (ciphertext : List UInt8) (generated : Priv)
    (s : Session Priv Key) :
    decrypt P headerBytes ciphertext generated s =
      match receiveKey P (Header.decode headerBytes) generated s with
      | .ok mk s' =>
        match P.decryptWithNonce mk (P.deriveNonce mk) ciphertext headerBytes.1 with
        | .ok plaintext => .ok plaintext s'
        | .error e => .error e s'
      | .error e s' => .error e s' := by
  simp only [decrypt, receiveKey, EStateM.apply_bind, EStateM.apply_get]
  -- a stored key is taken as it is; otherwise the ratchet turns, skips and takes
  cases s.skipped.get? ⟨(Header.decode headerBytes).dhPublic, (Header.decode headerBytes).n⟩ with
  | some mk =>
    simp only [EStateM.apply_bind, EStateM.apply_modify, EStateM.apply_pure,
      EStateM.apply_ofExcept]
    cases P.decryptWithNonce mk (P.deriveNonce mk) ciphertext headerBytes.1 <;> rfl
  | none =>
    simp only [EStateM.apply_bind, EStateM.apply_ofExcept]
    cases turnTo P (Header.decode headerBytes) generated s with
    | error e s' => rfl
    | ok _ s' =>
      dsimp only
      cases skipMessageKeys P (Header.decode headerBytes).n s' with
      | error e s' => rfl
      | ok _ s' =>
        dsimp only
        cases takeKey P s' with
        | error e s' => rfl
        | ok mk s' =>
          dsimp only
          cases P.decryptWithNonce mk (P.deriveNonce mk) ciphertext headerBytes.1 <;> rfl

section

variable {s : Session Priv Key} {till : UInt32}

theorem skipMessageKeys_of_lt (h : s.nr + maxSkip < till) :
    skipMessageKeys P till s = .error (.decrypt "too many skipped messages") s := by
  rw [skipMessageKeys, EStateM.apply_bind, EStateM.apply_get]
  dsimp only
  rw [if_pos h]
  rfl

theorem skipMessageKeys_of_none (h : ¬ s.nr + maxSkip < till) (hckr : s.ckr = none) :
    skipMessageKeys P till s = .ok () s := by
  rw [skipMessageKeys, EStateM.apply_bind, EStateM.apply_get]
  dsimp only
  rw [if_neg h, hckr]
  rfl

theorem skipMessageKeys_of_some (h : ¬ s.nr + maxSkip < till) {ck : Key}
    (hckr : s.ckr = some ck) :
    skipMessageKeys P till s =
      .ok () (skipLoop P till (till.toNat - s.nr.toNat) ck s) := by
  rw [skipMessageKeys, EStateM.apply_bind, EStateM.apply_get]
  dsimp only
  rw [if_neg h, hckr]
  rfl

end

theorem takeKey_of_some {s : Session Priv Key} {ck : Key} (h : s.ckr = some ck) :
    takeKey P s = .ok (P.fromChain ck).1
      { s with ckr := some (P.fromChain ck).2, nr := s.nr + 1 } := by
  simp only [takeKey, EStateM.apply_bind, EStateM.apply_get, h]
  rfl

theorem takeKey_of_none {s : Session Priv Key} (h : s.ckr = none) :
    takeKey P s = .error (.internal "receiving chain not initialised") s := by
  simp only [takeKey, EStateM.apply_bind, EStateM.apply_get, h]
  rfl

theorem turnTo_of_eq {s : Session Priv Key} {h : Header} (generated : Priv)
    (hd : some h.dhPublic = s.dhRemote) : turnTo P h generated s = .ok () s := by
  rw [turnTo, EStateM.apply_bind, EStateM.apply_get]
  dsimp only
  rw [if_neg (not_not_intro hd)]
  rfl

theorem turnTo_of_ne {s : Session Priv Key} {h : Header} (generated : Priv)
    (hd : some h.dhPublic ≠ s.dhRemote) :
    turnTo P h generated s = (do
      skipMessageKeys P h.pn
      ratchetStep P h.dhPublic generated) s := by
  rw [turnTo, EStateM.apply_bind, EStateM.apply_get]
  dsimp only
  rw [if_pos hd]

theorem receiveKey_of_stored {s : Session Priv Key} {h : Header} {mk : Key}
    (generated : Priv) (hstore : s.skipped.get? ⟨h.dhPublic, h.n⟩ = some mk) :
    receiveKey P h generated s =
      .ok mk { s with skipped := s.skipped.erase ⟨h.dhPublic, h.n⟩ } := by
  simp only [receiveKey, EStateM.apply_bind, EStateM.apply_get, hstore]
  rfl

theorem receiveKey_of_miss {s : Session Priv Key} {h : Header} (generated : Priv)
    (hstore : s.skipped.get? ⟨h.dhPublic, h.n⟩ = none) :
    receiveKey P h generated s = (do
      turnTo P h generated
      skipMessageKeys P h.n
      takeKey P) s := by
  rw [receiveKey, EStateM.apply_bind, EStateM.apply_get]
  dsimp only
  rw [hstore]

/-! ## Refinement of the abstract ratchet -/

/-- A counter below the maximum goes up by one. -/
theorem toNat_succ {x : UInt32} (h : x.toNat + 1 < 2 ^ 32) : (x + 1).toNat = x.toNat + 1 := by
  rw [UInt32.toNat_add, UInt32.toNat_one, Nat.mod_eq_of_lt h]

theorem toNat_succ_of_lt {x y : UInt32} (h : x.toNat < y.toNat) :
    (x + 1).toNat = x.toNat + 1 := by
  have hy := y.toNat_lt
  exact toNat_succ (by omega)

/-- The primitives as the abstract ratchet takes them. -/
def Primitives.kdf : Ratchet.Kdf Priv (Bytes 32) Dh Key Key Key where
  pub := P.publicBytes
  dh := P.dh
  kdfRk := P.kdfRk
  kdfCk := P.fromChain

omit P in
/-- A session as a party of the abstract ratchet. -/
def Session.view (s : Session Priv Key) : Ratchet.Party Priv (Bytes 32) Key Key Key where
  self := s.dhSelf
  remote := s.dhRemote
  rk := s.rk
  cks := s.cks
  ckr := s.ckr
  ns := s.ns.toNat
  nr := s.nr.toNat
  pn := s.pn.toNat
  skipped d n := if n < 2 ^ 32 then s.skipped.get? ⟨d, UInt32.ofNat n⟩ else none

theorem initSender_view (ss : Key) (bobPub : Bytes 32) (a : Priv) :
    (initSender P ss bobPub a).view =
      Ratchet.Party.initSender P.kdf (P.rootSeed ss) a bobPub := by
  simp [initSender, Session.view, Ratchet.Party.initSender, Primitives.kdf]

theorem initReceiver_view (ss : Key) (b : Priv) :
    (initReceiver P ss b).view = Ratchet.Party.initReceiver (P.rootSeed ss) b := by
  simp [initReceiver, Session.view, Ratchet.Party.initReceiver]

/-- Encryption uses the key and the header of the abstract ratchet, whether or
not the AEAD call succeeds. -/
theorem encrypt_view {s : Session Priv Key} {ck : Key} (hcks : s.cks = some ck)
    (hns : s.ns.toNat + 1 < 2 ^ 32) (plaintext : List UInt8) :
    ∃ (h : Header) (s' : Session Priv Key),
      s.view.send P.kdf = some ((P.fromChain ck).1, h.view, s'.view) ∧ h.n = s.ns ∧
      encrypt P plaintext s =
        match P.encryptWithNonce (P.fromChain ck).1 (P.deriveNonce (P.fromChain ck).1) plaintext
          h.encode.1 with
        | .ok ct => .ok (h.encode, ct) s'
        | .error e => .error e s' := by
  refine ⟨⟨P.publicBytes s.dhSelf, s.pn, s.ns⟩,
    { s with cks := some (P.fromChain ck).2, ns := s.ns + 1 }, ?_, rfl,
    encrypt_of_chain P hcks plaintext⟩
  have hsucc : (s.ns + 1).toNat = s.ns.toNat + 1 := toNat_succ hns
  simp only [Ratchet.Party.send, Session.view, hcks, hsucc]
  rfl

theorem ratchetStep_view (d : Bytes 32) (generated : Priv) (s : Session Priv Key) :
    ∃ s', ratchetStep P d generated s = .ok () s' ∧
      s'.view = s.view.ratchet P.kdf d generated ∧ s'.nr = 0 ∧ s'.dhRemote = some d :=
  ⟨_, rfl, rfl, rfl, rfl⟩

omit P in
theorem view_skipped_insert (D : Dict SkipKey Key) (d d' : Bytes 32) (x : UInt32) (mk : Key)
    (n : ℕ) :
    (if n < 2 ^ 32 then (D.insert ⟨d, x⟩ mk).get? ⟨d', UInt32.ofNat n⟩ else none) =
      if d' = d ∧ n = x.toNat then some mk
      else if n < 2 ^ 32 then D.get? ⟨d', UInt32.ofNat n⟩ else none := by
  have hx := x.toNat_lt
  by_cases hn : n < 2 ^ 32
  · have hiff : (⟨d', UInt32.ofNat n⟩ : SkipKey) = ⟨d, x⟩ ↔ d' = d ∧ n = x.toNat := by
      rw [SkipKey.mk.injEq, ← UInt32.toNat_inj, UInt32.toNat_ofNat_of_lt' hn]
    simp only [hn, if_true, Dict.get?_insert, hiff]
  · rw [if_neg hn, if_neg hn, if_neg (by omega)]

/-- The loop stores the keys it passes and stops at `till`. -/
theorem skipLoop_view {d : Bytes 32} {till : UInt32} (fuel : ℕ) {ck : Key}
    {s : Session Priv Key} (hd : s.dhRemote = some d) (hfuel : till.toNat - s.nr.toNat ≤ fuel) :
    (skipLoop P till fuel ck s).view =
      ({ s with ckr := some ck } : Session Priv Key).view.skip P.kdf till.toNat := by
  induction fuel generalizing ck s with
  | zero =>
    have hle : till.toNat ≤ s.nr.toNat := by omega
    rw [Ratchet.Party.skip_of_le P.kdf (by exact hle)]
    rfl
  | succ fuel ih =>
    rw [skipLoop]
    split
    -- below `till`: one key is stored, and the abstract party skips one number too
    · rename_i hlt
      have hlt := UInt32.lt_iff_toNat_lt.mp hlt
      have hnr : (s.nr + 1).toNat = s.nr.toNat + 1 := toNat_succ_of_lt hlt
      have hih := @ih (P.fromChain ck).2
        { s with
          skipped := s.skipped.insert ⟨s.dhRemote.getD (Bytes.replicate 32 0), s.nr⟩
            (P.fromChain ck).1,
          nr := s.nr + 1 } hd (by dsimp only; omega)
      have hone := Ratchet.Party.skip_step P.kdf
        (p := ({ s with ckr := some ck } : Session Priv Key).view)
        (show _ = some ck from rfl) hd hlt
      refine hih.trans (Eq.trans ?_ hone.symm)
      simp only [Session.view, hnr, hd, Option.getD_some, view_skipped_insert]
      rfl
    -- at `till` both stop
    · rename_i hge
      have hge : ¬ s.nr.toNat < till.toNat := fun h => hge (UInt32.lt_iff_toNat_lt.mpr h)
      rw [Ratchet.Party.skip_of_le P.kdf (by exact Nat.le_of_not_lt hge)]

/-- Within the bound, skipping does what the abstract ratchet does. -/
theorem skipMessageKeys_view {s : Session Priv Key} {till : UInt32}
    (hremote : s.ckr ≠ none → s.dhRemote ≠ none) (hnr : s.nr.toNat + 1000 < 2 ^ 32)
    (hskip : till.toNat ≤ s.nr.toNat + 1000) :
    ∃ s', skipMessageKeys P till s = .ok () s' ∧ s'.view = s.view.skip P.kdf till.toNat := by
  have hok : ¬ s.nr + maxSkip < till := by
    rw [UInt32.lt_iff_toNat_lt, UInt32.toNat_add]
    have : maxSkip.toNat = 1000 := rfl
    omega
  simp only [skipMessageKeys, EStateM.apply_bind, EStateM.apply_get, if_neg hok]
  cases hckr : s.ckr with
  | none => exact ⟨s, rfl, by simp [Ratchet.Party.skip, Session.view, hckr]⟩
  | some ck =>
    obtain ⟨d, hd⟩ := Option.ne_none_iff_exists'.mp (hremote (by simp [hckr]))
    refine ⟨_, rfl, ?_⟩
    rw [skipLoop_view P _ hd (Nat.le_refl _), ← hckr]

omit P in
@[simp] theorem view_skipped_get (s : Session Priv Key) (d : Bytes 32) (x : UInt32) :
    s.view.skipped d x.toNat = s.skipped.get? ⟨d, x⟩ := by
  simp [Session.view, x.toNat_lt]

omit P in
theorem view_forget (s : Session Priv Key) (d : Bytes 32) (x : UInt32) :
    ({ s with skipped := s.skipped.erase ⟨d, x⟩ } : Session Priv Key).view =
      s.view.forget d x.toNat := by
  have hx := x.toNat_lt
  ext1
  case skipped =>
    funext d' n
    by_cases hn : n < 2 ^ 32
    · have hiff : (⟨d', UInt32.ofNat n⟩ : SkipKey) = ⟨d, x⟩ ↔ d' = d ∧ n = x.toNat := by
        rw [SkipKey.mk.injEq, ← UInt32.toNat_inj, UInt32.toNat_ofNat_of_lt' hn]
      simp only [Session.view, Ratchet.Party.forget, hn, if_true, Dict.get?_erase, hiff]
    · simp only [Session.view, Ratchet.Party.forget, if_neg hn, ite_self]
  all_goals rfl

/-- The receiver is within `maxSkip` of a header it has no stored key for, in
each chain it would have to skip through. -/
def WithinSkip (s : Session Priv Key) (h : Header) : Prop :=
  s.skipped.get? ⟨h.dhPublic, h.n⟩ = none →
    if some h.dhPublic = s.dhRemote then h.n.toNat ≤ s.nr.toNat + maxSkip.toNat
    else h.pn.toNat ≤ s.nr.toNat + maxSkip.toNat ∧ h.n.toNat ≤ maxSkip.toNat

instance (s : Session Priv Key) (h : Header) : Decidable (WithinSkip s h) := by
  unfold WithinSkip
  infer_instance

omit P in
/-- `decrypt` would make a DH ratchet step on this header. -/
def Session.Turns (s : Session Priv Key) (h : Header) : Prop :=
  s.skipped.get? ⟨h.dhPublic, h.n⟩ = none ∧ some h.dhPublic ≠ s.dhRemote

instance (s : Session Priv Key) (h : Header) : Decidable (s.Turns h) := by
  unfold Session.Turns
  infer_instance

theorem turnTo_view {s : Session Priv Key} {h : Header} (generated : Priv)
    (hremote : s.ckr ≠ none → s.dhRemote ≠ none) (hnr : s.nr.toNat + 1000 < 2 ^ 32)
    (hskip : some h.dhPublic ≠ s.dhRemote → h.pn.toNat ≤ s.nr.toNat + 1000) :
    ∃ s', turnTo P h generated s = .ok () s' ∧
      s'.view = s.view.turn P.kdf h.view generated ∧
      (s' = s ∧ some h.dhPublic = s.dhRemote ∨
        s'.nr = 0 ∧ s'.dhRemote = some h.dhPublic ∧ some h.dhPublic ≠ s.dhRemote) := by
  by_cases hd : some h.dhPublic = s.dhRemote
  · refine ⟨s, turnTo_of_eq P generated hd, ?_, Or.inl ⟨rfl, hd⟩⟩
    rw [Ratchet.Party.turn, if_pos (by exact hd)]
  · obtain ⟨s₁, hs₁, hv₁⟩ := skipMessageKeys_view P hremote hnr (hskip hd)
    obtain ⟨s₂, hs₂, hv₂, hnr₂, hd₂⟩ := ratchetStep_view P h.dhPublic generated s₁
    rw [turnTo_of_ne P generated hd, EStateM.apply_bind, hs₁]
    refine ⟨s₂, hs₂, ?_, Or.inr ⟨hnr₂, hd₂, hd⟩⟩
    rw [Ratchet.Party.turn, if_neg (by exact hd), hv₂, hv₁]
    rfl

/-- **Refinement.** Within the bounds, `decrypt` takes the message key the
abstract ratchet takes, and ends in the same state. -/
theorem receiveKey_view {s : Session Priv Key} {h : Header} {generated : Priv} {key : Key}
    {p' : Ratchet.Party Priv (Bytes 32) Key Key Key}
    (hremote : s.ckr ≠ none → s.dhRemote ≠ none) (hnr : s.nr.toNat + 1000 < 2 ^ 32)
    (hn : h.n.toNat + 1 < 2 ^ 32) (hwithin : WithinSkip s h)
    (hrecv : s.view.recv P.kdf h.view generated = (some key, p')) :
    ∃ s', receiveKey P h generated s = .ok key s' ∧ s'.view = p' := by
  have hget : s.view.skipped h.view.dh h.view.n = s.skipped.get? ⟨h.dhPublic, h.n⟩ :=
    view_skipped_get s h.dhPublic h.n
  unfold Ratchet.Party.recv at hrecv
  rw [hget] at hrecv
  cases hstore : s.skipped.get? ⟨h.dhPublic, h.n⟩ with
  | some mk =>
    rw [hstore] at hrecv
    obtain ⟨hkey, rfl⟩ := Prod.mk.inj hrecv
    obtain rfl := Option.some.inj hkey
    exact ⟨_, receiveKey_of_stored P generated hstore, view_forget s h.dhPublic h.n⟩
  | none =>
    rw [hstore] at hrecv
    have hbound := hwithin hstore
    have hmax : maxSkip.toNat = 1000 := rfl
    rw [hmax] at hbound
    obtain ⟨s₁, hs₁, hv₁, hcase⟩ := turnTo_view P generated hremote hnr
      fun hd => (by rw [if_neg hd] at hbound; exact hbound.1)
    -- the second skip starts in a chain of the announced key
    have hstart : s₁.nr.toNat + 1000 < 2 ^ 32 ∧ h.n.toNat ≤ s₁.nr.toNat + 1000 ∧
        (s₁.ckr ≠ none → s₁.dhRemote ≠ none) := by
      rcases hcase with ⟨rfl, hd⟩ | ⟨hnr₁, hd₁, hd⟩
      · rw [if_pos hd] at hbound
        exact ⟨hnr, hbound, hremote⟩
      · rw [if_neg hd] at hbound
        simp [hnr₁, hd₁, hbound.2]
    obtain ⟨s₂, hs₂, hv₂⟩ := skipMessageKeys_view P hstart.2.2 hstart.1 hstart.2.1
    have hn₂ : h.view.n = h.n.toNat := rfl
    simp only [← hv₁, hn₂, ← hv₂] at hrecv
    have hrun : receiveKey P h generated s = takeKey P s₂ := by
      simp only [receiveKey_of_miss P generated hstore, EStateM.apply_bind, hs₁, hs₂]
    rw [hrun]
    have hck : s₂.view.ckr = s₂.ckr := rfl
    rw [hck] at hrecv
    cases hckr : s₂.ckr with
    | none => simp [hckr] at hrecv
    | some ck =>
      have hnr₂ : (s₂.nr + 1).toNat = s₂.nr.toNat + 1 := by
        have hmaxnr : s₂.nr.toNat ≤ max s₁.nr.toNat h.n.toNat := by
          have hnr₂ : s₂.nr.toNat = (s₁.view.skip P.kdf h.n.toNat).nr := congrArg (·.nr) hv₂
          rw [hnr₂]
          unfold Ratchet.Party.skip
          split
          · exact Nat.le_refl _
          · exact Nat.le_max_left ..
        exact toNat_succ (by omega)
      rw [hckr] at hrecv
      obtain ⟨hkey, rfl⟩ := Prod.mk.inj hrecv
      obtain rfl := Option.some.inj hkey
      refine ⟨_, takeKey_of_some P hckr, ?_⟩
      simp only [Session.view, hnr₂]
      rfl

end

end AnonyMus.Rust
