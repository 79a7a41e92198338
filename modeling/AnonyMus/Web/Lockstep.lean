import AnonyMus.Web.Interop
import AnonyMus.Web.Padding

/-!
# Web client — a conversation in order

Two sessions of `web/src/lib/crypto.ts` whose messages arrive in the order in
which they were sent. Nothing is skipped, so that a chain is worked off by its
receiver just as its sender has worked it off, and both count alike even where
a `Number` no longer grows.

* `Seat` — a session with keys of 32 bytes that has stored none for later;
* `Stream` — the messages between the two ends of a chain;
* `Ahead` — one side has turned to the key of the other, which has yet to turn to its own;
* `Ahead.send_ahead`, `Ahead.send_behind`, `Ahead.receive_ahead`, `Ahead.receive_behind`,
  `Ahead.turn` — what a message keeps of that.
-/

namespace AnonyMus.Web

open Binary64 (round64 round64_of_le)

/-! ## Seats -/

structure Seat where
  own       : KeyPair
  remote    : Option (Bytes 32)
  root      : List UInt8
  sending   : Option (Bytes 32)
  receiving : Option (Bytes 32)
  sent      : ℕ
  received  : ℕ
  previous  : ℕ

/-- The session in this state; one that cannot send yet has no public key to send. -/
def Seat.session (s : Seat) : DoubleRatchetSession where
  dhPrivateKey       := some s.own.privateKey.1
  dhPublicKey        := s.sending.map fun _ => s.own.publicKey.1
  dhRemotePublicKey  := s.remote.map Subtype.val
  rootKey            := some s.root
  sendingChainKey    := s.sending.map Subtype.val
  receivingChainKey  := s.receiving.map Subtype.val
  seqSend            := s.sent
  seqRecv            := s.received
  prevChainLength    := s.previous
  skippedMessageKeys := Dict.empty

/-- The numbers of the session are whole numbers that a `Number` can hold. -/
structure Seat.Bounded (s : Seat) : Prop where
  sent     : s.sent ≤ 2 ^ 53
  received : s.received ≤ 2 ^ 53
  previous : s.previous ≤ 2 ^ 53

/-- A session that waits for the first message. -/
def Seat.waiting (secret : List UInt8) (own : KeyPair) : Seat :=
  ⟨own, none, secret, none, none, 0, 0, 0⟩

section

variable (W : Platform)

/-- The message key and the chain key after a chain key. -/
def nextKeys (ck : Bytes 32) : Bytes 32 × Bytes 32 :=
  ((W.hkdf (List.replicate 32 0) (some ck.1) chainInfo 64).take 32,
    (W.hkdf (List.replicate 32 0) (some ck.1) chainInfo 64).drop 32)

/-- The root key and the chain key after a root key and a DH output. -/
def nextRoot (root : List UInt8) (shared : Bytes 32) : Bytes 32 × Bytes 32 :=
  ((W.hkdf shared.1 (some root) rootInfo 64).take 32,
    (W.hkdf shared.1 (some root) rootInfo 64).drop 32)

/-- `this.seqSend += 1`. -/
def nextNumber (n : ℕ) : ℕ := round64 (n + 1)

/-- The session that sends first, with the key it generates. -/
def Seat.opening (secret : List UInt8) (peer : Bytes 32) (generated : KeyPair) : Seat :=
  ⟨generated, some peer, (nextRoot W secret (W.dh generated.privateKey peer)).1.1,
    some (nextRoot W secret (W.dh generated.privateKey peer)).2, none, 0, 0, 0⟩

/-- The session that has turned to the key of its peer. -/
def Seat.turned (s : Seat) (peer : Bytes 32) (generated : KeyPair) : Seat :=
  let first := nextRoot W s.root (W.dh s.own.privateKey peer)
  let second := nextRoot W first.1.1 (W.dh generated.privateKey peer)
  ⟨generated, some peer, second.1.1, some second.2, some first.2, 0, 0, s.sent⟩

def Seat.afterSend (s : Seat) (ck : Bytes 32) : Seat :=
  { s with sending := some (nextKeys W ck).2, sent := nextNumber s.sent }

def Seat.afterReceive (s : Seat) (ck : Bytes 32) : Seat :=
  { s with receiving := some (nextKeys W ck).2, received := nextNumber s.received }

end

/-! ## Calls -/

section

variable {W : Platform} {s : Seat}

theorem nextNumber_le {n : ℕ} (h : n ≤ 2 ^ 53) : nextNumber n ≤ 2 ^ 53 := by
  unfold nextNumber
  rcases Nat.lt_or_ge n (2 ^ 53) with hlt | hge
  · rw [round64_of_le hlt]
    exact hlt
  · obtain rfl : n = 2 ^ 53 := Nat.le_antisymm h hge
    decide

/-- The limit of `skipMessages` lets the number pass that is expected next. -/
theorem le_round64_add {n : ℕ} (h : n ≤ 2 ^ 53) : n ≤ round64 (n + 100) := by
  rcases Nat.le_total (n + 100) (2 ^ 53) with hle | hge
  · rw [round64_of_le hle]
    omega
  · exact h.trans (Binary64.le_round64 hge)

theorem Seat.Bounded.afterSend (h : s.Bounded) (ck : Bytes 32) : (s.afterSend W ck).Bounded :=
  ⟨nextNumber_le h.sent, h.received, h.previous⟩

theorem Seat.Bounded.afterReceive (h : s.Bounded) (ck : Bytes 32) : (s.afterReceive W ck).Bounded :=
  ⟨h.sent, nextNumber_le h.received, h.previous⟩

theorem Seat.Bounded.turned (h : s.Bounded) (peer : Bytes 32) (generated : KeyPair) :
    (s.turned W peer generated).Bounded := ⟨Nat.zero_le _, Nat.zero_le _, h.sent⟩

theorem chainStep_nextKeys (ck : Bytes 32) :
    chainStep W ck.1 = .ok ((nextKeys W ck).1.1, (nextKeys W ck).2.1) := by
  rw [chainStep, deriveHalves_eq]
  rfl

theorem rootStep_nextRoot (root : List UInt8) (shared : Bytes 32) :
    rootStep W root shared.1 =
      .ok ((nextRoot W root shared).1.1, (nextRoot W root shared).2.1) := by
  rw [rootStep, deriveHalves_eq]
  rfl

theorem x25519Dh_ok (x d : Bytes 32) : x25519Dh W x.1 d.1 = .ok (W.dh x d).1 := by
  rw [x25519Dh, array32_eq, array32_eq]
  rfl

theorem initAlice_opening (secret : List UInt8) (peer : Bytes 32) (generated : KeyPair) :
    initAlice W secret peer.1 generated = .ok (Seat.opening W secret peer generated).session := by
  unfold initAlice
  rw [x25519Dh_ok, EStateM.except_ok_bind, rootStep_nextRoot]
  rfl

theorem encrypt_none (hck : s.sending = none) (plaintext : String) (random : (n : ℕ) → Bytes n)
    (nonce : Bytes 12) :
    encrypt W plaintext random nonce s.session =
      .error (.error "Sending chain key not initialized") s.session := by
  have hnone : s.session.sendingChainKey = none := congrArg (Option.map Subtype.val) hck
  rw [encrypt, EStateM.apply_bind, EStateM.apply_get]
  dsimp only
  rw [hnone]
  rfl

theorem encrypt_some {ck : Bytes 32} (hck : s.sending = some ck) (plaintext : String)
    (random : (n : ℕ) → Bytes n) (nonce : Bytes 12) :
    encrypt W plaintext random nonce s.session =
      .ok (sealedUnder W (nextKeys W ck).1 s.own.publicKey s.sent s.previous plaintext random nonce)
        (s.afterSend W ck).session := by
  have hsome : s.session.sendingChainKey = some ck.1 := congrArg (Option.map Subtype.val) hck
  have hpublic : s.session.dhPublicKey = some s.own.publicKey.1 := by
    unfold Seat.session
    rw [hck]
    rfl
  have hseal : aeadEncrypt W (nextKeys W ck).1.1 (pad plaintext random) nonce =
      .ok (nonce.1 ++ W.gcmEncrypt (nextKeys W ck).1 nonce (pad plaintext random)) := by
    rw [aeadEncrypt, array32_eq]
    rfl
  have hiv : nonce.1.length = 12 := nonce.2
  rw [encrypt, EStateM.apply_bind, EStateM.apply_get]
  dsimp only
  rw [hsome]
  dsimp only
  rw [chainStep_nextKeys]
  simp only [EStateM.apply_bind, EStateM.apply_ofExcept_ok, EStateM.apply_modify,
    EStateM.apply_get, EStateM.apply_pure, hseal, hpublic]
  rw [List.drop_left' hiv, List.take_left' hiv]
  unfold Seat.afterSend Seat.session
  rw [hck]
  rfl

/-- Nothing is skipped before the number that is expected. -/
theorem skipMessages_expected {n : ℕ} (hbound : s.received ≤ 2 ^ 53)
    (hn : s.receiving = none ∨ n ≤ s.received) :
    skipMessages W n s.session = .ok ⟨⟩ s.session := by
  rw [skipMessages, EStateM.apply_bind, EStateM.apply_get]
  dsimp only
  rcases hck : s.receiving with _ | ck
  · have hnone : s.session.receivingChainKey = none := congrArg (Option.map Subtype.val) hck
    rw [hnone]
    rfl
  · have hsome : s.session.receivingChainKey = some ck.1 := congrArg (Option.map Subtype.val) hck
    have hle : n ≤ s.received := hn.resolve_left (by rw [hck]; exact Option.some_ne_none ck)
    have hpass := hle.trans (le_round64_add hbound)
    rw [hsome]
    dsimp only
    rw [show s.session.seqRecv = s.received from rfl, if_neg (by omega),
      show ((n : ℤ) - s.received).toNat = 0 by omega]
    rfl

theorem takeKey_some {ck : Bytes 32} (hck : s.receiving = some ck) :
    takeKey W s.session = .ok (nextKeys W ck).1.1 (s.afterReceive W ck).session := by
  have hsome : s.session.receivingChainKey = some ck.1 := congrArg (Option.map Subtype.val) hck
  rw [takeKey, EStateM.apply_bind, EStateM.apply_get]
  dsimp only
  rw [hsome]
  simp only [EStateM.apply_bind, EStateM.apply_modify, EStateM.apply_ofExcept_ok,
    chainStep_nextKeys]
  rfl

/-- The message that is expected next of the chain that is being received. -/
theorem receiveKey_expected {d ck : Bytes 32} (hremote : s.remote = some d)
    (hck : s.receiving = some ck) (hbound : s.received ≤ 2 ^ 53) (pn : ℤ) (generated : KeyPair) :
    receiveKey W d.1 s.received pn generated s.session =
      .ok (nextKeys W ck).1.1 (s.afterReceive W ck).session := by
  have hsame : s.session.dhRemotePublicKey = some d.1 := congrArg (Option.map Subtype.val) hremote
  have hturn : turnTo W d.1 pn generated s.session = .ok ⟨⟩ s.session := by
    rw [turnTo, EStateM.apply_bind, EStateM.apply_get]
    dsimp only
    rw [if_neg (not_not_intro hsame)]
    rfl
  rw [receiveKey, EStateM.apply_bind, EStateM.apply_get]
  dsimp only
  rw [show s.session.skippedMessageKeys.get? (skipKey d.1 s.received) = none from rfl]
  dsimp only
  rw [EStateM.apply_bind, hturn]
  dsimp only
  rw [EStateM.apply_bind, skipMessages_expected hbound (.inr (Nat.le_refl _))]
  exact takeKey_some hck

/-- The first message of a new chain, once the old one has been received. -/
theorem receiveKey_turn {d : Bytes 32} (hremote : s.remote ≠ some d) (hbound : s.received ≤ 2 ^ 53)
    {pn : ℕ} (hpn : s.receiving = none ∨ pn ≤ s.received) (generated : KeyPair) :
    receiveKey W d.1 0 pn generated s.session =
      .ok (nextKeys W (nextRoot W s.root (W.dh s.own.privateKey d)).2).1.1
        ((s.turned W d generated).afterReceive W
          (nextRoot W s.root (W.dh s.own.privateKey d)).2).session := by
  have hother : s.session.dhRemotePublicKey ≠ some d.1 := by
    intro h
    exact hremote (Option.map_injective Subtype.val_injective h)
  have hratchet :
      ratchetStep W d.1 generated s.session = .ok ⟨⟩ (s.turned W d generated).session := by
    rw [ratchetStep, EStateM.apply_bind, EStateM.apply_modify]
    dsimp only
    rw [EStateM.apply_bind, EStateM.apply_get]
    dsimp only [Seat.session]
    simp only [EStateM.apply_bind, EStateM.apply_modify, EStateM.apply_ofExcept_ok, x25519Dh_ok,
      rootStep_nextRoot]
    rfl
  have hturn : turnTo W d.1 pn generated s.session = .ok ⟨⟩ (s.turned W d generated).session := by
    rw [turnTo, EStateM.apply_bind, EStateM.apply_get]
    dsimp only
    rw [if_pos hother, EStateM.apply_bind, skipMessages_expected hbound hpn]
    exact hratchet
  rw [receiveKey, EStateM.apply_bind, EStateM.apply_get]
  dsimp only
  rw [show s.session.skippedMessageKeys.get? (skipKey d.1 0) = none from rfl]
  dsimp only
  rw [EStateM.apply_bind, hturn]
  dsimp only
  have hskip : skipMessages W 0 (s.turned W d generated).session =
      .ok ⟨⟩ (s.turned W d generated).session :=
    skipMessages_expected (Nat.zero_le _) (.inr (Nat.le_refl 0))
  rw [EStateM.apply_bind, hskip]
  exact takeKey_some rfl

end

/-! ## Messages under way -/

/-- What the header of a message says, and the key it is sealed under. -/
structure Letter where
  dh       : Bytes 32
  seq      : ℕ
  previous : ℕ
  key      : Bytes 32

/-- The messages of a chain from where its receiver stands, `ck` and `n`, to where its sender
does. -/
inductive Stream (W : Platform) (dh : Bytes 32) (previous : ℕ) :
    Bytes 32 → ℕ → List Letter → Bytes 32 → ℕ → Prop
  | nil (ck : Bytes 32) (n : ℕ) : Stream W dh previous ck n [] ck n
  | cons {ck ck' : Bytes 32} {n n' : ℕ} {letters : List Letter}
      (rest : Stream W dh previous (nextKeys W ck).2 (nextNumber n) letters ck' n') :
      Stream W dh previous ck n (⟨dh, n, previous, (nextKeys W ck).1⟩ :: letters) ck' n'

/-- Another message of the chain is the last one under way. -/
theorem Stream.snoc {W : Platform} {dh ck ck' : Bytes 32} {previous n n' : ℕ}
    {letters : List Letter}
    (h : Stream W dh previous ck n letters ck' n') :
    Stream W dh previous ck n (letters ++ [⟨dh, n', previous, (nextKeys W ck').1⟩])
      (nextKeys W ck').2 (nextNumber n') := by
  induction h with
  | nil ck n => exact .cons (.nil _ _)
  | cons rest ih => exact .cons ih

/-- Once all has arrived, both stand at the same number. -/
theorem Stream.eq_of_nil {W : Platform} {dh ck ck' : Bytes 32} {previous n n' : ℕ}
    (h : Stream W dh previous ck n [] ck' n') : n' = n := by
  cases h
  rfl

section

variable (W : Platform)

/-- What is under way of the chain that the receiver has, which its sender left at `previous`. -/
def Old (receiver : Seat) (letters : List Letter) (previous : ℕ) : Prop :=
  (receiver.receiving = none ∧ letters = []) ∨
    ∃ d p ck ck', receiver.remote = some d ∧ receiver.receiving = some ck ∧
      Stream W d p ck receiver.received letters ck' previous

/-- What is under way of the chain that sender and receiver both have; none has been sent before
the sender has one. -/
def Current (sender receiver : Seat) (letters : List Letter) : Prop :=
  (sender.sending = none ∧ receiver.receiving = none ∧ letters = []) ∨
    ∃ ck ck', sender.sending = some ck' ∧ receiver.receiving = some ck ∧
      Stream W sender.own.publicKey sender.previous ck receiver.received letters ck' sender.sent

/-- What is under way to `f`: the rest of an old chain, then the chain that `l` has now, which
begins where `f` will arrive when it turns to the key of `l`. -/
structure Under (l f : Seat) (old new : List Letter) : Prop where
  old  : Old W f old l.previous
  root : l.root = (nextRoot W f.root (W.dh f.own.privateKey l.own.publicKey)).1.1
  new  : ∃ ck, l.sending = some ck ∧ Stream W l.own.publicKey l.previous
    (nextRoot W f.root (W.dh f.own.privateKey l.own.publicKey)).2 0 new ck l.sent

/-- `l` has turned to the key of `f`, and `f` has yet to turn to the key of `l`. -/
structure Ahead (l f : Seat) (toF toL : List Letter) : Prop where
  remote : l.remote = some f.own.publicKey
  unseen : f.remote ≠ some l.own.publicKey
  bounds : l.Bounded ∧ f.Bounded
  roots  : l.root ≠ [] ∧ f.root ≠ []
  under  : ∃ old new, toF = old ++ new ∧ Under W l f old new
  back   : Current W f l toL

end

/-- The last letter of a chain that has been sent. -/
def Seat.letter (W : Platform) (s : Seat) (ck : Bytes 32) : Letter :=
  ⟨s.own.publicKey, s.sent, s.previous, (nextKeys W ck).1⟩

section

variable {W : Platform} {l f : Seat} {toF toL rest : List Letter} {letter : Letter}

theorem Current.send {sender receiver : Seat} {letters : List Letter}
    (h : Current W sender receiver letters) {ck : Bytes 32} (hck : sender.sending = some ck) :
    Current W (sender.afterSend W ck) receiver (letters ++ [sender.letter W ck]) := by
  rcases h with ⟨hnone, -, -⟩ | ⟨ck₀, ck', hsending, hreceiving, hstream⟩
  · cases hck.symm.trans hnone
  · obtain rfl := Option.some.inj (hck.symm.trans hsending)
    exact .inr ⟨ck₀, _, rfl, hreceiving, hstream.snoc⟩

theorem Ahead.send_ahead (h : Ahead W l f toF toL) : ∃ ck, l.sending = some ck ∧
    Ahead W (l.afterSend W ck) f (toF ++ [l.letter W ck]) toL := by
  obtain ⟨old, new, rfl, hold, hroot, ck, hck, hstream⟩ := h.under
  refine ⟨ck, hck, h.remote, h.unseen, ⟨h.bounds.1.afterSend ck, h.bounds.2⟩, h.roots,
    ⟨old, new ++ [l.letter W ck], ?_, ?_⟩, ?_⟩
  · rw [List.append_assoc]
  · exact ⟨hold, hroot, _, rfl, hstream.snoc⟩
  · rcases h.back with hnone | ⟨ck₀, ck', hsending, hreceiving, hback⟩
    · exact .inl hnone
    · exact .inr ⟨ck₀, ck', hsending, hreceiving, hback⟩

theorem Ahead.send_behind (h : Ahead W l f toF toL) {ck : Bytes 32} (hck : f.sending = some ck) :
    Ahead W l (f.afterSend W ck) toF (toL ++ [f.letter W ck]) := by
  obtain ⟨old, new, htoF, hold, hroot, hnew⟩ := h.under
  exact ⟨h.remote, h.unseen, ⟨h.bounds.1, h.bounds.2.afterSend ck⟩, h.roots,
    ⟨old, new, htoF, hold, hroot, hnew⟩, h.back.send hck⟩

/-- A message for the side ahead is of the chain it has. -/
theorem Ahead.receive_ahead (h : Ahead W l f toF (letter :: rest)) (generated : KeyPair) :
    ∃ ck, receiveKey W letter.dh.1 letter.seq letter.previous generated l.session =
        .ok letter.key.1 (l.afterReceive W ck).session ∧
      Ahead W (l.afterReceive W ck) f toF rest := by
  rcases h.back with ⟨-, -, hnil⟩ | ⟨ck, ck', hsending, hreceiving, hstream⟩
  · cases hnil
  rcases hstream with _ | hrest
  obtain ⟨old, new, htoF, hold, hroot, hnew⟩ := h.under
  refine ⟨ck, receiveKey_expected h.remote hreceiving h.bounds.1.received _ generated, h.remote,
    h.unseen, ⟨h.bounds.1.afterReceive ck, h.bounds.2⟩, h.roots,
    ⟨old, new, htoF, hold, hroot, hnew⟩, ?_⟩
  exact .inr ⟨_, ck', hsending, rfl, hrest⟩

/-- A message for the side behind is the next of its old chain, or it turns to the new one, and is
ahead then. -/
theorem Ahead.receive_behind (h : Ahead W l f (letter :: rest) toL) {generated : KeyPair}
    (hdh : W.dh generated.privateKey l.own.publicKey = W.dh l.own.privateKey generated.publicKey)
    (hfresh : generated.publicKey ≠ f.own.publicKey) :
    ∃ f', receiveKey W letter.dh.1 letter.seq letter.previous generated f.session =
        .ok letter.key.1 f'.session ∧
      ((f'.own = f.own ∧ f'.sending = f.sending ∧ f.receiving ≠ none ∧ Ahead W l f' rest toL) ∨
        (f'.own = generated ∧ Ahead W f' l toL rest)) := by
  obtain ⟨old, new, htoF, hold, hroot, ck, hck, hnew⟩ := h.under
  rcases old with _ | ⟨first, old⟩
  · -- the old chain is done
    rw [List.nil_append] at htoF
    subst htoF
    rcases hnew with _ | hrest
    have hpn : f.receiving = none ∨ l.previous ≤ f.received := by
      rcases hold with ⟨hnone, -⟩ | ⟨d, p, ck₀, ck', -, -, hstream⟩
      · exact .inl hnone
      · exact .inr (Nat.le_of_eq hstream.eq_of_nil)
    refine ⟨_, receiveKey_turn h.unseen h.bounds.2.received hpn generated, .inr ⟨rfl, ?_⟩⟩
    refine ⟨rfl, ?_, ⟨(h.bounds.2.turned _ _).afterReceive _, h.bounds.1⟩, ⟨?_, h.roots.1⟩,
      ⟨toL, [], (List.append_nil _).symm, ?_, ?_, ?_⟩, ?_⟩
    · rw [h.remote]
      exact fun heq => hfresh (Option.some.inj heq).symm
    · exact Python.ne_nil_of_length (by decide) _
    · -- what was current on the way back has become old
      rcases h.back with ⟨-, hnone, hnil⟩ | ⟨ck₀, ck', hsending, hreceiving, hstream⟩
      · exact .inl ⟨hnone, hnil⟩
      · exact .inr ⟨_, _, ck₀, ck', h.remote, hreceiving, hstream⟩
    · show (Seat.turned W f l.own.publicKey generated).root = _
      unfold Seat.turned
      dsimp only
      rw [← hroot, hdh]
      rfl
    · refine ⟨_, rfl, ?_⟩
      have hseed : (nextRoot W l.root (W.dh l.own.privateKey generated.publicKey)).2 =
          (nextRoot W (nextRoot W f.root (W.dh f.own.privateKey l.own.publicKey)).1.1
            (W.dh generated.privateKey l.own.publicKey)).2 := by
        rw [← hroot, hdh]
      dsimp only [Seat.afterReceive, Seat.turned]
      rw [hseed]
      exact .nil _ _
    · refine .inr ⟨_, ck, hck, rfl, ?_⟩
      dsimp only [Seat.afterReceive, Seat.turned]
      exact hrest
  · rw [List.cons_append] at htoF
    obtain ⟨rfl, rfl⟩ := List.cons.inj htoF
    rcases hold with ⟨-, hnil⟩ | ⟨d, p, ck₀, ck', hremote, hreceiving, hstream⟩
    · cases hnil
    rcases hstream with _ | hrest
    refine ⟨_, receiveKey_expected hremote hreceiving h.bounds.2.received _ generated,
      .inl ⟨rfl, rfl, ?_, ?_⟩⟩
    · rw [hreceiving]
      exact Option.some_ne_none ck₀
    refine ⟨h.remote, h.unseen, ⟨h.bounds.1, h.bounds.2.afterReceive _⟩, h.roots,
      ⟨old, new, rfl, ?_, hroot, ck, hck, hnew⟩, ?_⟩
    · exact .inr ⟨d, p, _, ck', hremote, rfl, hrest⟩
    · rcases h.back with hnone | ⟨ck₁, ck₂, hsending, hreceiving', hback⟩
      · exact .inl hnone
      · exact .inr ⟨ck₁, ck₂, hsending, hreceiving', hback⟩

/-- A conversation that one side has opened, whose other side waits. -/
theorem ahead_opening {secret : List UInt8} (hsecret : secret ≠ []) {own generated : KeyPair}
    (hdh : W.dh generated.privateKey own.publicKey = W.dh own.privateKey generated.publicKey) :
    Ahead W (Seat.opening W secret own.publicKey generated) (Seat.waiting secret own) [] [] where
  remote := rfl
  unseen := (Option.some_ne_none _).symm
  bounds := ⟨⟨Nat.zero_le _, Nat.zero_le _, Nat.zero_le _⟩,
    ⟨Nat.zero_le _, Nat.zero_le _, Nat.zero_le _⟩⟩
  roots  := ⟨Python.ne_nil_of_length (by decide) _, hsecret⟩
  under  := by
    refine ⟨[], [], rfl, .inl ⟨rfl, rfl⟩, ?_, _, rfl, ?_⟩
    · show (nextRoot W secret (W.dh generated.privateKey own.publicKey)).1.1 = _
      rw [hdh]
      rfl
    · show Stream W _ _ (nextRoot W secret (W.dh own.privateKey generated.publicKey)).2 0 []
        (nextRoot W secret (W.dh generated.privateKey own.publicKey)).2 0
      rw [hdh]
      exact .nil _ _
  back   := .inl ⟨rfl, rfl, rfl⟩

/-! ## Stored sessions -/

theorem deserialize_serialize_session {s : Seat} (hroot : s.root ≠ []) :
    deserialize (serialize s.session) = s.session := by
  have hpublic : (s.sending.map fun _ => s.own.publicKey.1) ≠ some [] := by
    rcases s.sending with _ | ck
    · exact (Option.some_ne_none _).symm
    · exact map_val_ne (some s.own.publicKey)
  unfold deserialize serialize Seat.session
  dsimp only
  rw [readHex_map (show some s.own.privateKey.1 ≠ some [] from map_val_ne (some s.own.privateKey)),
    readHex_map hpublic, readHex_map (map_val_ne s.remote),
    readHex_map (fun h => hroot (Option.some.inj h)), readHex_map (map_val_ne s.sending),
    readHex_map (map_val_ne s.receiving)]

end

/-! ## Texts -/

/-- What the documentation of the primitives says: both ends of a DH exchange agree, AES-GCM opens
what it sealed and adds a tag, and `TextDecoder` reads what `TextEncoder` writes, unless it
begins with a byte order mark. -/
structure Platform.Documented (W : Platform) (pub : Bytes 32 → Bytes 32) : Prop where
  dh     : ∀ x y, W.dh x (pub y) = W.dh y (pub x)
  opens  : ∀ key (nonce : Bytes 12) plaintext,
    W.gcmDecrypt key nonce.1 (W.gcmEncrypt key nonce plaintext) = .ok plaintext
  tag    : ∀ key nonce plaintext, 16 ≤ (W.gcmEncrypt key nonce plaintext).length
  decode : ∀ text : String, text.toList.head? ≠ some (Char.ofNat 0xFEFF) →
    W.textDecode text.toUTF8.toList = text

section

variable {W : Platform} {pub : Bytes 32 → Bytes 32}

theorem aeadDecrypt_sealed (hW : W.Documented pub) (key : Bytes 32) (nonce : Bytes 12)
    (plaintext : List UInt8) :
    aeadDecrypt W key.1 (nonce.1 ++ W.gcmEncrypt key nonce plaintext) = .ok plaintext := by
  have hnonce : nonce.1.length = 12 := nonce.2
  have htag := hW.tag key nonce plaintext
  unfold aeadDecrypt
  rw [array32_eq, EStateM.except_ok_bind]
  rw [if_neg (by rw [List.length_append]; omega)]
  rw [List.take_left' hnonce, List.drop_left' hnonce, hW.opens]
  rfl

/-- A text that fits its length field is read as it was written. -/
theorem openText_sealed (hW : W.Documented pub) {text : String}
    (hshort : text.toUTF8.toList.length < 2 ^ 32)
    (hmark : text.toList.head? ≠ some (Char.ofNat 0xFEFF)) (key : Bytes 32) (nonce : Bytes 12)
    (random : (n : ℕ) → Bytes n) :
    openText W key.1 nonce.1 (W.gcmEncrypt key nonce (pad text random)) = .ok text := by
  have hunpad : unpad W.textDecode (pad text random) = .ok (W.textDecode text.toUTF8.toList) :=
    (unpad_pad hshort random W.textDecode).2
  rw [openText_eq, aeadDecrypt_sealed hW, EStateM.except_ok_bind, hunpad, hW.decode text hmark]

end

end AnonyMus.Web
