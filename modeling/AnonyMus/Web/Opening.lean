import AnonyMus.Web.History
import AnonyMus.Web.Lockstep

/-!
# Web client — who speaks first

Two clients of `web/src/stores/messages.ts` that hold each other's public keys
and a shared secret, and have no session yet. Either user may send at any time;
each message arrives after the ones before it, under the name of its sender or
sealed. The role of a client is decided by its public key, and only one of the
roles can send before it has received.

* `Pair`, `act` — both clients and what is under way;
* `Good` — a message is sent, a delivered one reads as it was written;
* `Allowed` — the user who sends has the smaller key or has received a message, and
  the text is one that `btoa` takes;
* `Talking` — what holds of the clients then;
* `good_iff_allowed` — a conversation goes well exactly when all that is sent is allowed.
-/

namespace AnonyMus.Web

open EStateM (apply_bind apply_get apply_modify apply_ofExcept_ok apply_ofExcept_error
  except_ok_bind AllMeet)

/-- What the documentation of `JSON`, `atob` and `btoa` says: an envelope of base64 texts and whole
numbers is read as it was written, and `btoa` throws at characters above U+00FF. -/
structure Browser.Documented (B : Browser) : Prop where
  parse : ∀ (ciphertext selfCiphertext dhPub : List UInt8) (seq prevChainLen : ℕ),
    seq ≤ 2 ^ 53 → prevChainLen ≤ 2 ^ 53 →
      B.parseEnvelope (B.envelopeText ⟨some (toBase64 ciphertext), some (toBase64 selfCiphertext),
        some (toBase64 dhPub), seq, prevChainLen⟩) =
      some ⟨some (toBase64 ciphertext), some (toBase64 selfCiphertext), some (toBase64 dhPub), seq,
        prevChainLen⟩
  atob  : ∀ bytes, B.atob (toBase64 bytes) = some bytes
  btoa  : ∀ text, (B.btoa text).isSome → ∀ c ∈ text.toList, c.toNat < 256

namespace Opening

/-! ## The conversation -/

/-- What does not change: addresses, identities and the secret that was agreed on. -/
structure Parties where
  onion  : Bool → String
  keys   : Bool → KeyPair
  secret : List UInt8

/-- The clients, what each has sent and the other not received, with the text for the proofs, and
for the proofs how much each has received and which public keys were generated. -/
structure Pair where
  client   : Bool → Client
  underWay : Bool → List (SendRequest × String)
  received : Bool → ℕ
  used     : List (Bytes 32)

inductive Event
  | send (s : Bool) (text : String) (supply : Supply) (response : UiMessage)
  /-- The next message of the other side, under its name or sealed. -/
  | deliver (s : Bool) (messageId : String) (named : Bool) (supply : Supply)

section

variable (W : Platform) (B : Browser) (P : Parties)

/-- The message that the node hands to `s`. -/
def handed (s : Bool) (messageId : String) (named : Bool) (m : SendRequest) : UiMessage where
  messageId      := messageId
  senderOnion    := if named then P.onion !s else "sealed"
  recipientOnion := m.recipientOnion
  ciphertextB64  := m.ciphertextB64
  ivB64          := m.ivB64
  sequenceNumber := m.sequenceNumber
  sealedSender   := m.sealedSender

/-- The text that `receiveMessage` gets; the node accepts the sender that a block names. -/
def readText (supply : Supply) (msg : UiMessage) (c : Client) : Option (Except JsError String) :=
  (targetOf W B msg.senderOnion c.identity true msg).bind fun target =>
    (decryptMessage W B target.1 true supply target.2 c).value?.map Prod.snd

def act (e : Event) (p : Pair) : Pair :=
  match e with
  | .send s text supply response =>
    { client := Function.update p.client s
        (sendMessage W B (P.onion !s) text (P.onion s) supply (some response) (p.client s)).state
      underWay :=
        match prepareSend W B (P.onion !s) text (P.onion s) supply (p.client s) with
        | .ok m _ => Function.update p.underWay s (p.underWay s ++ [(m, text)])
        | .error _ _ => p.underWay
      received := p.received
      used := p.used ++ [supply.init.publicKey] }
  | .deliver s messageId named supply =>
    match p.underWay !s with
    | [] => p
    | (m, _) :: rest =>
      { client := Function.update p.client s
          (receiveMessage W B (handed P s messageId named m).senderOnion true supply
            (handed P s messageId named m) (p.client s)).state
        underWay := Function.update p.underWay (!s) rest
        received := Function.update p.received s (p.received s + 1)
        used := p.used ++ [supply.ratchet.publicKey] }

def run (e : Event) : EStateM Empty Pair Unit := modify (act W B P e)

/-- The message is sent, or reads as it was written. -/
def Good : Event → Pair → Prop
  | .send s text supply response, p =>
    (sendMessage W B (P.onion !s) text (P.onion s) supply (some response) (p.client s)).value? =
      some true
  | .deliver s messageId named supply, p => ∀ m text rest, p.underWay (!s) = (m, text) :: rest →
    readText W B supply (handed P s messageId named m) (p.client s) = some (.ok text)

/-- `ourPubB64 < contact.public_key_b64`. -/
def Parties.leads (s : Bool) : Bool :=
  lessThan (toBase64 (P.keys s).publicKey.1) (toBase64 (P.keys !s).publicKey.1)

/-- What is sent has a text that `btoa` takes, and comes from the side with the smaller key or from
one that has received a message. -/
def Allowed : Event → Pair → Prop
  | .send s text _ _, p => (B.btoa text).isSome ∧ (P.leads s = true ∨ 0 < p.received s)
  | .deliver _ _ _ _, _ => True

/-- A key pair that the generator makes. -/
def Proper (pub : Bytes 32 → Bytes 32) (k : KeyPair) : Prop := k.publicKey = pub k.privateKey

/-- What the engine and its generator can bring: a string is not longer than its length field can
say, and no key comes twice. -/
def Possible (pub : Bytes 32 → Bytes 32) : Event → Pair → Prop
  | .send _ text supply _, p => text.toUTF8.toList.length < 2 ^ 32 ∧ Proper pub supply.init ∧
    Proper pub supply.sealing ∧ supply.init.publicKey ∉ p.used
  | .deliver _ _ _ supply, p => Proper pub supply.ratchet ∧ supply.ratchet.publicKey ∉ p.used

/-- Two parties as they are made. -/
structure Parties.Real (pub : Bytes 32 → Bytes 32) : Prop where
  proper : ∀ s, Proper pub (P.keys s)
  secret : P.secret ≠ []
  named  : ∀ s, P.onion s ≠ "sealed"
  mark   : ∀ s, (P.onion s).toList.head? ≠ some (Char.ofNat 0xFEFF)

/-- The client of `s` has its identity and the contact of the other side. -/
structure Knows (s : Bool) (c : Client) : Prop where
  identity : c.identity = some (P.keys s)
  contact  : ∃ contact, (c.contacts.bind fun cs => cs.find? fun contact =>
      contact.onionAddress = P.onion !s) = some contact ∧
    contact.publicKeyB64 = some (toBase64 (P.keys !s).publicKey.1) ∧
    contact.sharedSecretB64 = some (toBase64 P.secret)

/-- Nothing has been sent, and no session is stored. -/
structure Silent (p : Pair) : Prop where
  knows    : ∀ s, Knows P s (p.client s)
  sessions : ∀ s, (p.client s).sessions.get? (P.onion !s) = none
  underWay : ∀ s, p.underWay s = []
  received : ∀ s, p.received s = 0
  used     : ∀ s, (P.keys s).publicKey ∈ p.used

end

/-! ## Sessions -/

section

variable {W : Platform} {B : Browser} {P : Parties} {pub : Bytes 32 → Bytes 32} {s : Bool}
  {c c' : Client}

theorem fromBase64_toBase64 (hB : B.Documented) (bytes : List UInt8) :
    fromBase64 B (some (toBase64 bytes)) = .ok bytes := by
  unfold fromBase64
  rw [Option.bind_some, hB.atob]

theorem toBase64_ne {bytes : List UInt8} (h : bytes ≠ []) : toBase64 bytes ≠ "" := by
  intro heq
  have hnil := congrArg String.toList heq
  unfold toBase64 at hnil
  rw [String.toList_ofList] at hnil
  exact h (b64encode_eq_nil_iff.mp hnil)

theorem lessThan_asymm {x y : String} (h : lessThan x y = true) : lessThan y x = false := by
  unfold lessThan at h ⊢
  exact decide_eq_false (List.lt_asymm (of_decide_eq_true h))

/-- Whatever is generated, the client of `s` goes on with this session. -/
def Holds (W : Platform) (B : Browser) (P : Parties) (s : Bool) (c : Client) (seat : Seat) : Prop :=
  ∀ supply missing, sessionWith W B (P.onion !s) (P.keys s) supply missing c = .ok seat.session

theorem holds_of_stored {seat : Seat} (hroot : seat.root ≠ [])
    (h : c.sessions.get? (P.onion !s) = some (serialize seat.session)) : Holds W B P s c seat := by
  intro supply missing
  unfold sessionWith
  rw [h]
  dsimp only
  rw [deserialize_serialize_session hroot]

/-- A new session, in the role that the keys decide. -/
theorem sessionWith_new (hB : B.Documented) (hsecret : P.secret ≠ []) (hknows : Knows P s c)
    (hnone : c.sessions.get? (P.onion !s) = none) (supply : Supply) (missing : String) :
    sessionWith W B (P.onion !s) (P.keys s) supply missing c =
      .ok (if P.leads s then Seat.opening W P.secret (P.keys !s).publicKey supply.init
        else Seat.waiting P.secret (P.keys s)).session := by
  obtain ⟨contact, hfind, hpublic, hshared⟩ := hknows.contact
  have hkey : toBase64 (P.keys !s).publicKey.1 ≠ "" :=
    toBase64_ne (Python.ne_nil_of_length (by decide) _)
  unfold sessionWith
  rw [hnone]
  dsimp only
  rw [hfind]
  simp only [Option.bind_some, hpublic, hshared, Option.filter_some, decide_eq_true hkey,
    decide_eq_true (toBase64_ne hsecret), if_true]
  rw [fromBase64_toBase64 hB, except_ok_bind, fromBase64_toBase64 hB, except_ok_bind]
  unfold Parties.leads
  split_ifs
  · exact initAlice_opening P.secret (P.keys !s).publicKey supply.init
  · rfl

/-- What a message under way carries. -/
structure Carries (W : Platform) (B : Browser) (P : Parties) (s : Bool) (letter : Letter)
    (sent : SendRequest × String) : Prop where
  text     : sent.2.toUTF8.toList.length < 2 ^ 32 ∧ (B.btoa sent.2).isSome
  numbers  : letter.seq ≤ 2 ^ 53 ∧ letter.previous ≤ 2 ^ 53
  envelope : ∃ random nonce self, sent.1.ivB64 = toBase64 nonce.1 ∧
    sent.1.ciphertextB64 = B.envelopeText
      ⟨some (toBase64 (W.gcmEncrypt letter.key nonce (pad sent.2 random))), some (toBase64 self),
        some (toBase64 letter.dh.1), letter.seq, letter.previous⟩
  block    : ∃ block, sent.1.sealedSender = some block ∧
    decryptSealedSender W B block (P.keys !s).privateKey.1 = .ok (P.onion s)

/-- The block that names a sender to the holder of a key. -/
def senderBlock (W : Platform) (text : String) (recipient : Bytes 32) (supply : Supply) :
    SealedSenderBlock :=
  let key := W.hkdf (W.dh supply.sealing.privateKey recipient).1 none sealedSenderInfo 32
  ⟨toBase64 supply.sealing.publicKey.1,
    toBase64 (W.gcmEncrypt key supply.cover text.toUTF8.toList), toBase64 supply.cover.1⟩

theorem hkdfDerive_sealedSender (shared : Bytes 32) :
    hkdfDerive W shared.1 sealedSenderInfo 32 none =
    .ok (W.hkdf shared.1 none sealedSenderInfo 32).1 := by
  rw [hkdfDerive, Rust.derive_ok _ _ _ _ (by decide) (by decide)]

theorem encryptSealedSender_eq (hB : B.Documented) (text : String) (recipient : Bytes 32)
    (supply : Supply) : encryptSealedSender W B text (toBase64 recipient.1) supply =
      .ok (senderBlock W text recipient supply) := by
  have hcover : supply.cover.1.length = 12 := supply.cover.2
  unfold encryptSealedSender
  rw [fromBase64_toBase64 hB, except_ok_bind, x25519Dh_ok, except_ok_bind, hkdfDerive_sealedSender,
    except_ok_bind, aeadEncrypt, array32_eq, except_ok_bind]
  show Except.ok (SealedSenderBlock.mk _ (toBase64 ((supply.cover.1 ++ _).drop 12))
    (toBase64 ((supply.cover.1 ++ _).take 12))) = _
  rw [List.drop_left' hcover, List.take_left' hcover]
  rfl

theorem decryptSealedSender_eq (hW : W.Documented pub) (hB : B.Documented) {text : String}
    (hmark : text.toList.head? ≠ some (Char.ofNat 0xFEFF)) {recipient : KeyPair}
    (hrecipient : Proper pub recipient) {supply : Supply} (hsealing : Proper pub supply.sealing) :
    decryptSealedSender W B (senderBlock W text recipient.publicKey supply)
      recipient.privateKey.1 = .ok text := by
  have hshared : W.dh recipient.privateKey supply.sealing.publicKey =
      W.dh supply.sealing.privateKey recipient.publicKey := by
    rw [hsealing, hrecipient, hW.dh]
  unfold decryptSealedSender senderBlock
  dsimp only
  rw [fromBase64_toBase64 hB, except_ok_bind, fromBase64_toBase64 hB, except_ok_bind,
    fromBase64_toBase64 hB, except_ok_bind, x25519Dh_ok, except_ok_bind, hkdfDerive_sealedSender,
    except_ok_bind, hshared, aeadDecrypt_sealed hW, except_ok_bind, hW.decode text hmark]
  rfl

/-- A side that cannot send yet fails, and keeps the session that it has set up. -/
theorem prepareSend_none {seat : Seat} (hknows : Knows P s c) (text : String) (supply : Supply)
    (hsession : sessionWith W B (P.onion !s) (P.keys s) supply
      "E2EE pairing session not negotiated with this contact." c = .ok seat.session)
    (hnone : seat.sending = none) :
    ∃ e c', prepareSend W B (P.onion !s) text (P.onion s) supply c = .error e c' := by
  unfold prepareSend
  rw [apply_bind, apply_get]
  dsimp only
  rw [hknows.identity]
  dsimp only
  rw [apply_bind, hsession, apply_ofExcept_ok]
  dsimp only
  rw [apply_bind]
  split_ifs
  · rw [apply_modify]
    dsimp only
    rw [encrypt_none hnone]
    exact ⟨_, _, rfl⟩
  · rw [EStateM.apply_pure]
    dsimp only
    rw [encrypt_none hnone]
    exact ⟨_, _, rfl⟩

/-- A side that can send stores its next session, and its message carries the letter. -/
theorem prepareSend_some (hW : W.Documented pub) (hB : B.Documented) (hP : P.Real pub) {seat : Seat}
    (hknows : Knows P s c) {text : String} {supply : Supply} (hsealing : Proper pub supply.sealing)
    (hshort : text.toUTF8.toList.length < 2 ^ 32) (htext : (B.btoa text).isSome)
    (hsession : sessionWith W B (P.onion !s) (P.keys s) supply
      "E2EE pairing session not negotiated with this contact." c = .ok seat.session)
    (hbounds : seat.Bounded) {ck : Bytes 32} (hck : seat.sending = some ck) :
    ∃ m c', prepareSend W B (P.onion !s) text (P.onion s) supply c = .ok m c' ∧
      c'.sessions.get? (P.onion !s) = some (serialize (seat.afterSend W ck).session) ∧
      c'.identity = c.identity ∧ c'.contacts = c.contacts ∧
      Carries W B P s (seat.letter W ck) (m, text) := by
  obtain ⟨contact, hfind, hpublic, hshared⟩ := hknows.contact
  have hkey : toBase64 (P.keys !s).publicKey.1 ≠ "" :=
    toBase64_ne (Python.ne_nil_of_length (by decide) _)
  have hlocal : localEncryptionKey W (P.keys s) =
      .ok (W.hkdf (P.keys s).privateKey.1 none "AnonyMus-Local-Key".toUTF8.toList 32).1 := by
    rw [localEncryptionKey, hkdfDerive, Rust.derive_ok _ _ _ _ (by decide) (by decide)]
  have hself : ∀ key : Bytes 32, aeadEncrypt W key.1 text.toUTF8.toList supply.self =
      .ok (supply.self.1 ++ W.gcmEncrypt key supply.self text.toUTF8.toList) := by
    intro key
    rw [aeadEncrypt, array32_eq]
    rfl
  have hblock : ((contact.publicKeyB64.filter (· ≠ "")).bind fun publicKeyB64 =>
      (encryptSealedSender W B (P.onion s) publicKeyB64 supply).toOption) =
        some (senderBlock W (P.onion s) (P.keys !s).publicKey supply) := by
    rw [hpublic, Option.filter_some, decide_eq_true hkey, if_pos rfl, Option.bind_some,
      encryptSealedSender_eq hB]
    rfl
  -- the session is saved when it is new, and again with its next chain key
  obtain ⟨c₁, hsave, hidentity, hcontacts⟩ : ∃ c₁,
      ((if (c.sessions.get? (P.onion !s)).isNone
          then modify (saveSession (P.onion !s) seat.session) else pure ⟨⟩ : Store PUnit) c) =
        .ok ⟨⟩ c₁ ∧ c₁.identity = c.identity ∧ c₁.contacts = c.contacts := by
    split_ifs
    · exact ⟨_, rfl, rfl, rfl⟩
    · exact ⟨_, rfl, rfl, rfl⟩
  have hrun : prepareSend W B (P.onion !s) text (P.onion s) supply c = .ok
      ⟨P.onion !s, B.envelopeText
          ⟨some (toBase64 (W.gcmEncrypt (nextKeys W ck).1 supply.nonce (pad text supply.random))),
            some (toBase64 (supply.self.1 ++ W.gcmEncrypt
              (W.hkdf (P.keys s).privateKey.1 none "AnonyMus-Local-Key".toUTF8.toList 32)
              supply.self text.toUTF8.toList)),
            some (toBase64 seat.own.publicKey.1), seat.sent, seat.previous⟩,
        toBase64 supply.nonce.1, (getMessages (P.onion !s) c).length,
        some (senderBlock W (P.onion s) (P.keys !s).publicKey supply)⟩
      (saveSession (P.onion !s) (seat.afterSend W ck).session c₁) := by
    unfold prepareSend
    rw [apply_bind, apply_get]
    dsimp only
    rw [hknows.identity]
    dsimp only
    rw [apply_bind, hsession, apply_ofExcept_ok]
    dsimp only
    rw [apply_bind, hsave]
    dsimp only
    rw [encrypt_some hck]
    dsimp only
    rw [apply_bind, apply_modify]
    dsimp only
    rw [apply_bind, hlocal, apply_ofExcept_ok]
    dsimp only
    rw [apply_bind, hself, apply_ofExcept_ok]
    dsimp only
    rw [hfind, Option.bind_some, hblock]
    rfl
  refine ⟨_, _, hrun, ?_, hidentity, hcontacts, ⟨hshort, htext⟩, ⟨hbounds.sent, hbounds.previous⟩,
    ⟨_, _, _, rfl, rfl⟩, ⟨_, rfl, decryptSealedSender_eq hW hB (hP.mark s) (hP.proper !s) hsealing⟩⟩
  exact (Dict.get?_insert ..).trans (if_pos rfl)

/-! ## Calls -/

/-- A text that `btoa` takes does not begin with a mark. -/
theorem mark_of_btoa (hB : B.Documented) {text : String} (h : (B.btoa text).isSome) :
    text.toList.head? ≠ some (Char.ofNat 0xFEFF) := by
  intro hhead
  have hlt := hB.btoa text h _ (List.mem_of_mem_head? hhead)
  exact absurd hlt (by decide)

theorem sendMessage_ok {text : String} {supply : Supply} (response : UiMessage) {m : SendRequest}
    (hprepare : prepareSend W B (P.onion !s) text (P.onion s) supply c = .ok m c')
    (htext : (B.btoa text).isSome) :
    (sendMessage W B (P.onion !s) text (P.onion s) supply (some response) c).value? = some true ∧
    ∃ msgs, (sendMessage W B (P.onion !s) text (P.onion s) supply (some response) c).state =
      setMessages (P.onion !s) msgs c' := by
  obtain ⟨shown, hshown⟩ := Option.isSome_iff_exists.mp htext
  unfold sendMessage
  rw [apply_bind, apply_get]
  dsimp only
  rw [apply_bind, apply_get]
  dsimp only
  rw [hprepare]
  dsimp only
  unfold withSent
  rw [Option.bind_some, hshown]
  exact ⟨rfl, _, rfl⟩

/-- Where `btoa` throws or the session cannot send, the call returns false. -/
theorem sendMessage_failed {text : String} {supply : Supply} {response : UiMessage}
    (h : (B.btoa text).isSome = false ∨ ∃ e c',
      prepareSend W B (P.onion !s) text (P.onion s) supply c = .error e c') :
    (sendMessage W B (P.onion !s) text (P.onion s) supply (some response) c).value? =
      some false := by
  unfold sendMessage
  rw [apply_bind, apply_get]
  dsimp only
  rw [apply_bind, apply_get]
  dsimp only
  rcases hprepare : prepareSend W B (P.onion !s) text (P.onion s) supply c with ⟨m, c'⟩ | ⟨e, c'⟩
  · have hnone : B.btoa text = none := by
      rcases h with hbtoa | ⟨e, c₁, herror⟩
      · rcases hbtoa' : B.btoa text with _ | shown
        · rfl
        · rw [hbtoa'] at hbtoa
          cases hbtoa
      · cases hprepare.symm.trans herror
    dsimp only
    unfold withSent
    rw [Option.bind_some, hnone]
    rfl
  · rfl

/-- The message is read in the conversation of its sender, under whatever name it comes. -/
theorem targetOf_handed (hP : P.Real pub) (hknows : Knows P s c) {letter : Letter}
    {m : SendRequest} {text : String} (hcarries : Carries W B P (!s) letter (m, text))
    (messageId : String) (named : Bool) :
    targetOf W B (handed P s messageId named m).senderOnion c.identity true
        (handed P s messageId named m) =
      some (P.onion !s, handed P s messageId true m) := by
  obtain ⟨block, hblock, hopen⟩ := hcarries.block
  rw [Bool.not_not] at hopen
  unfold targetOf handed
  dsimp only at hblock ⊢
  rw [hblock]
  dsimp only
  rcases named with _ | _
  · rw [if_neg Bool.false_ne_true, if_pos rfl, hknows.identity, Option.bind_some, hopen]
    rfl
  · rw [if_pos rfl, if_neg (hP.named !s)]

theorem decryptMessage_carried (hW : W.Documented pub) (hB : B.Documented) (hP : P.Real pub)
    (hknows : Knows P s c) {letter : Letter} {m : SendRequest} {text : String}
    (hcarries : Carries W B P (!s) letter (m, text)) {supply : Supply} {seat seat' : Seat}
    (hsession : Holds W B P s c seat)
    (hkey : receiveKey W letter.dh.1 letter.seq letter.previous supply.ratchet seat.session =
      .ok letter.key.1 seat'.session) (messageId : String) :
    decryptMessage W B (P.onion !s) true supply (handed P s messageId true m) c =
      .ok (handed P s messageId true m, .ok text) (saveSession (P.onion !s) seat'.session c) := by
  obtain ⟨block, hblock, -⟩ := hcarries.block
  obtain ⟨random, nonce, self, hiv, henvelope⟩ := hcarries.envelope
  have hparse := hB.parse (W.gcmEncrypt letter.key nonce (pad text random)) self letter.dh.1
    letter.seq letter.previous hcarries.numbers.1 hcarries.numbers.2
  -- the sealed sender is the one named
  have hresolve : resolveSealed W B (P.onion !s) (P.keys s) true (handed P s messageId true m) =
      (handed P s messageId true m, P.onion !s) := by
    unfold resolveSealed handed
    dsimp only at hblock ⊢
    rw [hblock]
    dsimp only
    rw [if_pos rfl, if_neg (hP.named !s)]
  -- the key of the letter opens what it has sealed
  have hdecrypt : decrypt W letter.dh.1 nonce.1 (W.gcmEncrypt letter.key nonce (pad text random))
      letter.seq letter.previous supply.ratchet seat.session = .ok text seat'.session := by
    unfold decrypt
    rw [apply_bind, hkey]
    dsimp only
    rw [openText_sealed hW hcarries.text.1 (mark_of_btoa hB hcarries.text.2)]
    rfl
  unfold decryptMessage
  rw [apply_bind, apply_get]
  dsimp only
  rw [hknows.identity, show (handed P s messageId true m).ciphertextB64 = m.ciphertextB64 from rfl,
    henvelope, hparse]
  dsimp only
  rw [hresolve]
  dsimp only
  have hsender : (handed P s messageId true m).senderOnion = P.onion !s := rfl
  rw [if_neg (not_not.mpr hsender)]
  unfold decryptPeer
  rw [apply_bind, apply_get]
  dsimp only
  rw [hsession, show (handed P s messageId true m).ivB64 = toBase64 nonce.1 from hiv,
    fromBase64_toBase64 hB, fromBase64_toBase64 hB, fromBase64_toBase64 hB]
  simp only [apply_bind, apply_ofExcept_ok]
  rw [hdecrypt]
  rfl

/-- A message under way reads as it was written, and the next session is stored. -/
theorem receive_carried (hW : W.Documented pub) (hB : B.Documented) (hP : P.Real pub)
    (hknows : Knows P s c) {letter : Letter} {m : SendRequest} {text : String}
    (hcarries : Carries W B P (!s) letter (m, text)) {supply : Supply} {seat seat' : Seat}
    (hsession : Holds W B P s c seat)
    (hkey : receiveKey W letter.dh.1 letter.seq letter.previous supply.ratchet seat.session =
      .ok letter.key.1 seat'.session) (messageId : String) (named : Bool) :
    readText W B supply (handed P s messageId named m) c = some (.ok text) ∧
    ∃ added, (receiveMessage W B (handed P s messageId named m).senderOnion true supply
        (handed P s messageId named m) c).state =
      appendMessage added (saveSession (P.onion !s) seat'.session c) := by
  have htarget := targetOf_handed hP hknows hcarries messageId named
  have hread := decryptMessage_carried hW hB hP hknows hcarries hsession hkey messageId
  constructor
  · unfold readText
    rw [htarget, Option.bind_some, hread]
    rfl
  · unfold receiveMessage
    rw [apply_bind, apply_get]
    dsimp only
    rw [htarget]
    dsimp only
    rw [apply_bind, hread]
    exact ⟨_, rfl⟩

/-! ## What holds of the conversation -/

/-- The side may send: it has the role that can, or has received a message. -/
def Speaks (P : Parties) (p : Pair) (s : Bool) : Prop := P.leads s = true ∨ 0 < p.received s

/-- The client of `s` stands at this seat. -/
structure Seated (W : Platform) (B : Browser) (P : Parties) (pub : Bytes 32 → Bytes 32) (p : Pair)
    (s : Bool) (seat : Seat) : Prop where
  knows  : Knows P s (p.client s)
  holds  : Holds W B P s (p.client s) seat
  proper : Proper pub seat.own
  used   : seat.own.publicKey ∈ p.used
  heard  : seat.receiving = none ∨ 0 < p.received s

/-- `l` is ahead of the other side, which can send unless it waits for its first message. -/
structure Talking (W : Platform) (B : Browser) (P : Parties) (pub : Bytes 32 → Bytes 32) (p : Pair)
    (l : Bool) (a b : Seat) : Prop where
  ahead   : Seated W B P pub p l a
  behind  : Seated W B P pub p (!l) b
  letters : ∃ toF toL, Ahead W a b toF toL ∧
    List.Forall₂ (Carries W B P l) toF (p.underWay l) ∧
    List.Forall₂ (Carries W B P !l) toL (p.underWay !l)
  speaks  : Speaks P p l
  waits   : b.sending ≠ none ↔ Speaks P p !l

/-- Nothing has been said, or the conversation goes on. -/
def Sound (W : Platform) (B : Browser) (P : Parties) (pub : Bytes 32 → Bytes 32) (p : Pair) :
    Prop :=
  Silent P p ∨ ∃ l a b, Talking W B P pub p l a b

variable {p p' : Pair} {seat seat' : Seat}

theorem Knows.congr (h : Knows P s c) (hidentity : c'.identity = c.identity)
    (hcontacts : c'.contacts = c.contacts) : Knows P s c' :=
  ⟨hidentity.trans h.identity, by rw [hcontacts]; exact h.contact⟩

/-- What the other side does. -/
theorem Seated.other (h : Seated W B P pub p s seat) (hclient : p'.client s = p.client s)
    (hused : ∀ k ∈ p.used, k ∈ p'.used) (hreceived : p'.received s = p.received s) :
    Seated W B P pub p' s seat where
  knows  := by rw [hclient]; exact h.knows
  holds  := by rw [hclient]; exact h.holds
  proper := h.proper
  used   := hused _ h.used
  heard  := by rw [hreceived]; exact h.heard

/-- What a side does that stores its next session. -/
theorem Seated.store (h : Seated W B P pub p s seat) (hclient : p'.client s = c')
    (hidentity : c'.identity = (p.client s).identity)
    (hcontacts : c'.contacts = (p.client s).contacts)
    (hstored : c'.sessions.get? (P.onion !s) = some (serialize seat'.session))
    (hroot : seat'.root ≠ []) (hproper : Proper pub seat'.own)
    (hused : seat'.own.publicKey ∈ p'.used)
    (hheard : seat'.receiving = none ∨ 0 < p'.received s) : Seated W B P pub p' s seat' where
  knows  := by rw [hclient]; exact h.knows.congr hidentity hcontacts
  holds  := by rw [hclient]; exact holds_of_stored hroot hstored
  proper := hproper
  used   := hused
  heard  := hheard

/-- A message is sent from this seat. -/
theorem send_seated (hW : W.Documented pub) (hB : B.Documented) (hP : P.Real pub)
    (hknows : Knows P s (p.client s)) {text : String} {supply : Supply} {response : UiMessage}
    (hpossible : Possible pub (.send s text supply response) p) (htext : (B.btoa text).isSome)
    (hsession : sessionWith W B (P.onion !s) (P.keys s) supply
      "E2EE pairing session not negotiated with this contact." (p.client s) = .ok seat.session)
    (hbounds : seat.Bounded) {ck : Bytes 32} (hck : seat.sending = some ck) :
    Good W B P (.send s text supply response) p ∧
    ∃ m c', act W B P (.send s text supply response) p =
        ⟨Function.update p.client s c', Function.update p.underWay s (p.underWay s ++ [(m, text)]),
          p.received, p.used ++ [supply.init.publicKey]⟩ ∧
      c'.identity = (p.client s).identity ∧ c'.contacts = (p.client s).contacts ∧
      c'.sessions.get? (P.onion !s) = some (serialize (seat.afterSend W ck).session) ∧
      Carries W B P s (seat.letter W ck) (m, text) := by
  obtain ⟨hshort, -, hsealing, -⟩ := hpossible
  obtain ⟨m, c', hprepare, hstored, hidentity, hcontacts, hcarries⟩ :=
    prepareSend_some hW hB hP hknows hsealing hshort htext hsession hbounds hck
  obtain ⟨hvalue, msgs, hstate⟩ := sendMessage_ok response hprepare htext
  refine ⟨hvalue, m, setMessages (P.onion !s) msgs c', ?_, hidentity, hcontacts, hstored, hcarries⟩
  unfold act
  dsimp only
  rw [hprepare, hstate]

theorem Talking.send_ahead (hW : W.Documented pub) (hB : B.Documented) (hP : P.Real pub) {l : Bool}
    {a b : Seat} (h : Talking W B P pub p l a b) {text : String} {supply : Supply}
    {response : UiMessage} (hpossible : Possible pub (.send l text supply response) p)
    (htext : (B.btoa text).isSome) : Good W B P (.send l text supply response) p ∧
      ∃ a', Talking W B P pub (act W B P (.send l text supply response) p) l a' b := by
  obtain ⟨toF, toL, hahead, hcarF, hcarL⟩ := h.letters
  obtain ⟨ck, hck, hahead'⟩ := hahead.send_ahead
  obtain ⟨hgood, m, c', hact, hidentity, hcontacts, hstored, hcarries⟩ :=
    send_seated hW hB hP h.ahead.knows hpossible htext (h.ahead.holds _ _) hahead.bounds.1 hck
  refine ⟨hgood, a.afterSend W ck, ?_⟩
  rw [hact]
  have hne : (!l) ≠ l := Bool.not_not_eq.mpr rfl
  refine ⟨?_, ?_, ⟨_, _, hahead', ?_, ?_⟩, h.speaks, h.waits⟩
  · exact h.ahead.store (Function.update_self ..) hidentity hcontacts hstored hahead.roots.1
      h.ahead.proper (List.mem_append_left _ h.ahead.used) h.ahead.heard
  · exact h.behind.other (Function.update_of_ne hne ..) (fun k hk => List.mem_append_left _ hk) rfl
  · dsimp only
    rw [Function.update_self]
    exact List.rel_append hcarF (.cons hcarries .nil)
  · dsimp only
    rw [Function.update_of_ne hne]
    exact hcarL

theorem Talking.send_behind (hW : W.Documented pub) (hB : B.Documented) (hP : P.Real pub) {l : Bool}
    {a b : Seat} (h : Talking W B P pub p l a b) {text : String} {supply : Supply}
    {response : UiMessage} (hpossible : Possible pub (.send (!l) text supply response) p)
    (htext : (B.btoa text).isSome) (hspeaks : Speaks P p !l) :
    Good W B P (.send (!l) text supply response) p ∧
      ∃ b', Talking W B P pub (act W B P (.send (!l) text supply response) p) l a b' := by
  obtain ⟨toF, toL, hahead, hcarF, hcarL⟩ := h.letters
  obtain ⟨ck, hck⟩ := Option.ne_none_iff_exists'.mp (h.waits.mpr hspeaks)
  obtain ⟨hgood, m, c', hact, hidentity, hcontacts, hstored, hcarries⟩ :=
    send_seated hW hB hP h.behind.knows hpossible htext (h.behind.holds _ _) hahead.bounds.2 hck
  refine ⟨hgood, b.afterSend W ck, ?_⟩
  rw [hact]
  have hne : l ≠ !l := Ne.symm (Bool.not_not_eq.mpr rfl)
  refine ⟨?_, ?_, ⟨_, _, hahead.send_behind hck, ?_, ?_⟩, h.speaks, ?_⟩
  · exact h.ahead.other (Function.update_of_ne hne ..) (fun k hk => List.mem_append_left _ hk) rfl
  · exact h.behind.store (Function.update_self ..) hidentity hcontacts hstored hahead.roots.2
      h.behind.proper (List.mem_append_left _ h.behind.used) h.behind.heard
  · dsimp only
    rw [Function.update_of_ne hne]
    exact hcarF
  · dsimp only
    rw [Function.update_self]
    exact List.rel_append hcarL (.cons hcarries .nil)
  · exact iff_of_true (Option.some_ne_none _) hspeaks

/-- The first message of all. -/
theorem Silent.send (hW : W.Documented pub) (hB : B.Documented) (hP : P.Real pub)
    (h : Silent P p) {text : String} {supply : Supply} {response : UiMessage}
    (hpossible : Possible pub (.send s text supply response) p) (htext : (B.btoa text).isSome)
    (hleads : P.leads s = true) : Good W B P (.send s text supply response) p ∧
      ∃ a b, Talking W B P pub (act W B P (.send s text supply response) p) s a b := by
  have hfollows : P.leads (!s) = false := by
    unfold Parties.leads at hleads ⊢
    rw [Bool.not_not]
    exact lessThan_asymm hleads
  have hdh : W.dh supply.init.privateKey (P.keys !s).publicKey =
      W.dh (P.keys !s).privateKey supply.init.publicKey := by
    rw [hpossible.2.1, hP.proper, hW.dh]
  -- the leader opens a session, which the other side is waiting for
  have hahead := ahead_opening (W := W) hP.secret hdh
  have hsession := sessionWith_new (W := W) hB hP.secret (h.knows s) (h.sessions s) supply
    "E2EE pairing session not negotiated with this contact."
  rw [hleads, if_pos rfl] at hsession
  obtain ⟨ck, hck, hahead'⟩ := hahead.send_ahead
  obtain ⟨hgood, m, c', hact, hidentity, hcontacts, hstored, hcarries⟩ :=
    send_seated hW hB hP (h.knows s) hpossible htext hsession hahead.bounds.1 hck
  refine ⟨hgood, (Seat.opening W P.secret (P.keys !s).publicKey supply.init).afterSend W ck,
    Seat.waiting P.secret (P.keys !s), ?_⟩
  rw [hact]
  have hne : (!s) ≠ s := Bool.not_not_eq.mpr rfl
  refine ⟨⟨?_, ?_, hpossible.2.1, ?_, .inl rfl⟩, ⟨?_, ?_, hP.proper _, ?_, .inl rfl⟩,
    ⟨_, _, hahead', ?_, ?_⟩, .inl hleads, ?_⟩
  · dsimp only
    rw [Function.update_self]
    exact (h.knows s).congr hidentity hcontacts
  · dsimp only
    rw [Function.update_self]
    exact holds_of_stored hahead.roots.1 hstored
  · exact List.mem_append_right _ (List.mem_singleton.mpr rfl)
  · dsimp only
    rw [Function.update_of_ne hne]
    exact h.knows !s
  · dsimp only
    rw [Function.update_of_ne hne]
    intro supply' missing
    have hwaiting :=
      sessionWith_new (W := W) hB hP.secret (h.knows !s) (h.sessions !s) supply' missing
    rwa [hfollows, if_neg Bool.false_ne_true] at hwaiting
  · exact List.mem_append_left _ (h.used !s)
  · dsimp only
    rw [Function.update_self, h.underWay s]
    exact .cons hcarries .nil
  · dsimp only
    rw [Function.update_of_ne hne, h.underWay !s]
    exact .nil
  · -- the other side has neither led nor heard
    refine iff_of_false (not_not.mpr rfl) ?_
    rintro (hled | hheard)
    · exact absurd (hfollows.symm.trans hled) Bool.false_ne_true
    · exact absurd hheard (by dsimp only; rw [h.received]; omega)

/-- A message arrives at this seat. -/
theorem deliver_seated (hW : W.Documented pub) (hB : B.Documented) (hP : P.Real pub)
    (h : Seated W B P pub p s seat) {o : Bool} (ho : o = !s) {letter : Letter} {m : SendRequest}
    {text : String} {rest : List (SendRequest × String)} (hunder : p.underWay o = (m, text) :: rest)
    (hcarries : Carries W B P o letter (m, text)) {supply : Supply}
    (hkey : receiveKey W letter.dh.1 letter.seq letter.previous supply.ratchet seat.session =
      .ok letter.key.1 seat'.session) (messageId : String) (named : Bool) :
    Good W B P (.deliver s messageId named supply) p ∧
    ∃ c', act W B P (.deliver s messageId named supply) p =
        ⟨Function.update p.client s c', Function.update p.underWay o rest,
          Function.update p.received s (p.received s + 1), p.used ++ [supply.ratchet.publicKey]⟩ ∧
      c'.identity = (p.client s).identity ∧ c'.contacts = (p.client s).contacts ∧
      c'.sessions.get? (P.onion !s) = some (serialize seat'.session) := by
  subst ho
  obtain ⟨hread, added, hstate⟩ :=
    receive_carried hW hB hP h.knows hcarries h.holds hkey messageId named
  refine ⟨?_, appendMessage added (saveSession (P.onion !s) seat'.session (p.client s)), ?_, ?_⟩
  · intro m' text' rest' hunder'
    obtain ⟨hm, -⟩ := List.cons.inj (hunder.symm.trans hunder')
    obtain ⟨rfl, rfl⟩ := Prod.mk.inj hm
    exact hread
  · unfold act
    dsimp only
    rw [hunder]
    dsimp only
    rw [hstate]
  · have hstored :
        (saveSession (P.onion !s) seat'.session (p.client s)).sessions.get? (P.onion !s) =
        some (serialize seat'.session) := (Dict.get?_insert ..).trans (if_pos rfl)
    rcases added with _ | ⟨onion, msg⟩
    · exact ⟨rfl, rfl, hstored⟩
    · exact ⟨rfl, rfl, hstored⟩

/-- Where nothing is under way there is nothing to deliver. -/
theorem deliver_nothing (hnil : p.underWay (!s) = []) (messageId : String) (named : Bool)
    (supply : Supply) : Good W B P (.deliver s messageId named supply) p ∧
      act W B P (.deliver s messageId named supply) p = p := by
  constructor
  · intro m text rest hcons
    cases hnil.symm.trans hcons
  · unfold act
    dsimp only
    rw [hnil]

theorem Talking.deliver_ahead (hW : W.Documented pub) (hB : B.Documented) (hP : P.Real pub)
    {l : Bool} {a b : Seat} (h : Talking W B P pub p l a b) (messageId : String) (named : Bool)
    (supply : Supply) : Good W B P (.deliver l messageId named supply) p ∧
      ∃ a', Talking W B P pub (act W B P (.deliver l messageId named supply) p) l a' b := by
  obtain ⟨toF, toL, hahead, hcarF, hcarL⟩ := h.letters
  rcases hunder : p.underWay (!l) with _ | ⟨⟨m, text⟩, rest⟩
  · obtain ⟨hgood, hact⟩ := deliver_nothing (W := W) (B := B) (P := P) hunder messageId named supply
    rw [hact]
    exact ⟨hgood, a, h⟩
  rw [hunder] at hcarL
  rcases hcarL with _ | ⟨hcarries, hrest⟩
  -- the first letter under way is the next the receiver expects
  obtain ⟨ck, hkey, hahead'⟩ := hahead.receive_ahead supply.ratchet
  obtain ⟨hgood, c', hact, hidentity, hcontacts, hstored⟩ :=
    deliver_seated hW hB hP h.ahead rfl hunder hcarries hkey messageId named
  refine ⟨hgood, a.afterReceive W ck, ?_⟩
  rw [hact]
  have hne : (!l) ≠ l := Bool.not_not_eq.mpr rfl
  have hheard : 0 < Function.update p.received l (p.received l + 1) l := by
    rw [Function.update_self]
    omega
  have hother : Function.update p.received l (p.received l + 1) (!l) = p.received !l :=
    Function.update_of_ne hne ..
  refine ⟨?_, ?_, ⟨_, _, hahead', ?_, ?_⟩, .inr ?_, ?_⟩
  · exact h.ahead.store (Function.update_self ..) hidentity hcontacts hstored hahead'.roots.1
      h.ahead.proper (List.mem_append_left _ h.ahead.used) (.inr hheard)
  · exact h.behind.other (Function.update_of_ne hne ..) (fun k hk => List.mem_append_left _ hk)
      hother
  · dsimp only
    rw [Function.update_of_ne (Ne.symm hne)]
    exact hcarF
  · dsimp only
    rw [Function.update_self]
    exact hrest
  · exact hheard
  · unfold Speaks
    dsimp only
    rw [hother]
    exact h.waits

theorem Talking.deliver_behind (hW : W.Documented pub) (hB : B.Documented) (hP : P.Real pub)
    {l : Bool} {a b : Seat} (h : Talking W B P pub p l a b) {messageId : String} {named : Bool}
    {supply : Supply} (hpossible : Possible pub (.deliver (!l) messageId named supply) p) :
    Good W B P (.deliver (!l) messageId named supply) p ∧
      Sound W B P pub (act W B P (.deliver (!l) messageId named supply) p) := by
  obtain ⟨toF, toL, hahead, hcarF, hcarL⟩ := h.letters
  rcases hunder : p.underWay l with _ | ⟨⟨m, text⟩, rest⟩
  · have hnil : p.underWay (!!l) = [] := by rw [Bool.not_not, hunder]
    obtain ⟨hgood, hact⟩ := deliver_nothing (W := W) (B := B) (P := P) hnil messageId named supply
    rw [hact]
    exact ⟨hgood, .inr ⟨l, a, b, h⟩⟩
  rw [hunder] at hcarF
  rcases hcarF with _ | ⟨hcarries, hrest⟩
  have hdh : W.dh supply.ratchet.privateKey a.own.publicKey =
      W.dh a.own.privateKey supply.ratchet.publicKey := by
    rw [hpossible.1, h.ahead.proper, hW.dh]
  have hfresh : supply.ratchet.publicKey ≠ b.own.publicKey := by
    intro heq
    exact hpossible.2 (heq ▸ h.behind.used)
  obtain ⟨b', hkey, hturn⟩ := hahead.receive_behind hdh hfresh
  obtain ⟨hgood, c', hact, hidentity, hcontacts, hstored⟩ :=
    deliver_seated hW hB hP h.behind (Bool.not_not l).symm hunder hcarries hkey messageId named
  refine ⟨hgood, ?_⟩
  rw [hact]
  have hne : l ≠ !l := Ne.symm (Bool.not_not_eq.mpr rfl)
  have hheard : 0 < Function.update p.received (!l) (p.received (!l) + 1) (!l) := by
    rw [Function.update_self]
    omega
  have hother : Function.update p.received (!l) (p.received (!l) + 1) l = p.received l :=
    Function.update_of_ne hne ..
  have hspeaks : P.leads l = true ∨
      0 < Function.update p.received (!l) (p.received (!l) + 1) l := by
    rw [hother]
    exact h.speaks
  rcases hturn with ⟨hown, hsending, hold, hahead'⟩ | ⟨hown, hahead'⟩
  · -- a message of the old chain: who has received before can send
    have hcan : b.sending ≠ none :=
      h.waits.mpr (.inr (h.behind.heard.resolve_left hold))
    refine .inr ⟨l, a, b', ?_, ?_, ⟨_, _, hahead', ?_, ?_⟩, hspeaks, ?_⟩
    · exact h.ahead.other (Function.update_of_ne hne ..)
        (fun k hk => List.mem_append_left _ hk) hother
    · exact h.behind.store (Function.update_self ..) hidentity hcontacts hstored hahead'.roots.2
        (hown ▸ h.behind.proper) (List.mem_append_left _ (hown ▸ h.behind.used)) (.inr hheard)
    · dsimp only
      rw [Function.update_self]
      exact hrest
    · dsimp only
      rw [Function.update_of_ne (Ne.symm hne)]
      exact hcarL
    · exact iff_of_true (hsending ▸ hcan) (.inr hheard)
  · -- the side behind has turned, and the roles change
    obtain ⟨-, -, -, -, -, ck, hck, -⟩ := hahead.under
    refine .inr ⟨!l, b', a, ?_, ?_, ⟨_, _, hahead', ?_, ?_⟩, .inr hheard, ?_⟩
    · exact h.behind.store (Function.update_self ..) hidentity hcontacts hstored hahead'.roots.1
        (hown ▸ hpossible.1) (List.mem_append_right _ (List.mem_singleton.mpr (by rw [hown])))
        (.inr hheard)
    · rw [Bool.not_not]
      exact h.ahead.other (Function.update_of_ne hne ..)
        (fun k hk => List.mem_append_left _ hk) hother
    · dsimp only
      rw [Function.update_of_ne (Ne.symm hne)]
      exact hcarL
    · rw [Bool.not_not]
      dsimp only
      rw [Function.update_self]
      exact hrest
    · rw [Bool.not_not]
      exact iff_of_true (by rw [hck]; exact Option.some_ne_none ck) hspeaks

/-- What is allowed goes well, and the conversation goes on. -/
theorem sound_act (hW : W.Documented pub) (hB : B.Documented) (hP : P.Real pub) {e : Event}
    (h : Sound W B P pub p) (hpossible : Possible pub e p) (hallowed : Allowed B P e p) :
    Good W B P e p ∧ Sound W B P pub (act W B P e p) := by
  rcases e with ⟨s, text, supply, response⟩ | ⟨s, messageId, named, supply⟩
  · obtain ⟨htext, hspeaks⟩ := hallowed
    rcases h with hsilent | ⟨l, a, b, htalking⟩
    · have hleads : P.leads s = true := by
        rcases hspeaks with hleads | hheard
        · exact hleads
        · rw [hsilent.received] at hheard
          omega
      obtain ⟨hgood, a, b, hnext⟩ := hsilent.send hW hB hP hpossible htext hleads
      exact ⟨hgood, .inr ⟨s, a, b, hnext⟩⟩
    · by_cases hs : s = l
      · subst hs
        obtain ⟨hgood, a', hnext⟩ := htalking.send_ahead hW hB hP hpossible htext
        exact ⟨hgood, .inr ⟨s, a', b, hnext⟩⟩
      · obtain rfl := Bool.eq_not_of_ne hs
        obtain ⟨hgood, b', hnext⟩ := htalking.send_behind hW hB hP hpossible htext hspeaks
        exact ⟨hgood, .inr ⟨l, a, b', hnext⟩⟩
  · rcases h with hsilent | ⟨l, a, b, htalking⟩
    · obtain ⟨hgood, hact⟩ := deliver_nothing (W := W) (B := B) (P := P) (hsilent.underWay !s)
        messageId named supply
      rw [hact]
      exact ⟨hgood, .inl hsilent⟩
    · by_cases hs : s = l
      · subst hs
        obtain ⟨hgood, a', hnext⟩ := htalking.deliver_ahead hW hB hP messageId named supply
        exact ⟨hgood, .inr ⟨s, a', b, hnext⟩⟩
      · obtain rfl := Bool.eq_not_of_ne hs
        exact htalking.deliver_behind hW hB hP hpossible

/-- What is not allowed does not go well. -/
theorem allowed_of_good (hB : B.Documented) (hP : P.Real pub) {e : Event}
    (h : Sound W B P pub p) (hgood : Good W B P e p) : Allowed B P e p := by
  rcases e with ⟨s, text, supply, response⟩ | ⟨s, messageId, named, supply⟩
  swap
  · trivial
  have hsent : (sendMessage W B (P.onion !s) text (P.onion s) supply (some response)
      (p.client s)).value? ≠ some false := by
    rw [show _ = some true from hgood]
    decide
  refine ⟨?_, ?_⟩
  · by_contra hnone
    exact hsent (sendMessage_failed (.inl (Bool.eq_false_of_not_eq_true hnone)))
  by_contra hmute
  -- without the role and without a message there is no chain to send in
  obtain ⟨hleads, hheard⟩ := not_or.mp hmute
  have hsession : ∃ seat : Seat, seat.sending = none ∧ Knows P s (p.client s) ∧
      sessionWith W B (P.onion !s) (P.keys s) supply
        "E2EE pairing session not negotiated with this contact." (p.client s) =
          .ok seat.session := by
    rcases h with hsilent | ⟨l, a, b, htalking⟩
    · have hnew := sessionWith_new (W := W) hB hP.secret (hsilent.knows s) (hsilent.sessions s)
        supply "E2EE pairing session not negotiated with this contact."
      rw [if_neg hleads] at hnew
      exact ⟨_, rfl, hsilent.knows s, hnew⟩
    · by_cases hs : s = l
      · subst hs
        exact absurd htalking.speaks hmute
      · obtain rfl := Bool.eq_not_of_ne hs
        exact ⟨b, not_not.mp (mt htalking.waits.mp hmute), htalking.behind.knows,
          htalking.behind.holds _ _⟩
  obtain ⟨seat, hnone, hknows, hseat⟩ := hsession
  exact hsent (sendMessage_failed (.inr (prepareSend_none hknows text supply hseat hnone)))

end

/-- **Who speaks first.** In every run of in-order sends and deliveries between two clients without
a session, each message is sent and reads as it was written exactly when the side that cannot open
a session waits for a message before it sends, and every text is one that `btoa` takes. -/
theorem good_iff_allowed {W : Platform} {B : Browser} {P : Parties} {pub : Bytes 32 → Bytes 32}
    (hW : W.Documented pub) (hB : B.Documented) (hP : P.Real pub) {p : Pair} (hstart : Silent P p)
    (events : List Event) (hpossible : AllMeet (run W B P) (Possible pub) events p) :
    AllMeet (run W B P) (Good W B P) events p ↔ AllMeet (run W B P) (Allowed B P) events p := by
  have hsound : Sound W B P pub p := .inl hstart
  clear hstart
  induction events generalizing p with
  | nil => exact iff_of_true trivial trivial
  | cons e events ih =>
    constructor
    · rintro ⟨hgood, hrest⟩
      have hallowed := allowed_of_good hB hP hsound hgood
      have hnext := (sound_act hW hB hP hsound hpossible.1 hallowed).2
      exact ⟨hallowed, (ih hpossible.2 hnext).mp hrest⟩
    · rintro ⟨hallowed, hrest⟩
      obtain ⟨hgood, hnext⟩ := sound_act hW hB hP hsound hpossible.1 hallowed
      exact ⟨hgood, (ih hpossible.2 hnext).mpr hrest⟩

/-! ## Two parties -/

/-- The pieces between the quotes of an envelope of base64 texts and numbers. -/
def jsonPieces (ciphertext selfCiphertext dhPub : List UInt8) (seq prevChainLen : ℕ) :
    List (List Char) :=
  [['\x7b'], "ciphertext".toList, [':'], b64encode ciphertext, [','], "self_ciphertext".toList,
    [':'], b64encode selfCiphertext, [','], "dh_pub".toList, [':'], b64encode dhPub, [','],
    "seq".toList, [':'] ++ (seq.repr.toList ++ [',']), "prev_chain_len".toList,
    [':'] ++ (prevChainLen.repr.toList ++ ['\x7d'])]

theorem toList_envelopeJson (ciphertext selfCiphertext dhPub : List UInt8) (seq prevChainLen : ℕ) :
    (envelopeJson ⟨some (toBase64 ciphertext), some (toBase64 selfCiphertext),
      some (toBase64 dhPub), seq, prevChainLen⟩).toList =
      ['"'].intercalate (jsonPieces ciphertext selfCiphertext dhPub seq prevChainLen) := by
  have hnumber : ∀ n : ℕ, toString (n : ℤ) = n.repr := fun n => rfl
  unfold envelopeJson jsonPieces toBase64
  simp only [Option.map_some, Option.getD_some, String.toList_append, String.toList_ofList,
    List.append_assoc, List.intercalate, List.intersperse, List.flatten_cons, List.flatten_nil,
    hnumber, List.append_nil]
  rfl

/-- `JSON.parse(atob(text))` of an envelope, whose values stand between the quotes. -/
def parseQuoted (text : String) : Option Envelope := do
  let bytes ← (a2bBase64 0 0 0 [] text.toList).toOption
  match (bytes.map fun b => Char.ofNat b.toNat).splitOn '"' with
  | [_, _, _, ciphertext, _, _, _, selfCiphertext, _, _, _, dhPub, _, _, seq, _, prevChainLen] =>
    return ⟨some (String.ofList ciphertext), some (String.ofList selfCiphertext),
      some (String.ofList dhPub), ← (String.ofList (seq.drop 1).dropLast).toInt?,
      ← (String.ofList (prevChainLen.drop 1).dropLast).toInt?⟩
  | _ => none

/-- Characters that a string literal of JSON and `btoa` take as they are. -/
def plain (piece : List Char) : Bool := piece.all fun c => c ≠ '"' && c.toNat < 256

theorem plain_b64encode (l : List UInt8) : plain (b64encode l) = true := by
  refine List.all_eq_true.mpr fun c hc => ?_
  have hascii := of_decide_eq_true (List.all_eq_true.mp (b64encode_ascii l) c hc)
  have hquote : c ≠ '"' := by
    rintro rfl
    exact quote_notMem_b64encode l hc
  rw [decide_eq_true hquote, Bool.true_and]
  exact decide_eq_true (by omega)

theorem plain_repr (n : ℕ) : plain n.repr.toList = true := by
  refine List.all_eq_true.mpr fun c hc => ?_
  rw [Nat.toList_repr] at hc
  have hdigit : c.isDigit = true := Nat.isDigit_of_mem_toDigits (by decide) (by decide) hc
  have hquote : c ≠ '"' := by
    rintro rfl
    exact absurd hdigit (by decide)
  have hle : c.toNat ≤ 57 := by
    unfold Char.isDigit at hdigit
    exact UInt32.le_iff_toNat_le.mp (of_decide_eq_true (Bool.and_eq_true_iff.mp hdigit).2)
  rw [decide_eq_true hquote, Bool.true_and]
  exact decide_eq_true (by omega)

theorem plain_number (n : ℕ) (last : Char) (hlast : plain [last] = true) :
    plain ([':'] ++ (n.repr.toList ++ [last])) = true := by
  have hrepr := plain_repr n
  unfold plain at hrepr hlast ⊢
  rw [List.all_append, List.all_append, hrepr, hlast]
  rfl

theorem plain_jsonPieces (ciphertext selfCiphertext dhPub : List UInt8) (seq prevChainLen : ℕ) :
    ∀ piece ∈ jsonPieces ciphertext selfCiphertext dhPub seq prevChainLen, plain piece = true := by
  unfold jsonPieces
  simp only [List.forall_mem_cons]
  refine ⟨rfl, ?_, rfl, plain_b64encode _, rfl, ?_, rfl, plain_b64encode _, rfl, ?_, rfl,
    plain_b64encode _, rfl, ?_, plain_number _ _ rfl, ?_, plain_number _ _ rfl,
    List.forall_mem_nil _⟩ <;> decide +kernel

/-- The characters of an intercalation are its separator and those of its parts. -/
theorem mem_intercalate {x c : Char} {parts : List (List Char)} (h : c ∈ [x].intercalate parts) :
    c = x ∨ ∃ part ∈ parts, c ∈ part := by
  induction parts with
  | nil => simp [List.intercalate] at h
  | cons part rest ih =>
    rcases rest with _ | ⟨next, rest⟩
    · exact .inr ⟨part, List.mem_singleton.mpr rfl, by simpa [List.intercalate] using h⟩
    · have hsplit : [x].intercalate (part :: next :: rest) =
          part ++ ([x] ++ [x].intercalate (next :: rest)) := rfl
      rw [hsplit, List.mem_append, List.mem_append, List.mem_singleton] at h
      rcases h with hpart | heq | hrest
      · exact .inr ⟨part, List.mem_cons_self, hpart⟩
      · exact .inl heq
      · exact (ih hrest).imp_right fun ⟨part', hmem, hc⟩ => ⟨part', List.mem_cons_of_mem _ hmem, hc⟩

theorem parseQuoted_envelopeB64 (ciphertext selfCiphertext dhPub : List UInt8)
    (seq prevChainLen : ℕ) :
    parseQuoted (envelopeB64 ⟨some (toBase64 ciphertext), some (toBase64 selfCiphertext),
      some (toBase64 dhPub), seq, prevChainLen⟩) =
      some ⟨some (toBase64 ciphertext), some (toBase64 selfCiphertext), some (toBase64 dhPub), seq,
        prevChainLen⟩ := by
  have hpieces := plain_jsonPieces ciphertext selfCiphertext dhPub seq prevChainLen
  have hjson := toList_envelopeJson ciphertext selfCiphertext dhPub seq prevChainLen
  -- no piece has a quote, so the split gives the pieces back
  have hsplit : (['"'].intercalate (jsonPieces ciphertext selfCiphertext dhPub seq
      prevChainLen)).splitOn '"' = jsonPieces ciphertext selfCiphertext dhPub seq prevChainLen := by
    refine List.splitOn_intercalate '"' (fun piece hpiece hquote => ?_) (by simp [jsonPieces])
    have hplain := List.all_eq_true.mp (hpieces piece hpiece) _ hquote
    exact absurd hplain (by decide)
  have hlatin : ∀ c ∈ ['"'].intercalate (jsonPieces ciphertext selfCiphertext dhPub seq
      prevChainLen), c.toNat < 256 := by
    intro c hc
    rcases mem_intercalate hc with rfl | ⟨piece, hpiece, hmem⟩
    · decide
    · have hplain := List.all_eq_true.mp (hpieces piece hpiece) _ hmem
      exact of_decide_eq_true (Bool.and_eq_true_iff.mp hplain).2
  have hbytes : ∀ text : List Char, (∀ c ∈ text, c.toNat < 256) →
      (text.map fun c => UInt8.ofNat c.toNat).map (fun b => Char.ofNat b.toNat) = text := by
    intro text htext
    rw [List.map_map]
    refine (List.map_congr_left fun c hc => ?_).trans (List.map_id _)
    have hlt := htext c hc
    show Char.ofNat (UInt8.ofNat c.toNat).toNat = c
    rw [UInt8.toNat_ofNat', Nat.mod_eq_of_lt hlt, Char.ofNat_toNat]
  -- a number stands between a colon and one more character
  have hparts : ∀ n : ℕ, ∀ last : Char,
      (String.ofList (([':'] ++ (n.repr.toList ++ [last])).drop 1).dropLast).toInt? =
        some (n : ℤ) := by
    intro n last
    have hdrop : ([':'] ++ (n.repr.toList ++ [last])).drop 1 = n.repr.toList ++ [last] := rfl
    rw [hdrop, List.dropLast_concat, String.ofList_toList]
    exact Nat.toInt?_repr n
  unfold envelopeB64 sampleBtoa
  rw [hjson, if_pos (List.all_eq_true.mpr fun c hc => decide_eq_true (hlatin c hc)),
    Option.getD_some]
  unfold parseQuoted toBase64
  rw [String.toList_ofList, a2bBase64_b64encode]
  rw [List.reverse_nil, List.nil_append]
  show Option.bind (some _) _ = _
  rw [Option.bind_some, hbytes _ hlatin, hsplit]
  unfold jsonPieces
  dsimp only
  rw [hparts, hparts]
  rfl

def pairedPlatform : Platform :=
  { taggedPlatform with textDecode data := (String.fromUTF8? ⟨data.toArray⟩).getD "" }

def pairedBrowser : Browser := { sampleBrowser with parseEnvelope := parseQuoted }

theorem pairedPlatform_documented : pairedPlatform.Documented id where
  dh x y := congrArg (Bytes.replicate 32) (UInt8.add_comm (x.1.headD 0) (y.1.headD 0))
  opens key nonce plaintext := by
    show (if (key.1 ++ plaintext).take 32 = key.1 then
        Except.ok ((key.1 ++ plaintext).drop 32)
      else .error (Rust.AnonymusError.decrypt "decryption failed")) = _
    rw [List.take_left' key.2, List.drop_left' key.2, if_pos rfl]
  tag key nonce plaintext := by
    show 16 ≤ (key.1 ++ plaintext).length
    rw [List.length_append, key.2]
    omega
  decode text _ := by
    have hvalid : text.toUTF8.IsValidUTF8 := text.isValidUTF8
    show (String.fromUTF8? ⟨text.toUTF8.toList.toArray⟩).getD "" = text
    rw [mk_toList, String.fromUTF8?, dif_pos hvalid]
    rfl

theorem pairedBrowser_documented : pairedBrowser.Documented := by
  have hparse : pairedBrowser.parseEnvelope = parseQuoted := rfl
  have htext : pairedBrowser.envelopeText = envelopeB64 := by
    simp only [pairedBrowser, sampleBrowser]
  have hbtoa : pairedBrowser.btoa = sampleBtoa := rfl
  refine ⟨fun ciphertext selfCiphertext dhPub seq prevChainLen _ _ => ?_, fun bytes => ?_,
    fun text hsome => ?_⟩
  · rw [hparse, htext]
    exact parseQuoted_envelopeB64 ciphertext selfCiphertext dhPub seq prevChainLen
  · exact a2bBase64_toBase64 bytes
  · by_contra hwide
    have hnone : sampleBtoa text = none := if_neg fun hall => hwide fun c hc =>
      of_decide_eq_true (List.all_eq_true.mp hall c hc)
    rw [hbtoa, hnone] at hsome
    exact Bool.false_ne_true hsome

def sampleParties : Parties where
  onion s := if s then "alice.onion" else "bob.onion"
  keys s  := if s then sampleKeys 1 else sampleKeys 2
  secret  := [9]

theorem sampleParties_real : sampleParties.Real id where
  proper s := by cases s <;> rfl
  secret   := List.cons_ne_nil 9 []
  named s  := by cases s <;> decide
  mark s   := by cases s <;> decide +kernel

def sampleContact (s : Bool) : UiContact where
  onionAddress    := sampleParties.onion !s
  publicKeyB64    := some (toBase64 (sampleParties.keys !s).publicKey.1)
  sharedSecretB64 := some (toBase64 sampleParties.secret)

/-- Each knows the other, and nothing was sent. -/
def samplePair : Pair where
  client s :=
    { identity   := some (sampleParties.keys s)
      sessions   := Dict.empty
      contacts   := some [sampleContact s]
      messageMap := Dict.empty }
  underWay _ := []
  received _ := 0
  used := [(sampleParties.keys true).publicKey, (sampleParties.keys false).publicKey]

theorem samplePair_silent : Silent sampleParties samplePair where
  knows s := by
    have hfind : [sampleContact s].find? (fun contact =>
        contact.onionAddress = sampleParties.onion !s) = some (sampleContact s) :=
      List.find?_cons_of_pos (decide_eq_true rfl)
    exact ⟨rfl, sampleContact s, hfind, rfl, rfl⟩
  sessions _ := rfl
  underWay _ := rfl
  received _ := rfl
  used s := by cases s <;> decide

/-- The holder of the smaller key sends, and the other side receives. -/
def smallerFirst : List Event :=
  [.send true "hi" sampleSupply greetingMsg, .deliver false "m1" true sampleSupply]

/-- The holder of the greater key sends. -/
def greaterFirst : List Event := [.send false "hi" sampleSupply greetingMsg]

theorem smallerFirst_good :
    AllMeet (run pairedPlatform pairedBrowser sampleParties)
      (Good pairedPlatform pairedBrowser sampleParties) smallerFirst samplePair := by
  have hpossible : AllMeet (run pairedPlatform pairedBrowser sampleParties) (Possible id)
      smallerFirst samplePair :=
    ⟨⟨by decide +kernel, rfl, rfl, by decide⟩, ⟨rfl, by decide⟩, trivial⟩
  have hleads : sampleParties.leads true = true := by decide +kernel
  exact (good_iff_allowed pairedPlatform_documented pairedBrowser_documented sampleParties_real
    samplePair_silent smallerFirst hpossible).mpr
      ⟨⟨by decide +kernel, .inl hleads⟩, trivial, trivial⟩

/-- The holder of the greater key cannot speak first. -/
theorem greaterFirst_fails :
    Silent sampleParties samplePair ∧
    AllMeet (run pairedPlatform pairedBrowser sampleParties) (Possible id) greaterFirst samplePair ∧
    ¬ AllMeet (run pairedPlatform pairedBrowser sampleParties)
        (Good pairedPlatform pairedBrowser sampleParties) greaterFirst samplePair := by
  refine ⟨samplePair_silent, ⟨⟨by decide +kernel, rfl, rfl, by decide⟩, trivial⟩, ?_⟩
  rintro ⟨hgood, -⟩
  have hallowed := allowed_of_good pairedBrowser_documented sampleParties_real
    (.inl samplePair_silent) hgood
  have hfollows : sampleParties.leads false = false := by decide +kernel
  rcases hallowed.2 with hleads | hheard
  · exact Bool.false_ne_true (hfollows.symm.trans hleads)
  · exact absurd hheard (lt_irrefl 0)

end Opening

end AnonyMus.Web
