import AnonyMus.Lib.Utf8
import AnonyMus.Web.Opening

/-!
# Web client — calls that fail on the way

`sendMessage` of `stores/messages.ts` with every call that may fail: the reads and
writes of IndexedDB, the core that is loaded on demand, and the request, which may be
refused, or reach the node and bring no answer. Between the second `saveSession` and
the end, a failure leaves the ratchet where it is; and `btoa`, which comes last, throws
at characters above U+00FF. What a message shows is read by `renderMessageBody` of
`ChatArea.tsx`, which takes the bytes for UTF-8.

* `takeStep`, `deliver`, `sendFailing` — `sendMessage`, in two parts;
* `sendFailing_calm` — where no call fails it is `sendMessage`;
* `takeStep_eq`, `deliver_eq` — what each part can do;
* `render_btoa_iff` — the chat area reads back texts of ASCII;
* `carries_iff` — when a call is atomic, and when a received message is shown.
-/

namespace AnonyMus.Web

open EStateM
open Binary64 (round64 round64_of_le)

/-! ## What may fail -/

inductive Awaited
  | loadIdentity | loadSession | saveNew | encrypt | save | localKey | selfEncrypt | seal
deriving DecidableEq

/-- How `api.send` ends. -/
inductive Response
  /-- Nothing leaves the page. -/
  | refused
  /-- The node gets the request, and no answer comes. -/
  | lost
  | answered (msg : UiMessage)
deriving DecidableEq

def Response.message? : Response → Option UiMessage
  | answered msg => some msg
  | _ => none

structure Faults where
  rejects  : Awaited → Bool
  response : Response

/-- The client, and what the node has got from it. -/
structure Sender where
  client      : Client
  transmitted : List SendRequest

abbrev Sending := EStateM JsError Sender

def awaiting (f : Faults) (call : Awaited) : Sending Unit :=
  if f.rejects call then throw (.error "rejected") else return ⟨⟩

def onClient (change : Client → Client) : Sending Unit :=
  modify fun s => { s with client := change s.client }

def transmit (request : SendRequest) : Sending Unit :=
  modify fun s => { s with transmitted := s.transmitted ++ [request] }

/-- `api.send`. -/
def apiSend (request : SendRequest) : Response → Sending UiMessage
  | .refused => throw (.error "rejected")
  | .lost => do
    transmit request
    throw (.error "rejected")
  | .answered msg => do
    transmit request
    return msg

/-! ## The call -/

section

variable (W : Platform) (B : Browser) (f : Faults)

/-- `sendMessage` up to the second `saveSession`. -/
def takeStep (onion plaintext : String) (supply : Supply) : Sending (KeyPair × Sealed) := do
  let c := (← get).client
  awaiting f .loadIdentity
  match c.identity with
  | none => throw (.error "Identity key not initialized")
  | some identity =>
    awaiting f .loadSession
    let session ← ofExcept (sessionWith W B onion identity supply
      "E2EE pairing session not negotiated with this contact." c)
    (if (c.sessions.get? onion).isNone then do
      awaiting f .saveNew
      onClient (saveSession onion session)
    else pure ⟨⟩)
    awaiting f .encrypt
    match encrypt W plaintext supply.random supply.nonce session with
    | .error e _ => throw e
    | .ok enc session =>
      awaiting f .save
      onClient (saveSession onion session)
      return (identity, enc)

/-- The request of a message that is encrypted. -/
def requestOf (c : Client) (onion plaintext myOnion : String) (supply : Supply)
    (identity : KeyPair) (enc : Sealed) : Except JsError SendRequest := do
  let localKey ← localEncryptionKey W identity
  let selfEncBytes ← aeadEncrypt W localKey plaintext.toUTF8.toList supply.self
  let envelope : Envelope :=
    { ciphertext     := some (String.ofList enc.ciphertextB64)
      selfCiphertext := some (toBase64 selfEncBytes)
      dhPub          := some (String.ofList enc.dhPubB64)
      seq            := enc.seq
      prevChainLen   := enc.prevChainLen }
  let contact := c.contacts.bind fun cs => cs.find? fun contact => contact.onionAddress = onion
  let publicKeyB64 := contact.bind fun contact => contact.publicKeyB64.filter (· ≠ "")
  -- an exception of `encryptSealedSender` is caught
  let sealedSender := publicKeyB64.bind fun publicKeyB64 =>
    if f.rejects .seal then none else (encryptSealedSender W B myOnion publicKeyB64 supply).toOption
  return ⟨onion, B.envelopeText envelope, String.ofList enc.ivB64, (getMessages onion c).length,
    sealedSender⟩

/-- The rest of `sendMessage`; `c` is the client as it was in the beginning. -/
def deliver (c : Client) (onion plaintext myOnion : String) (supply : Supply)
    (step : KeyPair × Sealed) : Sending Unit := do
  awaiting f .localKey
  awaiting f .selfEncrypt
  let request ← ofExcept (requestOf W B f c onion plaintext myOnion supply step.1 step.2)
  let msg ← apiSend request f.response
  match B.btoa plaintext with
  | none => throw (.error "InvalidCharacterError")
  | some text =>
    onClient (setMessages onion (getMessages onion c ++ [{ msg with ciphertextB64 := text }]))

/-- `sendMessage`: any exception is reported as false. -/
def sendFailing (onion plaintext myOnion : String) (supply : Supply) : Sending Bool := do
  let c := (← get).client
  let attempt : Sending Unit := do
    let step ← takeStep W B f onion plaintext supply
    deliver W B f c onion plaintext myOnion supply step
  match attempt (← get) with
  | .ok _ s => do
    set s
    return true
  | .error _ s => do
    set s
    return false

/-! ## What a message shows -/

/-- The text for what the chat area cannot read. -/
def pending : String := "🔒 Encrypted message — decryption pending"

/-- `renderMessageBody`: bytes that are no UTF-8 are read with replacement characters, and a text
with one counts as encrypted. -/
def renderMessageBody (ciphertextB64 : String) : String :=
  match B.atob ciphertextB64 with
  | none => pending
  | some bytes =>
    match Utf8.read? (Utf8.body bytes) with
    | none => pending
    | some decoded => if Char.ofNat 0xFFFD ∈ decoded.toList then pending else decoded

end

/-! ## The two parts -/

/-- The session with a contact as a call loads it. -/
def sessionOf (onion : String) (c : Client) : Option DoubleRatchetSession :=
  (c.sessions.get? onion).map deserialize

/-- The session after one message. -/
def advance (W : Platform) (s : DoubleRatchetSession) (ck : List UInt8) : DoubleRatchetSession :=
  { s with
    sendingChainKey := some ((W.hkdf (List.replicate 32 0) (some ck) chainInfo 64).1.drop 32)
    seqSend         := round64 (s.seqSend + 1) }

/-- A call on the way to the second `saveSession` fails. -/
def FailsEarly (f : Faults) (c : Client) (s : DoubleRatchetSession) : Prop :=
  f.rejects .loadIdentity = true ∨ c.identity = none ∨ f.rejects .loadSession = true ∨
    f.rejects .encrypt = true ∨ s.dhPublicKey = none ∨ f.rejects .save = true

/-- A call after it fails, before anything leaves the page. -/
def FailsLate (f : Faults) : Prop :=
  f.rejects .localKey = true ∨ f.rejects .selfEncrypt = true ∨ f.response = .refused

section

variable {W : Platform} {B : Browser} {f : Faults} {onion plaintext myOnion : String}
  {supply : Supply} {c : Client} {s : DoubleRatchetSession} {ck : List UInt8} {sender : Sender}

/-- A session with a sending chain encrypts whatever it is given, if it has a key to name. -/
theorem encrypt_eq (hck : s.sendingChainKey = some ck) (random : (n : ℕ) → Bytes n)
    (nonce : Bytes 12) :
    (s.dhPublicKey = none → encrypt W plaintext random nonce s =
      .error .typeError (advance W s ck)) ∧
    (s.dhPublicKey ≠ none → ∃ enc, encrypt W plaintext random nonce s =
      .ok enc (advance W s ck)) := by
  have hkey : ((W.hkdf (List.replicate 32 0) (some ck) chainInfo 64).1.take 32).length = 32 := by
    rw [List.length_take, (W.hkdf _ _ _ _).2]
    rfl
  obtain ⟨blob, hseal⟩ : ∃ blob, aeadEncrypt W ((W.hkdf (List.replicate 32 0) (some ck) chainInfo
      64).1.take 32) (pad plaintext random) nonce = .ok blob := by
    unfold aeadEncrypt array32
    rw [dif_pos hkey]
    exact ⟨_, rfl⟩
  have hstep : chainStep W ck =
      .ok ((W.hkdf (List.replicate 32 0) (some ck) chainInfo 64).1.take 32,
        (W.hkdf (List.replicate 32 0) (some ck) chainInfo 64).1.drop 32) := by
    rw [chainStep, deriveHalves_eq]
  rcases s with ⟨private', dhPublicKey, remote, root, sending, receiving, sent, received, last,
    skipped⟩
  obtain rfl : sending = some ck := hck
  unfold encrypt
  simp only [hstep, hseal, apply_bind, apply_ofExcept_ok, apply_modify, apply_get]
  constructor
  · rintro rfl
    rfl
  · intro hsome
    obtain ⟨dhPublicKey, rfl⟩ := Option.ne_none_iff_exists'.mp hsome
    exact ⟨_, rfl⟩

theorem awaiting_of_rejects {call : Awaited} (h : f.rejects call = true) :
    awaiting f call sender = .error (.error "rejected") sender := by
  unfold awaiting
  rw [if_pos h]
  rfl

theorem awaiting_of_not {call : Awaited} (h : f.rejects call = false) :
    awaiting f call sender = .ok ⟨⟩ sender := by
  unfold awaiting
  rw [h]
  rfl

/-- With a stored session that can send, the first part fails and changes nothing, or stores the
session after one message. -/
theorem takeStep_eq {stored : SessionJson}
    (hstored : sender.client.sessions.get? onion = some stored)
    (hck : (deserialize stored).sendingChainKey = some ck) :
    (FailsEarly f sender.client (deserialize stored) →
      ∃ e, takeStep W B f onion plaintext supply sender = .error e sender) ∧
    (¬ FailsEarly f sender.client (deserialize stored) →
      ∃ step, takeStep W B f onion plaintext supply sender = .ok step { sender with
        client := saveSession onion (advance W (deserialize stored) ck) sender.client }) := by
  have hsession : ∀ identity missing,
      sessionWith W B onion identity supply missing sender.client = .ok (deserialize stored) := by
    intro identity missing
    unfold sessionWith
    rw [hstored]
  obtain ⟨hrefuses, hencrypts⟩ := @encrypt_eq W plaintext _ ck hck supply.random supply.nonce
  unfold takeStep
  simp only [apply_bind, apply_get]
  -- one step after the other: where it fails, nothing has been done
  cases hidentity : f.rejects .loadIdentity with
  | true =>
    rw [awaiting_of_rejects hidentity]
    exact ⟨fun _ => ⟨_, rfl⟩, fun h => absurd (.inl hidentity) h⟩
  | false =>
  rw [awaiting_of_not hidentity]
  cases hnone : sender.client.identity with
  | none => exact ⟨fun _ => ⟨_, rfl⟩, fun h => absurd (.inr (.inl hnone)) h⟩
  | some identity =>
  dsimp only
  rw [apply_bind]
  cases hload : f.rejects .loadSession with
  | true =>
    rw [awaiting_of_rejects hload]
    exact ⟨fun _ => ⟨_, rfl⟩, fun h => absurd (.inr (.inr (.inl hload))) h⟩
  | false =>
  rw [awaiting_of_not hload]
  dsimp only
  rw [apply_bind, hsession, apply_ofExcept_ok]
  dsimp only
  rw [apply_bind, hstored, if_neg (by simp), apply_pure]
  dsimp only
  rw [apply_bind]
  cases hcore : f.rejects .encrypt with
  | true =>
    rw [awaiting_of_rejects hcore]
    exact ⟨fun _ => ⟨_, rfl⟩, fun h => absurd (.inr (.inr (.inr (.inl hcore)))) h⟩
  | false =>
  rw [awaiting_of_not hcore]
  dsimp only
  by_cases hpublic : (deserialize stored).dhPublicKey = none
  · rw [hrefuses hpublic]
    exact ⟨fun _ => ⟨_, rfl⟩, fun h => absurd (.inr (.inr (.inr (.inr (.inl hpublic))))) h⟩
  obtain ⟨enc, henc⟩ := hencrypts hpublic
  rw [henc]
  dsimp only
  rw [apply_bind]
  cases hsave : f.rejects .save with
  | true =>
    rw [awaiting_of_rejects hsave]
    exact ⟨fun _ => ⟨_, rfl⟩, fun h => absurd (.inr (.inr (.inr (.inr (.inr hsave))))) h⟩
  | false =>
  rw [awaiting_of_not hsave]
  refine ⟨fun h => ?_, fun _ => ⟨(identity, enc), rfl⟩⟩
  -- no step has failed
  rcases h with h | h | h | h | h | h <;> simp_all

/-- The second part fails before anything leaves the page, or when the request has gone, or adds the
message to the conversation. -/
theorem deliver_eq (step : KeyPair × Sealed) :
    (FailsLate f →
      ∃ e, deliver W B f c onion plaintext myOnion supply step sender = .error e sender) ∧
    (¬ FailsLate f → ∃ request, deliver W B f c onion plaintext myOnion supply step sender =
      match f.response.message?, B.btoa plaintext with
      | some msg, some text => .ok ⟨⟩
        ⟨setMessages onion (getMessages onion c ++ [{ msg with ciphertextB64 := text }])
          sender.client, sender.transmitted ++ [request]⟩
      | some _, none => .error (.error "InvalidCharacterError")
        { sender with transmitted := sender.transmitted ++ [request] }
      | none, _ => .error (.error "rejected")
        { sender with transmitted := sender.transmitted ++ [request] }) := by
  -- making the request does not fail
  obtain ⟨request, hrequest⟩ : ∃ request,
      requestOf W B f c onion plaintext myOnion supply step.1 step.2 = .ok request := by
    have hlocal : localEncryptionKey W step.1 =
        .ok (W.hkdf step.1.privateKey.1 none "AnonyMus-Local-Key".toUTF8.toList 32).1 := by
      rw [localEncryptionKey, hkdfDerive, Rust.derive_ok _ _ _ _ (by decide) (by decide)]
    unfold requestOf
    rw [hlocal, except_ok_bind, aeadEncrypt, array32_eq]
    exact ⟨_, rfl⟩
  unfold deliver
  simp only [apply_bind]
  cases hlocal : f.rejects .localKey with
  | true =>
    rw [awaiting_of_rejects hlocal]
    exact ⟨fun _ => ⟨_, rfl⟩, fun h => absurd (.inl hlocal) h⟩
  | false =>
  rw [awaiting_of_not hlocal]
  dsimp only
  cases hself : f.rejects .selfEncrypt with
  | true =>
    rw [awaiting_of_rejects hself]
    exact ⟨fun _ => ⟨_, rfl⟩, fun h => absurd (.inr (.inl hself)) h⟩
  | false =>
  rw [awaiting_of_not hself]
  dsimp only
  rw [hrequest, apply_ofExcept_ok]
  dsimp only
  -- both keys are there, and the request leaves the page
  cases hresponse : f.response with
  | refused => exact ⟨fun _ => ⟨_, rfl⟩, fun h => absurd (.inr (.inr hresponse)) h⟩
  | lost =>
    refine ⟨fun h => ?_, fun _ => ⟨request, rfl⟩⟩
    rcases h with h | h | h <;> simp_all
  | answered msg =>
    refine ⟨fun h => ?_, fun _ => ⟨request, ?_⟩⟩
    · rcases h with h | h | h <;> simp_all
    · cases B.btoa plaintext <;> rfl

/-- Without failing calls and with the same request, it is `sendMessage`. -/
theorem sendFailing_calm (hcalm : ∀ call, f.rejects call = false) :
    (sendFailing W B f onion plaintext myOnion supply sender).value? =
        (sendMessage W B onion plaintext myOnion supply f.response.message? sender.client).value? ∧
      (sendFailing W B f onion plaintext myOnion supply sender).state.client =
        (sendMessage W B onion plaintext myOnion supply f.response.message?
          sender.client).state := by
  unfold sendFailing sendMessage prepareSend takeStep deliver requestOf
  simp only [apply_bind, apply_get, awaiting_of_not (hcalm _)]
  cases sender.client.identity with
  | none => exact ⟨rfl, rfl⟩
  | some identity =>
  simp only [apply_bind, awaiting_of_not (hcalm _)]
  rcases sessionWith W B onion identity supply
    "E2EE pairing session not negotiated with this contact." sender.client with e | session
  · exact ⟨rfl, rfl⟩
  simp only [apply_ofExcept_ok]
  -- a new session is saved before it is used
  obtain ⟨saved, hsaved, hsaved'⟩ : ∃ saved : Client,
      (if (sender.client.sessions.get? onion).isNone = true then do
        awaiting f .saveNew
        onClient (saveSession onion session)
      else (pure ⟨⟩ : Sending Unit)) sender = .ok ⟨⟩ { sender with client := saved } ∧
      (if (sender.client.sessions.get? onion).isNone = true then
        modify (saveSession onion session) else (pure ⟨⟩ : Store PUnit)) sender.client =
        .ok ⟨⟩ saved := by
    split_ifs
    · refine ⟨saveSession onion session sender.client, ?_, rfl⟩
      rw [apply_bind, awaiting_of_not (hcalm _)]
      rfl
    · exact ⟨sender.client, rfl, rfl⟩
  rw [hsaved, hsaved']
  dsimp only
  cases encrypt W plaintext supply.random supply.nonce session with
  | error e session => exact ⟨rfl, rfl⟩
  | ok enc session =>
  simp only [apply_bind, awaiting_of_not (hcalm _), onClient, apply_modify, apply_pure, hcalm]
  rcases localEncryptionKey W identity with e | localKey
  · exact ⟨rfl, rfl⟩
  simp only [except_ok_bind, apply_ofExcept_ok]
  rcases aeadEncrypt W localKey plaintext.toUTF8.toList supply.self with e | selfEncBytes
  · exact ⟨rfl, rfl⟩
  simp only [except_ok_bind, apply_ofExcept_ok]
  cases f.response with
  | refused => exact ⟨rfl, rfl⟩
  | lost => exact ⟨rfl, rfl⟩
  | answered msg =>
    unfold withSent
    simp only [Response.message?, Option.bind_some]
    cases B.btoa plaintext <;> exact ⟨rfl, rfl⟩

end

/-! ## Texts in the chat area -/

/-- What is documented of `atob` and `btoa`: bytes come back, and characters up to U+00FF are
written as bytes. -/
structure Browser.Base64 (B : Browser) : Prop where
  atob : ∀ bytes, B.atob (toBase64 bytes) = some bytes
  btoa : ∀ text, B.btoa text = if text.toList.all (·.toNat < 256) then
    some (toBase64 (text.toList.map fun c => UInt8.ofNat c.toNat)) else none

/-- A text of characters that are one byte in UTF-8. -/
def IsAscii (text : String) : Prop := ∀ c ∈ text.toList, c.toNat < 128

section

variable {B : Browser} {text stored : String}

theorem Browser.Base64.btoa_eq_some (hB : B.Base64) (hstored : B.btoa text = some stored) :
    (∀ c ∈ text.toList, c.toNat < 256) ∧
      stored = toBase64 (text.toList.map fun c => UInt8.ofNat c.toNat) := by
  rw [hB.btoa] at hstored
  split_ifs at hstored with hall
  refine ⟨fun c hc => ?_, (Option.some.inj hstored).symm⟩
  exact of_decide_eq_true (List.all_eq_true.mp hall c hc)

theorem Browser.Base64.btoa_of_ascii (hB : B.Base64) (hascii : IsAscii text) :
    B.btoa text = some (toBase64 (text.toList.map fun c => UInt8.ofNat c.toNat)) := by
  rw [hB.btoa, if_pos]
  refine List.all_eq_true.mpr fun c hc => decide_eq_true ?_
  exact (hascii c hc).trans (by decide)

/-- A text of ASCII does not begin with a byte order mark. -/
theorem IsAscii.unmarked (hascii : IsAscii text) : text.toList.head? ≠ some Utf8.mark := by
  intro hhead
  exact absurd (hascii _ (List.mem_of_mem_head? hhead)) (by decide)

/-- No text that `btoa` takes is the one for what cannot be read. -/
theorem pending_not_stored (hB : B.Base64) : B.btoa pending = none := by
  rw [hB.btoa]
  decide +kernel

/-- The chat area reads a stored text back exactly if it is ASCII. -/
theorem render_btoa_iff (hB : B.Base64) (hstored : B.btoa text = some stored) :
    renderMessageBody B stored = text ↔ IsAscii text := by
  obtain ⟨-, hbytes⟩ := hB.btoa_eq_some hstored
  unfold renderMessageBody
  rw [hbytes, hB.atob]
  dsimp only
  constructor
  · intro hread
    have hnotPending : text ≠ pending := by
      rintro rfl
      rw [pending_not_stored hB] at hstored
      cases hstored
    rcases hdecoded : Utf8.read? (Utf8.body (text.toList.map fun c => UInt8.ofNat c.toNat))
      with _ | decoded
    · rw [hdecoded] at hread
      exact absurd hread.symm hnotPending
    rw [hdecoded] at hread
    dsimp only at hread
    split_ifs at hread
    · exact absurd hread.symm hnotPending
    -- the form of the text is not longer than its characters
    obtain rfl := hread
    refine Utf8.ascii_of_length_le ?_
    rw [Utf8.toUTF8_of_read? hdecoded]
    exact (Utf8.length_body_le _).trans (by rw [List.length_map])
  · intro hascii
    rw [← Utf8.toUTF8_of_ascii hascii, Utf8.body_of_unmarked hascii.unmarked, Utf8.read?_toUTF8]
    refine if_neg fun hmem => ?_
    exact absurd (hascii _ hmem) (by decide)

end

/-! ## Nothing is lost -/

theorem getMessages_setMessages (onion : String) (msgs : List UiMessage) (c : Client) :
    getMessages onion (setMessages onion msgs c) = msgs := by
  unfold getMessages setMessages
  dsimp only
  rw [Dict.get?_insert, if_pos rfl]
  rfl

theorem sessionOf_saveSession (onion : String) (s : DoubleRatchetSession) (c : Client) :
    sessionOf onion (saveSession onion s c) = some (deserialize (serialize s)) := by
  unfold sessionOf saveSession
  dsimp only
  rw [Dict.get?_insert, if_pos rfl]
  rfl

/-- One message more leaves the session as it is. -/
def Stuck (W : Platform) (s : DoubleRatchetSession) (ck : List UInt8) : Prop :=
  deserialize (serialize (advance W s ck)) = s

/-- Only where doubles cannot count on. -/
theorem Stuck.le {W : Platform} {s : DoubleRatchetSession} {ck : List UInt8}
    (hstuck : Stuck W s ck) : 2 ^ 53 ≤ s.seqSend := by
  have hnumber : round64 (s.seqSend + 1) = s.seqSend :=
    congrArg DoubleRatchetSession.seqSend hstuck
  by_contra hlt
  rw [round64_of_le (by omega)] at hnumber
  omega

/-- The conversation has the message, decrypted, and the chat area reads the text back. -/
def Shows (B : Browser) (onion text : String) (before after : Client) : Prop :=
  ∃ (msg : UiMessage) (stored : String), B.btoa text = some stored ∧
    renderMessageBody B stored = text ∧
    getMessages onion after = getMessages onion before ++ [{ msg with ciphertextB64 := stored }]

/-- A call reports a failure, and nothing has left the page and the session is as before; or it
succeeds, has sent one request, and shows the text. -/
def SendAtomic (W : Platform) (B : Browser) (f : Faults) (onion plaintext myOnion : String)
    (supply : Supply) (before : Sender) : Prop :=
  ∃ done after, sendFailing W B f onion plaintext myOnion supply before = .ok done after ∧
    (done = false ∧ after.transmitted = before.transmitted ∧
        sessionOf onion after.client = sessionOf onion before.client ∨
      done = true ∧ (∃ request, after.transmitted = before.transmitted ++ [request]) ∧
        Shows B onion plaintext before.client after.client)

section

variable {W : Platform} {B : Browser} {f : Faults} {onion plaintext myOnion : String}
  {supply : Supply} {ck : List UInt8} {sender : Sender} {stored : SessionJson}

/-- A call that fails late has moved the session on, and one that is not answered, or whose text is
not ASCII, has sent what is not shown. -/
theorem sendAtomic_iff (hB : B.Base64) (hstored : sender.client.sessions.get? onion = some stored)
    (hck : (deserialize stored).sendingChainKey = some ck) :
    SendAtomic W B f onion plaintext myOnion supply sender ↔
      FailsEarly f sender.client (deserialize stored) ∨
      FailsLate f ∧ Stuck W (deserialize stored) ck ∨
      ¬ FailsLate f ∧ f.response.message?.isSome ∧ IsAscii plaintext := by
  obtain ⟨hearly, hsaved⟩ := @takeStep_eq W B f onion plaintext supply ck sender stored hstored hck
  have hsession : sessionOf onion sender.client = some (deserialize stored) := by
    unfold sessionOf
    rw [hstored]
    rfl
  have happend : ∀ request : SendRequest,
      sender.transmitted ++ [request] ≠ sender.transmitted := by
    intro request heq
    simpa using congrArg List.length heq
  unfold SendAtomic sendFailing
  simp only [apply_bind, apply_get]
  by_cases hfails : FailsEarly f sender.client (deserialize stored)
  · obtain ⟨e, herror⟩ := hearly hfails
    rw [herror]
    exact iff_of_true ⟨false, sender, rfl, .inl ⟨rfl, rfl, rfl⟩⟩ (.inl hfails)
  obtain ⟨step, hstep⟩ := hsaved hfails
  rw [hstep]
  dsimp only
  obtain ⟨hlate, hgone⟩ := @deliver_eq W B f onion plaintext myOnion supply sender.client
    { sender with client := saveSession onion (advance W (deserialize stored) ck) sender.client }
    step
  by_cases hfailsLate : FailsLate f
  · -- the session is stored, and that is all
    obtain ⟨e, herror⟩ := hlate hfailsLate
    rw [herror]
    constructor
    · rintro ⟨done, after, hresult, ⟨-, -, hunmoved⟩ | ⟨rfl, -, -⟩⟩
      · cases hresult
        rw [sessionOf_saveSession, hsession] at hunmoved
        exact .inr (.inl ⟨hfailsLate, Option.some.inj hunmoved⟩)
      · cases hresult
    · rintro (h | ⟨-, hstuck⟩ | ⟨h, -⟩)
      · exact absurd h hfails
      · refine ⟨false, _, rfl, .inl ⟨rfl, rfl, ?_⟩⟩
        rw [sessionOf_saveSession, hsession]
        exact congrArg some hstuck
      · exact absurd hfailsLate h
  obtain ⟨request, hrequest⟩ := hgone hfailsLate
  rw [hrequest]
  -- the request has left the page, and only a text that is shown will do
  cases hmessage : f.response.message? with
  | none =>
    refine iff_of_false ?_ ?_
    · rintro ⟨done, after, hresult, ⟨-, hkept, -⟩ | ⟨rfl, -, -⟩⟩
      · cases hresult
        exact happend request hkept
      · cases hresult
    · rintro (h | ⟨h, -⟩ | ⟨-, h, -⟩)
      · exact hfails h
      · exact hfailsLate h
      · cases h
  | some msg =>
    cases hbtoa : B.btoa plaintext with
    | none =>
      refine iff_of_false ?_ ?_
      · rintro ⟨done, after, hresult, ⟨-, hkept, -⟩ | ⟨rfl, -, -⟩⟩
        · cases hresult
          exact happend request hkept
        · cases hresult
      · rintro (h | ⟨h, -⟩ | ⟨-, -, hascii⟩)
        · exact hfails h
        · exact hfailsLate h
        · rw [hB.btoa_of_ascii hascii] at hbtoa
          cases hbtoa
    | some text =>
      constructor
      · rintro ⟨done, after, hresult, ⟨rfl, -, -⟩ | ⟨-, -, msg', text', htext, hshown, -⟩⟩
        · cases hresult
        · exact .inr (.inr ⟨hfailsLate, rfl, (render_btoa_iff hB htext).mp hshown⟩)
      · rintro (h | ⟨h, -⟩ | ⟨-, -, hascii⟩)
        · exact absurd h hfails
        · exact absurd h hfailsLate
        · refine ⟨true, _, rfl, .inr ⟨rfl, ⟨request, rfl⟩, msg, text, hbtoa,
            (render_btoa_iff hB hbtoa).mpr hascii, ?_⟩⟩
          exact getMessages_setMessages _ _ _

variable {onion target text : String} {resolves : Bool} {msg opened shown : UiMessage}
  {c c' : Client} {malformed : List UInt8 → String}

/-- An accepted message is shown in the conversation that it belongs to exactly if its text is ASCII
and no call signal. -/
theorem receive_shows_iff (hB : B.Base64) (hdecode : W.textDecode = Utf8.textDecode malformed)
    (htarget : targetOf W B onion c.identity resolves msg = some (target, opened))
    (hopens : decryptMessage W B target resolves supply opened c =
      .ok (shown, .ok (W.textDecode text.toUTF8.toList)) c') :
    Shows B target text c (receiveMessage W B onion resolves supply msg c).state ↔
      IsAscii text ∧ isCallSignal text = false := by
  have hmap : getMessages target c' = getMessages target c := by
    obtain ⟨_, _, c₁, hrun, hwithin, -⟩ := decryptMessage_spec (W := W) (B := B) resolves supply
      opened (WithinLoad.refl : WithinLoad target c c)
    cases hrun.symm.trans hopens
    unfold getMessages
    rw [hwithin.messageMap]
  have hstate : (receiveMessage W B onion resolves supply msg c).state =
      appendMessage (shownLive B onion target shown
        (.ok (W.textDecode text.toUTF8.toList))) c' := by
    unfold receiveMessage
    rw [apply_bind, apply_get]
    dsimp only
    rw [htarget]
    dsimp only
    rw [apply_bind, hopens]
    rfl
  rw [hstate, hdecode]
  constructor
  · rintro ⟨msg', stored, hstored, hshown, hadded⟩
    have hascii := (render_btoa_iff hB hstored).mp hshown
    refine ⟨hascii, ?_⟩
    by_contra hsignal
    -- nothing is added for a call signal
    rw [Utf8.textDecode_of_unmarked hascii.unmarked, shownLive,
      if_pos (Bool.eq_true_of_not_eq_false hsignal), appendMessage, hmap] at hadded
    simpa using congrArg List.length hadded
  · rintro ⟨hascii, hsignal⟩
    have hstored := hB.btoa_of_ascii hascii
    refine ⟨shown, _, hstored, (render_btoa_iff hB hstored).mpr hascii, ?_⟩
    rw [Utf8.textDecode_of_unmarked hascii.unmarked, shownLive, hsignal,
      if_neg Bool.false_ne_true, hstored]
    unfold appendMessage
    rw [getMessages_setMessages, hmap]

end

/-- What a session with a sending chain does with any text: the call is atomic if it fails before
the session is saved, or if all goes well and the text is ASCII; and an accepted message is shown if
its text is ASCII and no call signal. -/
theorem carries_iff {W : Platform} {B : Browser} {malformed : List UInt8 → String} (hB : B.Base64)
    (hdecode : W.textDecode = Utf8.textDecode malformed) :
    (∀ (f : Faults) (onion plaintext myOnion : String) (supply : Supply) (sender : Sender)
        (stored : SessionJson) (ck : List UInt8),
      sender.client.sessions.get? onion = some stored →
      (deserialize stored).sendingChainKey = some ck →
      (SendAtomic W B f onion plaintext myOnion supply sender ↔
        FailsEarly f sender.client (deserialize stored) ∨
        FailsLate f ∧ Stuck W (deserialize stored) ck ∨
        ¬ FailsLate f ∧ f.response.message?.isSome ∧ IsAscii plaintext)) ∧
    ∀ (onion target text : String) (resolves : Bool) (supply : Supply)
        (msg opened shown : UiMessage) (c c' : Client),
      targetOf W B onion c.identity resolves msg = some (target, opened) →
      decryptMessage W B target resolves supply opened c =
        .ok (shown, .ok (W.textDecode text.toUTF8.toList)) c' →
      (Shows B target text c (receiveMessage W B onion resolves supply msg c).state ↔
        IsAscii text ∧ isCallSignal text = false) := by
  constructor
  · intro f onion plaintext myOnion supply sender stored ck hstored hck
    exact sendAtomic_iff hB hstored hck
  · intro onion target text resolves supply msg opened shown c c' htarget hopens
    exact receive_shows_iff hB hdecode htarget hopens

/-! ## One character -/

/-- The platform of the greeting, with the decoder of a browser. -/
def browserPlatform : Platform := { taggedPlatform with textDecode := Utf8.textDecode fun _ => "" }

/-- A session that can send. -/
def speakingSession : DoubleRatchetSession :=
  { beforeGreeting with
    dhPublicKey     := some (sampleKeys 2).publicKey.1
    sendingChainKey := some (List.replicate 32 7) }

def speaker : Sender := ⟨saveSession "peer.onion" speakingSession sampleClient, []⟩

/-- No call fails. -/
def calm : Faults := ⟨fun _ => false, .answered greetingMsg⟩

theorem sampleBrowser_base64 : sampleBrowser.Base64 where
  atob bytes := a2bBase64_toBase64 bytes
  btoa _ := rfl

theorem speaker_stored :
    speaker.client.sessions.get? "peer.onion" = some (serialize speakingSession) := by
  unfold speaker saveSession
  dsimp only
  rw [Dict.get?_insert, if_pos rfl]

theorem speakingSession_ck :
    (deserialize (serialize speakingSession)).sendingChainKey = some (List.replicate 32 7) := by
  decide +kernel

/-- A greeting goes out and is read. -/
theorem carries_iff_hello :
    (SendAtomic browserPlatform sampleBrowser calm "peer.onion" "hello" "me.onion" sampleSupply
        speaker ↔
      FailsEarly calm speaker.client (deserialize (serialize speakingSession)) ∨
      FailsLate calm ∧ Stuck browserPlatform (deserialize (serialize speakingSession))
        (List.replicate 32 7) ∨
      ¬ FailsLate calm ∧ calm.response.message?.isSome ∧ IsAscii "hello") ∧
    (Shows sampleBrowser "peer.onion" "hello" sampleClient
        (receiveMessage browserPlatform sampleBrowser "peer.onion" true sampleSupply greetingMsg
          sampleClient).state ↔
      IsAscii "hello" ∧ isCallSignal "hello" = false) := by
  have hopen : (decrypt browserPlatform (sampleKeys 3).publicKey.1 (Bytes.replicate 12 0).1
      greetingCiphertext greetingEnvelope.seq greetingEnvelope.prevChainLen sampleSupply.ratchet
      beforeGreeting).value? = some "hello" := by decide +kernel
  have hread := decryptMessage_fromPeer (W := browserPlatform) (c := sampleClient) fromPeer_greeting
    rfl (sample_sessionWith "Double Ratchet session not established with peer")
  have hdecode : browserPlatform.textDecode = Utf8.textDecode fun _ => "" := rfl
  have hhello : browserPlatform.textDecode "hello".toUTF8.toList = "hello" := by decide +kernel
  obtain ⟨c', hread⟩ : ∃ c', decryptMessage browserPlatform sampleBrowser "peer.onion" true
      sampleSupply greetingMsg sampleClient =
        .ok (greetingMsg, .ok (browserPlatform.textDecode "hello".toUTF8.toList)) c' := by
    rw [hread, hhello]
    rcases hrun : decrypt browserPlatform (sampleKeys 3).publicKey.1 (Bytes.replicate 12 0).1
      greetingCiphertext greetingEnvelope.seq greetingEnvelope.prevChainLen sampleSupply.ratchet
      beforeGreeting with ⟨plaintext, s⟩ | ⟨e, s⟩
    · rw [hrun] at hopen
      obtain rfl := Option.some.inj hopen
      exact ⟨_, rfl⟩
    · rw [hrun] at hopen
      cases hopen
  obtain ⟨hsend, hreceive⟩ := carries_iff sampleBrowser_base64 hdecode
  exact ⟨hsend _ _ _ _ _ _ _ _ speaker_stored speakingSession_ck,
    hreceive _ _ _ _ _ _ _ _ _ _ rfl hread⟩

/-- One character outside Latin-1: the request has gone, and the call reports a failure. -/
theorem kana_is_lost :
    ¬ SendAtomic browserPlatform sampleBrowser calm "peer.onion" "あ" "me.onion" sampleSupply
      speaker := by
  rw [sendAtomic_iff sampleBrowser_base64 speaker_stored speakingSession_ck]
  rintro (h | ⟨h, -⟩ | ⟨-, -, hascii⟩)
  · rcases h with h | h | h | h | h | h
    · cases h
    · cases h
    · cases h
    · cases h
    · revert h
      decide +kernel
    · cases h
  · rcases h with h | h | h <;> cases h
  · exact absurd (hascii 'あ' (by decide +kernel)) (by decide)

end AnonyMus.Web
