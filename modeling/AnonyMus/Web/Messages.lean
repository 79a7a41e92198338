import AnonyMus.Web.DoubleRatchet

/-!
# Web client — the messages store

`web/src/stores/messages.ts`: the conversations in memory, and the sessions that
the client keeps in IndexedDB. What the node answers and what the random
generators return are arguments of a call.

* `Browser` — what the store takes from the browser;
* `decryptMessage` — a message of the history or of a live event;
* `loadMessages`, `sendMessage`, `receiveMessage` — the actions;
* `MessagesEvent.run` — runs of the client.
-/

namespace AnonyMus.Web

open EStateM

/-! ## Data -/

structure SealedSenderBlock where
  ephemeralPub : String
  ciphertext   : String
  iv           : String
deriving DecidableEq

structure UiMessage where
  messageId      : String
  senderOnion    : String
  recipientOnion : String
  ciphertextB64  : String
  ivB64          : String
  sequenceNumber : ℤ
  sealedSender   : Option SealedSenderBlock
deriving DecidableEq

/-- The object in `ciphertext_b64`; a missing field is none. -/
structure Envelope where
  ciphertext     : Option String
  selfCiphertext : Option String
  dhPub          : Option String
  seq            : ℤ
  prevChainLen   : ℤ

structure UiContact where
  onionAddress    : String
  publicKeyB64    : Option String
  sharedSecretB64 : Option String

structure Browser where
  /-- `JSON.parse(atob(text))`; none if it throws. -/
  parseEnvelope : String → Option Envelope
  /-- `btoa(JSON.stringify(envelope))`. -/
  envelopeText : Envelope → String
  /-- `atob` as bytes; none if it throws. -/
  atob : String → Option (List UInt8)
  /-- `btoa`, which throws at characters above U+00FF. -/
  btoa : String → Option String

/-- The client: the pages it keeps in IndexedDB, and the signals, which a reload empties. -/
structure Client where
  identity   : Option KeyPair
  sessions   : Dict String SessionJson
  contacts   : Option (List UiContact)
  messageMap : Dict String (List UiMessage)

/-- What the random generators return in a call. -/
structure Supply where
  init    : KeyPair
  ratchet : KeyPair
  random  : (n : ℕ) → Bytes n
  nonce   : Bytes 12
  self    : Bytes 12
  sealing : KeyPair
  cover   : Bytes 12

abbrev Store := EStateM JsError Client

variable (W : Platform) (B : Browser)

def getMessages (onion : String) (c : Client) : List UiMessage := (c.messageMap.get? onion).getD []

def setMessages (onion : String) (msgs : List UiMessage) (c : Client) : Client :=
  { c with messageMap := c.messageMap.insert onion msgs }

/-- `fromBase64(text)` of a field that may be missing; `atob` throws at `undefined`. -/
def fromBase64 (text : Option String) : Except JsError (List UInt8) :=
  match text.bind B.atob with
  | some bytes => .ok bytes
  | none => .error .typeError

/-- `toBase64`. -/
def toBase64 (bytes : List UInt8) : String := String.ofList (b64encode bytes)

theorem a2bBase64_toBase64 (bytes : List UInt8) :
    (a2bBase64 0 0 0 [] (toBase64 bytes).toList).toOption = some bytes := by
  unfold toBase64
  rw [String.toList_ofList, a2bBase64_b64encode]
  rfl

/-! ## Keys -/

/-- `getLocalEncryptionKey`, of the private key of the identity. -/
def localEncryptionKey (identity : KeyPair) : Except JsError (List UInt8) :=
  hkdfDerive W identity.privateKey.1 "AnonyMus-Local-Key".toUTF8.toList 32 none

def sealedSenderInfo : List UInt8 := "AnonyMus-SealedSender-Key".toUTF8.toList

def encryptSealedSender (senderOnion recipientPubKeyB64 : String) (supply : Supply) :
    Except JsError SealedSenderBlock := do
  let recipientPubKey ← fromBase64 B (some recipientPubKeyB64)
  let dh ← x25519Dh W supply.sealing.privateKey.1 recipientPubKey
  let derived ← hkdfDerive W dh sealedSenderInfo 32 none
  let encryptedBytes ← aeadEncrypt W derived senderOnion.toUTF8.toList supply.cover
  return ⟨toBase64 supply.sealing.publicKey.1, toBase64 (encryptedBytes.drop 12),
    toBase64 (encryptedBytes.take 12)⟩

def decryptSealedSender (block : SealedSenderBlock) (myPrivateKey : List UInt8) :
    Except JsError String := do
  let ephemeralPub ← fromBase64 B (some block.ephemeralPub)
  let ciphertext ← fromBase64 B (some block.ciphertext)
  let iv ← fromBase64 B (some block.iv)
  let dh ← x25519Dh W myPrivateKey ephemeralPub
  let derived ← hkdfDerive W dh sealedSenderInfo 32 none
  let decryptedBytes ← aeadDecrypt W derived (iv ++ ciphertext)
  return W.textDecode decryptedBytes

/-- `a < b` of two strings, by their characters. -/
def lessThan (a b : String) : Bool := a.toList < b.toList

/-- The session with a contact, or a new one, in the role that the keys decide. -/
def sessionWith (onion : String) (identity : KeyPair) (supply : Supply) (missing : String)
    (c : Client) : Except JsError DoubleRatchetSession :=
  match c.sessions.get? onion with
  | some stored => .ok (deserialize stored)
  | none => do
    let contact := c.contacts.bind fun cs => cs.find? fun contact => contact.onionAddress = onion
    -- an empty text counts as missing
    match contact.bind (fun x => x.sharedSecretB64.filter (· ≠ "")),
      contact.bind (fun x => x.publicKeyB64.filter (· ≠ "")) with
    | some sharedSecretB64, some publicKeyB64 =>
      let sharedSecret ← fromBase64 B (some sharedSecretB64)
      let peerPub ← fromBase64 B (some publicKeyB64)
      if lessThan (toBase64 identity.publicKey.1) publicKeyB64 then
        initAlice W sharedSecret peerPub supply.init
      else
        return initBob sharedSecret identity.privateKey.1
    | _, _ => throw (.error missing)

def saveSession (onion : String) (session : DoubleRatchetSession) (c : Client) : Client :=
  { c with sessions := c.sessions.insert onion (serialize session) }

/-! ## Decryption -/

/-- The message with the sender that its block names, and the conversation it is in. `resolves`
tells whether the node accepts what the block says. -/
def resolveSealed (onion : String) (identity : KeyPair) (resolves : Bool) (msg : UiMessage) :
    UiMessage × String :=
  match msg.sealedSender with
  | some block =>
    if msg.senderOnion = "sealed" then
      match decryptSealedSender W B block identity.privateKey.1, resolves with
      | .ok decryptedSender, true =>
        ({ msg with senderOnion := decryptedSender }, decryptedSender)
      | _, _ => (msg, onion)
    else (msg, onion)
  | none => (msg, onion)

/-- A message that the user sent: its copy under the local key. -/
def decryptOwn (identity : KeyPair) (envelope : Envelope) : Except JsError String :=
  match envelope.selfCiphertext.filter (· ≠ "") with
  | none => .error (.error "Self ciphertext missing from envelope")
  | some selfCiphertext => do
    let localKey ← localEncryptionKey W identity
    let selfBlob ← fromBase64 B (some selfCiphertext)
    let decryptedBytes ← aeadDecrypt W localKey selfBlob
    return W.textDecode decryptedBytes

/-- A message of the peer: a step of the session. -/
def decryptPeer (onion : String) (identity : KeyPair) (supply : Supply) (msg : UiMessage)
    (envelope : Envelope) : Store String := do
  let session ← ofExcept
    (sessionWith W B onion identity supply "Double Ratchet session not established with peer" (← get))
  let peerDhPub ← ofExcept (fromBase64 B envelope.dhPub)
  let iv ← ofExcept (fromBase64 B (some msg.ivB64))
  let ciphertext ← ofExcept (fromBase64 B envelope.ciphertext)
  match decrypt W peerDhPub iv ciphertext envelope.seq envelope.prevChainLen supply.ratchet session with
  | .ok plaintext session =>
    modify (saveSession onion session)
    return plaintext
  -- the session is private to the call until it is saved
  | .error e _ => throw e

/-- `decryptMessage`: the message with the sender it is now known to have, and its text. -/
def decryptMessage (onion : String) (resolves : Bool) (supply : Supply) (msg : UiMessage) :
    Store (UiMessage × Except JsError String) := do
  let c ← get
  match B.parseEnvelope msg.ciphertextB64, c.identity with
  | none, _ => return (msg, .error .typeError)
  | some _, none => return (msg, .error (.error "Identity key not found"))
  | some envelope, some identity =>
    let (msg, resolvedOnion) := resolveSealed W B onion identity resolves msg
    if msg.senderOnion ≠ resolvedOnion then
      return (msg, decryptOwn W B identity envelope)
    else
      match decryptPeer W B onion identity supply msg envelope c with
      | .ok plaintext c' =>
        set c'
        return (msg, .ok plaintext)
      | .error e _ => return (msg, .error e)

/-! ## Actions -/

def isCallSignal (plaintext : String) : Bool :=
  "__CALL_SIGNAL__:".toList.isPrefixOf plaintext.toList

/-- What the history shows of a message: nothing of a call signal, and the envelope of what is not
decrypted or has characters that `btoa` refuses. -/
def shownInHistory (msg : UiMessage) (plaintext : Except JsError String) : Option UiMessage :=
  match plaintext with
  | .error _ => some msg
  | .ok plaintext =>
    if isCallSignal plaintext then none
    else
      match B.btoa plaintext with
      | some text => some { msg with ciphertextB64 := text }
      | none => some msg

/-- The loop of `loadMessages`: the messages with their senders, and their texts. -/
def decryptAll (onion : String) : List (UiMessage × Bool × Supply) →
    Store (List (UiMessage × Except JsError String))
  | [] => return []
  | (msg, resolves, supply) :: rest => do
    let decrypted ← decryptMessage W B onion resolves supply msg
    return decrypted :: (← decryptAll onion rest)

/-- `loadMessages`; `history` is the page that the node returns, newest first, or none if the request
fails. Returns the texts, for what is proved about them. -/
def loadMessages (onion : String) (history : Option (List (UiMessage × Bool × Supply))) :
    Store (List (UiMessage × Except JsError String)) := do
  match history with
  | some page =>
    let decrypted ← decryptAll W B onion page
    modify (setMessages onion (decrypted.filterMap fun d => shownInHistory B d.1 d.2).reverse)
    return decrypted
  | none =>
    modify (setMessages onion [])
    return []

/-- What `sendMessage` hands to `api.send`. -/
structure SendRequest where
  recipientOnion : String
  ciphertextB64  : String
  ivB64          : String
  sequenceNumber : ℕ
  sealedSender   : Option SealedSenderBlock
deriving DecidableEq

/-- `sendMessage`, up to the request. -/
def prepareSend (onion plaintext myOnion : String) (supply : Supply) : Store SendRequest := do
  let c ← get
  let seqNum := (getMessages onion c).length
  match c.identity with
  | none => throw (.error "Identity key not initialized")
  | some identity =>
    let session ← ofExcept (sessionWith W B onion identity supply
      "E2EE pairing session not negotiated with this contact." c)
    (if (c.sessions.get? onion).isNone then modify (saveSession onion session) else pure ⟨⟩)
    match encrypt W plaintext supply.random supply.nonce session with
    | .error e _ => throw e
    | .ok enc session =>
      modify (saveSession onion session)
      let localKey ← ofExcept (localEncryptionKey W identity)
      let selfEncBytes ← ofExcept (aeadEncrypt W localKey plaintext.toUTF8.toList supply.self)
      let envelope : Envelope :=
        { ciphertext     := some (String.ofList enc.ciphertextB64)
          selfCiphertext := some (toBase64 selfEncBytes)
          dhPub          := some (String.ofList enc.dhPubB64)
          seq            := enc.seq
          prevChainLen   := enc.prevChainLen }
      let contact := c.contacts.bind fun cs => cs.find? fun contact => contact.onionAddress = onion
      let publicKeyB64 := contact.bind fun contact => contact.publicKeyB64.filter (· ≠ "")
      let sealedSender := publicKeyB64.bind fun publicKeyB64 =>
        (encryptSealedSender W B myOnion publicKeyB64 supply).toOption
      return ⟨onion, B.envelopeText envelope, String.ofList enc.ivB64, seqNum, sealedSender⟩

/-- The list with a sent message, as `btoa` writes its text; none if that throws. -/
def withSent (existing : List UiMessage) (msg : UiMessage) (plaintext : String) :
    Option (List UiMessage) :=
  (B.btoa plaintext).map fun text => existing ++ [{ msg with ciphertextB64 := text }]

/-- `sendMessage`; `response` is the message that the node returns, or none if the request fails. -/
def sendMessage (onion plaintext myOnion : String) (supply : Supply) (response : Option UiMessage) :
    Store Bool := do
  let existing := getMessages onion (← get)
  match prepareSend W B onion plaintext myOnion supply (← get) with
  | .error _ c => do
    set c
    return false
  | .ok _ c => do
    set c
    match response.bind fun msg => withSent B existing msg plaintext with
    | some msgs =>
      modify (setMessages onion msgs)
      return true
    | none => return false

/-- What `receiveMessage` adds to a conversation: nothing for a call signal. -/
def shownLive (onion targetOnion : String) (msg : UiMessage) (plaintext : Except JsError String) :
    Option (String × UiMessage) :=
  match plaintext with
  | .error _ => some (onion, msg)
  | .ok plaintext =>
    if isCallSignal plaintext then none
    else
      match B.btoa plaintext with
      | some text => some (targetOnion, { msg with ciphertextB64 := text })
      | none => some (onion, msg)

/-- The conversation that a live message belongs to; none if that cannot be found out. -/
def targetOf (onion : String) (identity : Option KeyPair) (resolves : Bool) (msg : UiMessage) :
    Option (String × UiMessage) :=
  match msg.sealedSender with
  | some block =>
    if onion = "sealed" then
      identity.bind fun identity =>
        match decryptSealedSender W B block identity.privateKey.1, resolves with
        | .ok targetOnion, true => some (targetOnion, { msg with senderOnion := targetOnion })
        | _, _ => none
    else some (onion, msg)
  | none => some (onion, msg)

/-- Add a message to the end of a conversation. -/
def appendMessage (added : Option (String × UiMessage)) (c : Client) : Client :=
  match added with
  | some (onion, msg) => setMessages onion (getMessages onion c ++ [msg]) c
  | none => c

/-- `receiveMessage`; what it does with a call signal is in the calls store. -/
def receiveMessage (onion : String) (resolves : Bool) (supply : Supply) (msg : UiMessage) :
    Store Unit := do
  match targetOf W B onion (← get).identity resolves msg with
  | none => modify (appendMessage (some (onion, msg)))
  | some (targetOnion, msg) =>
    let (msg, plaintext) ← decryptMessage W B targetOnion resolves supply msg
    modify (appendMessage (shownLive B onion targetOnion msg plaintext))

/-! ## Runs -/

inductive MessagesEvent
  | load (onion : String) (history : Option (List (UiMessage × Bool × Supply)))
  | send (onion plaintext myOnion : String) (supply : Supply) (response : Option UiMessage)
  | receive (onion : String) (resolves : Bool) (supply : Supply) (msg : UiMessage)
  /-- `refetchContacts`. -/
  | contacts (list : List UiContact)
  /-- The page is loaded anew: IndexedDB stays, the signals do not. -/
  | reload

namespace MessagesEvent

def run : MessagesEvent → Store Unit
  | load onion history => do
    let _ ← loadMessages W B onion history
  | send onion plaintext myOnion supply response => do
    let _ ← sendMessage W B onion plaintext myOnion supply response
  | receive onion resolves supply msg => receiveMessage W B onion resolves supply msg
  | contacts list => modify fun c => { c with contacts := some list }
  | reload => modify fun c => { c with contacts := none, messageMap := Dict.empty }

end MessagesEvent

end AnonyMus.Web
