import AnonyMus.Lib.EState
import Mathlib.Data.Int.Notation
import Mathlib.Data.Nat.Notation
import Mathlib.Logic.Function.Basic

/-!
# Android client — the chat manager

`data/ChatManager.kt`: the session of a client with its one peer, its
conversations, and the handlers of the socket and of the user interface. What
`JSONObject` makes of the texts on the wire is read off already: a payload, and
the content of a decrypted message, are inductive types.

A handler is an `EStateM` action, as it may throw halfway. What it reads of the
clock, and the random bytes of the cipher, are streams in the state; what it
posts to the main thread and emits on the socket are lists in the state.

* `CryptoProvider` — the interface of that name;
* `Payload`, `Content` — what arrives, and what is in it;
* `processPayload` — the handler of `queue_payload`;
* `acceptInvite`, `sendPrivateMessage`, … — the functions of the user interface;
* `Input`, `handle` — all that can happen to a client.
-/

namespace AnonyMus.Android.Chat

/-! ## Payloads -/

/-- `"A"` and `"B"`. -/
inductive Role
  | a
  | b
deriving DecidableEq

/-- `Base64` are the texts that the cipher makes. -/
structure EncryptedPayload (Base64 : Type) where
  iv         : Base64
  ciphertext : Base64
deriving DecidableEq

structure FileDescr where
  fileName    : String
  fileSize    : ℤ
  masterKey   : String
  chunks      : List String
  senderOnion : Option String
deriving DecidableEq

/-- The actions of a message of type `control`. -/
inductive Control
  | static
  | heartbeat
  | obliviate
  | timerSet (durationSeconds : ℤ)
  | timerAck (durationSeconds : ℤ)
  | other
deriving DecidableEq

/-- The object inside a message, by its `type`. -/
inductive Content
  | control (action : Control)
  | text (content : String) (timestamp : Option ℤ)
  | groupInvite (name : String)
  | groupMessage (senderNickname content : String)
  | edit (targetTimestamp : ℤ) (content : String)
  | delete (targetTimestamp : ℤ)
  | receipt (targetTimestamp : ℤ) (state : String)
  | live (content : String)
  | reaction (targetMsgId : ℤ) (emoji : String)
  | fileDescr (descr : FileDescr) (timestamp : Option ℤ)
  | other
deriving DecidableEq

/-- The object that a queue carries, by its `type`; `broken` is a text or a batch entry that is no
object. -/
inductive Payload (Base64 : Type)
  | handshake (replyQueue : Option String) (publicKey : String)
  | queueUpdate (newQueue : String)
  | message (iv ciphertext : Base64) (ephemeral : Bool)
  | batch (events : List (Payload Base64))
  | other
  | broken

/-- What the client sends to the relay. A `null` is left out of the object. -/
inductive Emit (Base64 : Type)
  | createQueue
  | registerPeer (myQueue : Option String) (peerQueue : Option String)
  | pushQueue (queueId : String) (payload : Payload Base64)

/-! ## The crypto provider -/

structure SessionKeys where
  writeKey : List UInt8
  readKey  : List UInt8

structure KeyPair where
  priv : List UInt8
  pub  : List UInt8
deriving DecidableEq

/-- The interface `CryptoProvider`, whose functions may throw, and `JSONObject` on the content of a
message: `Text` are the texts of JSON objects. -/
structure CryptoProvider (Text Base64 : Type) where
  exportPublicKey     : List UInt8 → String
  importPublicKey     : String → Option (List UInt8)
  deriveSessionKeys   : (myPrivateKey theirPublicKey : List UInt8) →
    (myPubKeyBase64 theirPubKeyBase64 : String) → Option SessionKeys
  computeSafetyNumber : (myPubKeyBase64 theirPubKeyBase64 : String) → String
  encryptMessage      : (keyBytes : List UInt8) → (plaintext : Text) → Role → (seqNum : ℕ) →
    (sessionId : Option String) → (nonce : List UInt8) → Option (EncryptedPayload Base64)
  decryptMessage      : (keyBytes : List UInt8) → (ivBase64 ciphertextBase64 : Base64) → Role →
    (seqNum : ℕ) → (sessionId : Option String) → Option Text
  deriveChainKeys     : (rootKey : List UInt8) → List UInt8 × List UInt8
  write               : Content → Text
  read                : Text → Option Content

/-! ## State -/

inductive Sender
  | you
  | peer
  | system
deriving DecidableEq

structure ChatMessage where
  sender                  : Sender
  text                    : String
  timestamp               : ℤ
  isDecryptedSuccessfully : Bool
  id                      : ℕ
  remainingSeconds        : ℤ
  reactions               : List String
  file                    : Option FileDescr
  deliveryState           : String
  isEdited                : Bool
  editHistory             : List String
deriving DecidableEq

/-- What is posted to the main thread. -/
inductive Task
  | append (chatPartner : String) (message : ChatMessage)
  | acceptInvite (queueId pubKeyBase64 : String)
  | infinitySnap
deriving DecidableEq

inductive ConnectionStatus
  | disconnected
  | connecting
  | connected
  | error
deriving DecidableEq

/-- The peer and the keys, numbers and roles shared with it. -/
structure Session where
  theirQueueId           : Option String
  theirPublicKeyExported : Option String
  sendChainKey           : Option (List UInt8)
  recvChainKey           : Option (List UInt8)
  myRole                 : Option Role
  theirRole              : Option Role
  sendSeq                : ℕ
  recvSeq                : ℕ
  sessionId              : Option String
deriving DecidableEq

structure ChatManager (Base64 : Type) extends Session where
  myKeyPair             : Option KeyPair
  myPublicKeyExported   : Option String
  myQueueId             : Option String
  safetyNumber          : Option String
  pendingInvite         : Option (String × String)
  /-- `socket` is not null. -/
  hasSocket             : Bool
  /-- `socket.connected()`. -/
  socketConnected       : Bool
  connectionStatus      : ConnectionStatus
  isSessionActive       : Bool
  conversations         : String → List ChatMessage
  typingPreview         : Option String
  disappearTimerSeconds : ℤ
  posted                : List Task
  emitted               : List (Emit Base64)
  /-- What the next reads of the clock return. -/
  clock                 : ℕ → ℤ
  nonces                : ℕ → List UInt8
  nextId                : ℕ
  /-- For the proofs: the queue and the own key, as in an invite, of each handshake that made a
  session, and how many invites were accepted. -/
  established           : List (String × Option String)
  accepted              : ℕ

variable {Text Base64 : Type}

def ChatManager.init (clock : ℕ → ℤ) (nonces : ℕ → List UInt8) : ChatManager Base64 where
  theirQueueId := none
  theirPublicKeyExported := none
  sendChainKey := none
  recvChainKey := none
  myRole := none
  theirRole := none
  sendSeq := 0
  recvSeq := 0
  sessionId := none
  myKeyPair := none
  myPublicKeyExported := none
  myQueueId := none
  safetyNumber := none
  pendingInvite := none
  hasSocket := false
  socketConnected := false
  connectionStatus := .disconnected
  isSessionActive := false
  conversations _ := []
  typingPreview := none
  disappearTimerSeconds := 0
  posted := []
  emitted := []
  clock := clock
  nonces := nonces
  nextId := 0
  established := []
  accepted := 0

/-- `theirQueueId ?: "Peer"`. -/
def ChatManager.partner (s : ChatManager Base64) : String := s.theirQueueId.getD "Peer"

/-- A handler; it may throw. -/
abbrev Handler (Base64 : Type) := EStateM Unit (ChatManager Base64)

/-! ## Primitives -/

/-- `socket?.emit`. -/
def emit (e : Emit Base64) : Handler Base64 Unit :=
  modify fun s => if s.hasSocket then { s with emitted := s.emitted ++ [e] } else s

def post (task : Task) : Handler Base64 Unit :=
  modify fun s => { s with posted := s.posted ++ [task] }

/-- `System.currentTimeMillis()`. -/
def currentTimeMillis : Handler Base64 ℤ := do
  let s ← get
  set { s with clock := fun n => s.clock (n + 1) }
  return s.clock 0

def randomNonce : Handler Base64 (List UInt8) := do
  let s ← get
  set { s with nonces := fun n => s.nonces (n + 1) }
  return s.nonces 0

/-- A `ChatMessage` with a timestamp and a new id; the other fields have their defaults. -/
def chatMessage (sender : Sender) (text : String) (timestamp : ℤ) : Handler Base64 ChatMessage := do
  let id := (← get).nextId
  modify fun s => { s with nextId := id + 1 }
  return {
    sender := sender, text := text, timestamp := timestamp, isDecryptedSuccessfully := true,
    id := id, remainingSeconds := -1, reactions := [], file := none, deliveryState := "sent",
    isEdited := false, editHistory := [] }

/-- `_conversations.update` on the list of one partner. -/
def updateConversation (partner : String) (f : List ChatMessage → List ChatMessage) :
    Handler Base64 Unit :=
  modify fun s =>
    { s with conversations := Function.update s.conversations partner (f (s.conversations partner)) }

def appendMessage (chatPartner : String) (message : ChatMessage) : Handler Base64 Unit := do
  let timer := (← get).disappearTimerSeconds
  if 0 < timer ∧ message.sender ≠ .system then
    post (.append chatPartner { message with remainingSeconds := timer })
  else post (.append chatPartner message)

/-- `appendMessage(theirQueueId ?: "Peer", ChatMessage(sender, text))`, with the current time. -/
def appendNow (sender : Sender) (text : String) (decrypted : Bool := true) : Handler Base64 Unit := do
  let partner := (← get).partner
  let message ← chatMessage sender text (← currentTimeMillis)
  appendMessage partner { message with isDecryptedSuccessfully := decrypted }

/-- The conversation with the current partner. -/
def updateCurrent (f : List ChatMessage → List ChatMessage) : Handler Base64 Unit := do
  updateConversation (← get).partner f

/-! ## Marking messages -/

/-- Edit the messages with this timestamp; `own` restricts that to one's own. -/
def editIn (own : Bool) (targetTimestamp : ℤ) (content : String) (msgs : List ChatMessage) :
    List ChatMessage :=
  msgs.map fun msg =>
    if msg.timestamp = targetTimestamp ∧ (own → msg.sender = .you) then
      { msg with text := content, isEdited := true, editHistory := msg.editHistory ++ [msg.text] }
    else msg

def deleteIn (targetTimestamp : ℤ) (msgs : List ChatMessage) : List ChatMessage :=
  msgs.filter fun msg => msg.timestamp ≠ targetTimestamp

def receiptIn (targetTimestamp : ℤ) (state : String) (msgs : List ChatMessage) :
    List ChatMessage :=
  msgs.map fun msg =>
    if msg.timestamp = targetTimestamp ∧ msg.sender = .you then { msg with deliveryState := state }
    else msg

/-- A reaction to the first message with this timestamp. -/
def reactIn (targetTimestamp : ℤ) (key : String) : List ChatMessage → List ChatMessage
  | [] => []
  | msg :: msgs =>
    if msg.timestamp = targetTimestamp then
      (if key ∈ msg.reactions then msg else { msg with reactions := msg.reactions ++ [key] }) :: msgs
    else msg :: reactIn targetTimestamp key msgs

def Sender.name : Sender → String
  | .you => "You"
  | .peer => "Peer"
  | .system => "System"

def addLocalReaction (targetTimestamp : ℤ) (emoji : String) (sender : Sender) : Handler Base64 Unit :=
  updateCurrent (reactIn targetTimestamp (sender.name ++ "-" ++ emoji))

/-! ## Sending -/

section

variable (P : CryptoProvider Text Base64)

/-- What every function that sends does under the lock: step the chain, encrypt, push. What is
thrown is caught; the chain has been stepped by then. -/
def pushEncrypted (payload : Content) (ephemeral : Bool := false) : Handler Base64 Bool := do
  let s ← get
  match s.sendChainKey, s.theirQueueId with
  | some sendChainKey, some theirQueueId =>
    let (msgKey, nextKey) := P.deriveChainKeys sendChainKey
    modify fun s => { s with sendChainKey := some nextKey }
    match s.myRole with
    | none => return false
    | some myRole =>
      let nonce ← randomNonce
      match P.encryptMessage msgKey (P.write payload) myRole s.sendSeq s.sessionId nonce with
      | none => return false
      | some encrypted =>
        modify fun s => { s with sendSeq := s.sendSeq + 1 }
        emit (.pushQueue theirQueueId (.message encrypted.iv encrypted.ciphertext ephemeral))
        return true
  | _, _ => return false

def sendEncryptedPayload (payload : Content) : Handler Base64 Bool := pushEncrypted P payload

def sendEphemeralPayload (payload : Content) : Handler Base64 Bool := pushEncrypted P payload true

def sendTypingDraft (text : String) : Handler Base64 Unit := do
  discard (sendEphemeralPayload P (.live text))

def sendReceipt (targetTimestamp : ℤ) (state : String) : Handler Base64 Unit := do
  discard (sendEncryptedPayload P (.receipt targetTimestamp state))

def sendReaction (targetTimestamp : ℤ) (emoji : String) : Handler Base64 Unit := do
  if ← pushEncrypted P (.reaction targetTimestamp emoji) then
    addLocalReaction targetTimestamp emoji .you

def sendEditMessage (targetTimestamp : ℤ) (newText : String) : Handler Base64 Unit := do
  if ← sendEncryptedPayload P (.edit targetTimestamp newText) then
    updateCurrent (editIn true targetTimestamp newText)

def sendDeleteMessage (targetTimestamp : ℤ) : Handler Base64 Unit := do
  if ← sendEncryptedPayload P (.delete targetTimestamp) then
    updateCurrent (deleteIn targetTimestamp)

def setDisappearingTimer (seconds : ℤ) : Handler Base64 Unit := do
  modify fun s => { s with disappearTimerSeconds := seconds }
  discard (pushEncrypted P (.control (.timerSet seconds)))

/-- A run of the keep-alive runnable. -/
def keepAlive : Handler Base64 Unit := do
  discard (pushEncrypted P (.control .heartbeat))

/-- The payload and the message that is shown get their timestamps from two reads of the clock. -/
def sendPrivateMessage (text : String) : Handler Base64 Unit := do
  let s ← get
  if s.sendChainKey ≠ none ∧ s.theirQueueId ≠ none then
    let timestamp ← currentTimeMillis
    if ← pushEncrypted P (.text text (some timestamp)) then
      appendNow .you text

def resetClient : Handler Base64 Unit :=
  modify fun s => { s with
    hasSocket := false
    socketConnected := false
    connectionStatus := .disconnected
    myKeyPair := none
    myPublicKeyExported := none
    myQueueId := none
    theirQueueId := none
    theirPublicKeyExported := none
    sendChainKey := none
    recvChainKey := none
    myRole := none
    theirRole := none
    sendSeq := 0
    recvSeq := 0
    sessionId := none
    safetyNumber := none
    isSessionActive := false
    conversations := fun _ => [] }

def infinitySnap : Handler Base64 Unit := resetClient

def obliviate : Handler Base64 Unit := do
  discard (pushEncrypted P (.control .obliviate))
  infinitySnap

/-! ## Receiving -/

/-- The keys, roles and numbers of a new session. -/
def ChatManager.begin (s : ChatManager Base64) (sessionKeys : SessionKeys)
    (myPublicKey theirPublicKey : String) : ChatManager Base64 :=
  let isAlice : Bool := myPublicKey < theirPublicKey
  let safety := P.computeSafetyNumber myPublicKey theirPublicKey
  { s with
    sendChainKey := some sessionKeys.writeKey
    recvChainKey := some sessionKeys.readKey
    myRole := some (if isAlice then .a else .b)
    theirRole := some (if isAlice then .b else .a)
    sendSeq := 0
    recvSeq := 0
    sessionId := some safety
    safetyNumber := some safety }

/-- Begin a session with the peer whose key has been noted. -/
def deriveSession (theirPublicKey : String) : Handler Base64 Unit := do
  let s ← get
  match P.importPublicKey theirPublicKey with
  | none => throw ()
  | some theirKey =>
    match s.myKeyPair, s.myPublicKeyExported with
    | some myKeyPair, some myPublicKey =>
      match P.deriveSessionKeys myKeyPair.priv theirKey myPublicKey theirPublicKey with
      | none => throw ()
      | some sessionKeys => set (s.begin P sessionKeys myPublicKey theirPublicKey)
    | _, _ => throw ()

/-- A payload of type `handshake`, on queue `queueId`. -/
def onHandshake (queueId : String) (replyQueue : Option String) (publicKey : String) :
    Handler Base64 Unit := do
  -- optString returns the empty string for a missing reply_queue
  let theirQueue := replyQueue.getD ""
  modify fun s => { s with
    theirQueueId := some theirQueue, theirPublicKeyExported := some publicKey }
  deriveSession P publicKey
  emit (.registerPeer (← get).myQueueId (some theirQueue))
  emit .createQueue
  modify fun s => { s with
    isSessionActive := true
    established := s.established ++ [(queueId, s.myPublicKeyExported)] }
  appendNow .peer "[Connected Securely]"

def onQueueUpdate (newQueue : String) : Handler Base64 Unit := do
  modify fun s => { s with theirQueueId := some newQueue }
  appendNow .system "[Peer updated secure channel]"

def timerText (prefix' : String) (duration : ℤ) : String :=
  prefix' ++ (if 0 < duration then toString duration ++ " seconds" else "Off") ++ "]"

def onControl : Control → Handler Base64 Unit
  | .static | .heartbeat | .other => return
  | .obliviate => post .infinitySnap
  | .timerSet duration => do
    modify fun s => { s with disappearTimerSeconds := duration }
    appendNow .system (timerText "[Peer set disappearing messages to " duration)
    discard (pushEncrypted P (.control (.timerAck duration)))
  | .timerAck duration => do
    modify fun s => { s with disappearTimerSeconds := duration }
    appendNow .system (timerText "[Peer confirmed disappearing messages timer: " duration)

/-- How a file is shown. -/
def fileText (fileName : String) : String :=
  if fileName.endsWith ".webm" ∧ fileName.startsWith "voice_note" then "[Voice Note]"
  else if fileName.endsWith ".webm" ∧ fileName.startsWith "video_note" then "[Video Note]"
  else "Sent file: " ++ fileName

/-- What is done with the object inside a message. -/
def onContent : Content → Handler Base64 Unit
  | .control action => onControl P action
  | .text content timestamp => do
    -- the default of optLong is evaluated in any case
    let now ← currentTimeMillis
    let ts := timestamp.getD now
    let partner := (← get).partner
    appendMessage partner (← chatMessage .peer content ts)
    sendReceipt P ts "read"
  | .groupInvite name => appendNow .system
      ("[Group Invitation]: You were invited to join group '" ++ name ++ "' (Join via Web Client)")
  | .groupMessage senderNickname content =>
    appendNow .system ("[Group Message from " ++ senderNickname ++ "]: " ++ content)
  | .edit targetTimestamp content => updateCurrent (editIn false targetTimestamp content)
  | .delete targetTimestamp => updateCurrent (deleteIn targetTimestamp)
  | .receipt targetTimestamp state => updateCurrent (receiptIn targetTimestamp state)
  | .live content =>
    modify fun s => { s with typingPreview := if content = "" then none else some content }
  | .reaction targetMsgId emoji => addLocalReaction targetMsgId emoji .peer
  | .fileDescr descr timestamp => do
    let now ← currentTimeMillis
    let partner := (← get).partner
    let message ← chatMessage .peer (fileText descr.fileName) (timestamp.getD now)
    appendMessage partner { message with file := some descr }
  | .other => return

/-- A payload of type `message`. -/
def onMessage (iv ciphertext : Base64) : Handler Base64 Unit := do
  let s ← get
  match s.recvChainKey with
  | none => return
  | some recvChainKey =>
    let (msgKey, nextKey) := P.deriveChainKeys recvChainKey
    match s.theirRole with
    | none => throw ()
    | some theirRole =>
      match P.decryptMessage msgKey iv ciphertext theirRole s.recvSeq s.sessionId with
      | none => appendNow .peer "[encrypted message — could not decrypt]" false
      | some decrypted =>
        modify fun s => { s with recvChainKey := some nextKey, recvSeq := s.recvSeq + 1 }
        match P.read decrypted with
        | none => throw ()
        | some content => onContent P content

mutual

/-- `processPayload`, with the queue that the payload came on, which it does not look at. -/
def processPayload (queueId : String) : Payload Base64 → Handler Base64 Unit
  | .handshake replyQueue publicKey => onHandshake P queueId replyQueue publicKey
  | .queueUpdate newQueue => onQueueUpdate newQueue
  | .message iv ciphertext _ => onMessage P iv ciphertext
  | .batch events => processEvents queueId events
  | .other => return
  | .broken => throw ()

/-- The loop over the events of a batch. -/
def processEvents (queueId : String) : List (Payload Base64) → Handler Base64 Unit
  | [] => return
  | payload :: events => do
    processPayload queueId payload
    processEvents queueId events

end

/-! ## Connections and invites -/

/-- `connect` of the user interface, with a host in the settings. -/
def connect : Handler Base64 Unit := do
  let s ← get
  if ¬ (s.hasSocket ∧ s.socketConnected) then
    -- a new socket, without what the old one has not sent yet
    modify fun s => { s with
      hasSocket := true, socketConnected := false, connectionStatus := .connecting, emitted := [] }

/-- `EVENT_CONNECT`: there is a new key pair on every connect. -/
def onConnect (generated : Option KeyPair) : Handler Base64 Unit := do
  match generated with
  | none => modify fun s => { s with socketConnected := true, connectionStatus := .error }
  | some keyPair =>
    modify fun s => { s with
      socketConnected := true
      connectionStatus := .connected
      myKeyPair := some keyPair
      myPublicKeyExported := some (P.exportPublicKey keyPair.pub) }
    emit .createQueue

def onDisconnect : Handler Base64 Unit :=
  modify fun s => { s with socketConnected := false, connectionStatus := .disconnected }

/-- `EVENT_CONNECT_ERROR`. -/
def onConnectError (rejected : Bool) : Handler Base64 Unit :=
  if rejected then post .infinitySnap
  else modify fun s => { s with connectionStatus := .error }

def onPushQueueError (error : String) : Handler Base64 Unit := do
  if error = "recipient_offline" then
    appendNow .system "[Message delivery failed: Peer is offline]"

def onQueueCreated (newQueueId : String) : Handler Base64 Unit := do
  let s ← get
  modify fun s => { s with myQueueId := some newQueueId }
  match s.theirQueueId, s.sendChainKey with
  | some theirQueueId, some _ =>
    -- the own queue was rotated: the old invite is burnt
    emit (.pushQueue theirQueueId (.queueUpdate newQueueId))
    emit (.registerPeer (some newQueueId) (some theirQueueId))
  | _, _ =>
    match s.pendingInvite with
    | none => return
    | some (queueId, pubKeyBase64) =>
      modify fun s => { s with pendingInvite := none }
      post (.acceptInvite queueId pubKeyBase64)

/-- `connectionStatus.value == CONNECTED`, with a queue and a key pair. -/
def ChatManager.Ready (s : ChatManager Base64) : Prop :=
  s.connectionStatus = .connected ∧ s.myQueueId ≠ none ∧ s.myKeyPair ≠ none

instance (s : ChatManager Base64) : Decidable s.Ready :=
  inferInstanceAs (Decidable (_ ∧ _ ∧ _))

def acceptInvite (queueId pubKeyBase64 : String) : Handler Base64 Unit := do
  if ¬ (← get).Ready then
    modify fun s => { s with pendingInvite := some (queueId, pubKeyBase64) }
  else
    modify fun s => { s with
      theirQueueId := some queueId, theirPublicKeyExported := some pubKeyBase64 }
    deriveSession P pubKeyBase64
    let s ← get
    modify fun s => { s with accepted := s.accepted + 1 }
    emit (.pushQueue queueId (.handshake s.myQueueId (s.myPublicKeyExported.getD "")))
    emit (.registerPeer s.myQueueId (some queueId))
    appendNow .peer "[Sent handshake to Peer]"
    modify fun s => { s with isSessionActive := true }

/-! ## The main thread -/

/-- The runnable of a countdown: a second less, and the message goes at zero. -/
def countdown (chatPartner : String) (messageId : ℕ) : Handler Base64 Unit :=
  updateConversation chatPartner fun msgs =>
    (msgs.map fun msg => if msg.id = messageId then
      { msg with remainingSeconds := msg.remainingSeconds - 1 } else msg).filter fun msg =>
        ¬ (msg.id = messageId ∧ msg.remainingSeconds ≤ 0)

def runTask : Task → Handler Base64 Unit
  | .append chatPartner message => updateConversation chatPartner (· ++ [message])
  | .acceptInvite queueId pubKeyBase64 => acceptInvite P queueId pubKeyBase64
  | .infinitySnap => infinitySnap

/-- The next thing that was posted. -/
def runPosted : Handler Base64 Unit := do
  match (← get).posted with
  | [] => return
  | task :: tasks =>
    modify fun s => { s with posted := tasks }
    runTask P task

/-! ## Everything that happens to a client -/

inductive Input (Base64 : Type)
  -- the socket
  | connected (generated : Option KeyPair)
  | disconnected
  | connectError (rejected : Bool)
  | queueCreated (queueId : String)
  | queuePayload (queueId : String) (payload : Payload Base64)
  | pushQueueError (error : String)
  -- the user interface
  | connect
  | acceptInvite (queueId pubKeyBase64 : String)
  | sendPrivateMessage (text : String)
  | setDisappearingTimer (seconds : ℤ)
  | sendTypingDraft (text : String)
  | sendReaction (targetTimestamp : ℤ) (emoji : String)
  | sendEditMessage (targetTimestamp : ℤ) (newText : String)
  | sendDeleteMessage (targetTimestamp : ℤ)
  | obliviate
  | resetClient
  -- the main thread
  | keepAlive
  | countdown (chatPartner : String) (messageId : ℕ)
  | runPosted

def handle : Input Base64 → Handler Base64 Unit
  | .connected generated => onConnect P generated
  | .disconnected => onDisconnect
  | .connectError rejected => onConnectError rejected
  | .queueCreated queueId => onQueueCreated queueId
  | .queuePayload queueId payload => processPayload P queueId payload
  | .pushQueueError error => onPushQueueError error
  | .connect => connect
  | .acceptInvite queueId pubKeyBase64 => acceptInvite P queueId pubKeyBase64
  | .sendPrivateMessage text => sendPrivateMessage P text
  | .setDisappearingTimer seconds => setDisappearingTimer P seconds
  | .sendTypingDraft text => sendTypingDraft P text
  | .sendReaction targetTimestamp emoji => sendReaction P targetTimestamp emoji
  | .sendEditMessage targetTimestamp newText => sendEditMessage P targetTimestamp newText
  | .sendDeleteMessage targetTimestamp => sendDeleteMessage P targetTimestamp
  | .obliviate => obliviate P
  | .resetClient => resetClient
  | .keepAlive => keepAlive P
  | .countdown chatPartner messageId => countdown chatPartner messageId
  | .runPosted => runPosted P

/-- The state after an input; what a handler throws is caught. -/
def ChatManager.after (s : ChatManager Base64) (input : Input Base64) : ChatManager Base64 :=
  (handle P input s).state

/-- A step of a run: any input may come at any time. -/
def step (s : ChatManager Base64) (input : Input Base64) : Option (ChatManager Base64) :=
  some (s.after P input)

end

end AnonyMus.Android.Chat
