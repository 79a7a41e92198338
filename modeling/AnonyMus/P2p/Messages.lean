import Mathlib.Data.List.Sort
import AnonyMus.P2p.Router
import AnonyMus.Python.Protocol

/-!
# P2P node — the local user's messages

`send_message`, `message_history`, `delete_message` and `resolve_sender` of
`transports/p2p/routers/messages.py`.

* `sendMessage` — stores a message and queues its payload for the recipient;
* `encodeCursor`, `decodeCursor`, `messageHistory` — one page of a conversation;
* `deleteMessage` — the soft delete;
* `resolveSender` — the client names the sender of a sealed message;
* `sendMessage_cases`, … — all that each of them can do.
-/

namespace AnonyMus.P2p

open Relay (strip)

/-! ## Sending -/

structure SendMessageRequest where
  recipientOnion : String
  ciphertextB64  : String
  ivB64          : String
  sequenceNumber : ℤ
  disappearsAt   : Option Stamp
  sealedSender   : Option SealedSenderBlock

def SendMessageRequest.read (R : Runtime) (body : Json) : Option SendMessageRequest := do
  let members ← body.members?
  let recipientOnion ← Json.required R.str members "recipient_onion"
  guard (16 ≤ recipientOnion.length ∧ recipientOnion.length ≤ 128)
  let ciphertextB64 ← Json.required R.str members "ciphertext_b64"
  let ivB64 ← Json.required R.str members "iv_b64"
  let sequenceNumber ← Json.required R.int members "sequence_number"
  guard (0 ≤ sequenceNumber)
  let disappearsAt ← Json.optional R.datetime members "disappears_at"
  let sealedSender ← Json.optional (SealedSenderBlock.read R) members "sealed_sender"
  return { recipientOnion, ciphertextB64, ivB64, sequenceNumber, disappearsAt, sealedSender }

/-- `model_dump`, as a JSON object. -/
def SealedSenderBlock.dump (block : SealedSenderBlock) : Json :=
  .obj [("ephemeral_pub", .str block.ephemeralPub), ("ciphertext", .str block.ciphertext),
    ("iv", .str block.iv)]

/-- The payload that `send_message` queues; `timestamp` is the time in milliseconds. -/
def messagePayload (onion : String) (body : SendMessageRequest) (timestamp : ℤ) : Json :=
  .obj [
    ("sender", .str (if body.sealedSender.isSome then "sealed" else onion)),
    ("sealed_sender", (body.sealedSender.map SealedSenderBlock.dump).getD .null),
    ("iv", .str body.ivB64),
    ("ciphertext", .str body.ciphertextB64),
    ("seq", .int body.sequenceNumber),
    ("timestamp", .int timestamp),
    ("disappears_at",
      (body.disappearsAt.map fun s => Json.str (String.ofList s.isoformat)).getD .null),
    ("ephemeral", .bool false)]

/-- The row of a message that is sent. -/
def sentRow (onion : String) (body : SendMessageRequest) (sentAt : DateTime) : Message where
  senderOnion    := onion
  recipientOnion := body.recipientOnion
  ciphertextB64  := body.ciphertextB64
  ivB64          := body.ivB64
  sequenceNumber := body.sequenceNumber
  sentAt         := sentAt
  delivered      := false
  disappearsAt   := body.disappearsAt.map Stamp.wall
  isDeleted      := false
  sealedSender   := body.sealedSender

/-- `uuid` is what `uuid4` draws, `sentAt` and `timestamp` what the clock shows. The answer is
the stored row under its id. -/
def sendMessage (caller : Caller) (body : SendMessageRequest) (uuid : String) (sentAt : DateTime)
    (timestamp : ℤ) : Handler (String × Message) := do
  let user ← getCurrentUser caller
  match truthy user.onionAddress with
  | none => throw (.http 400 "Onion address not configured — Tor node not running")
  | some onion =>
    insertMessage uuid (sentRow onion body sentAt)
    addTask (.transmitP2pMessage body.recipientOnion (messagePayload onion body timestamp))
    return (uuid, sentRow onion body sentAt)

/-! ## History -/

/-- `base64.urlsafe_b64encode`. -/
def urlsafeB64encode (data : List UInt8) : List Char :=
  (b64encode data).map fun c => if c = '+' then '-' else if c = '/' then '_' else c

/-- `base64.urlsafe_b64decode` of ASCII text. -/
def urlsafeB64decode (text : List Char) : Option (List UInt8) :=
  (Python.b64decode (.text (text.map fun c =>
    if c = '-' then '+' else if c = '_' then '/' else c))).toOption

/-- `str.partition("||")`: what stands before the separator, or everything. -/
def beforeBars : List Char → List Char
  | '|' :: '|' :: _ => []
  | [] => []
  | c :: rest => c :: beforeBars rest

/-- `f"{sent_at.isoformat()}||{message_id}"` in base64. -/
def encodeCursor (sentAt : DateTime) (messageId : String) : String :=
  String.ofList (urlsafeB64encode
    (String.ofList (sentAt.isoformat ++ "||".toList ++ messageId.toList)).toUTF8.toList)

/-- The time that a cursor names; none if decoding raises. -/
def decodeCursor (R : Runtime) (cursor : String) : Option Stamp := do
  let data ← urlsafeB64decode cursor.toList
  let raw ← (Python.decodeUtf8 data).toOption
  R.fromIsoformat (String.ofList (beforeBars raw.toList))

/-- A message with its id. -/
abbrev Row := String × Message

/-- The messages between the user and the peer that are not deleted. -/
def inConversation (userOnion : Option String) (peerOnion : String) (row : Row) : Bool :=
  ¬ row.2.isDeleted ∧
    ((some row.2.senderOnion = userOnion ∧ row.2.recipientOnion = peerOnion) ∨
      (row.2.senderOnion = peerOnion ∧ some row.2.recipientOnion = userOnion))

/-- `order_by(sent_at.desc())` of rows that are visited in the given order. -/
def orderDesc (rows : List Row) : List Row :=
  rows.insertionSort fun r r' => r'.2.sentAt ≤ r.2.sentAt

/-- The time below which the page starts. -/
def cursorSentAt (R : Runtime) (n : Node) (before cursor : Option String) :
    Except Failure (Option DateTime) :=
  match truthy cursor, truthy before with
  | some cursor, _ =>
    match decodeCursor R cursor with
    | none => .error (.http 400 "Invalid cursor token")
    | some sentAt => .ok (some sentAt.wall)
  -- a message id that is not there does not limit the page
  | none, some before => .ok ((n.messages.get? before).map Message.sentAt)
  | none, none => .ok none

/-- The first `limit` rows of the statement. -/
def historyPage (rows : List Row) (userOnion : Option String) (peerOnion : String) (limit : ℕ)
    (below : Option DateTime) : List Row :=
  (orderDesc (rows.filter fun row =>
    inConversation userOnion peerOnion row && below.all fun sentAt => row.2.sentAt < sentAt)).take
      limit

/-- A page, and the cursor kept in `request.state`. `scan` is the order in which the database
visits the rows. -/
def messageHistory (R : Runtime) (scan : List Row → List Row) (caller : Caller)
    (peerOnion : String) (limit : ℤ) (before cursor : Option String) :
    Handler (List Row × Option String) := do
  if ¬ (1 ≤ limit ∧ limit ≤ 200) then throw .validation
  let user ← getCurrentUser caller
  let n ← get
  let below ← ofExcept (cursorSentAt R n before cursor)
  let page := historyPage (scan n.messages.entries) user.onionAddress peerOnion limit.toNat below
  return (page, page.getLast?.map fun oldest => encodeCursor oldest.2.sentAt oldest.1)

/-! ## Deleting -/

def deleteMessage (caller : Caller) (messageId : String) : Handler Unit := do
  let user ← getCurrentUser caller
  match (← get).messages.get? messageId with
  | none => throw (.http 404 "Message not found")
  | some msg =>
    if some msg.senderOnion = user.onionAddress then
      modify fun n => n.setMessage messageId { msg with isDeleted := true }
    else throw (.http 404 "Message not found")

/-! ## Sealed senders -/

structure ResolveSenderRequest where
  senderOnion : String

def ResolveSenderRequest.read (R : Runtime) (body : Json) : Option ResolveSenderRequest := do
  let members ← body.members?
  let senderOnion ← Json.required R.str members "sender_onion"
  return { senderOnion }

/-- `max(sequence_number)` of what `sender` sent to `recipient`, this message apart. -/
def Node.lastSeqBut (n : Node) (messageId sender : String) (recipient : Option String) : Option ℤ :=
  ((n.messages.entries.filter fun row => row.2.senderOnion = sender ∧
    some row.2.recipientOnion = recipient ∧ row.1 ≠ messageId).map fun row =>
      row.2.sequenceNumber).max?

/-- Delete the message for good, and refuse the request: the deletion is committed first. -/
def deleteAndRefuse (messageId : String) (failure : Failure) : Handler (String × String) := do
  modify fun n => { n with messages := n.messages.erase messageId }
  throw failure

def resolveSender (R : Runtime) (caller : Caller) (messageId : String)
    (body : ResolveSenderRequest) : Handler (String × String) := do
  let user ← getCurrentUser caller
  let n ← get
  match n.messages.get? messageId with
  | none => throw (.http 404 "Message not found")
  | some msg =>
    let sender := R.lower (strip body.senderOnion)
    if ∀ e ∈ n.contact? user.onionAddress sender, e.2.status ≠ .accepted then
      deleteAndRefuse messageId (.http 403 "Unauthorized sender identity")
    else if ∃ lastSeq ∈ n.lastSeqBut messageId sender user.onionAddress,
        msg.sequenceNumber ≤ lastSeq then
      deleteAndRefuse messageId (.http 400 "Sequence number must be strictly monotonic")
    else
      modify fun n => n.setMessage messageId { msg with senderOnion := sender }
      return (messageId, sender)

/-! ## What the endpoints do -/

section

variable {R : Runtime} (s : Node) (caller : Caller)

/-- Sending is refused, or there is one more message and its payload is queued. -/
theorem sendMessage_cases (body : SendMessageRequest) (uuid : String) (sentAt : DateTime)
    (timestamp : ℤ) :
    (∃ e, sendMessage caller body uuid sentAt timestamp s = .error e s) ∨
    ∃ onion s', sendMessage caller body uuid sentAt timestamp s =
        .ok (uuid, sentRow onion body sentAt) s' ∧ onion ≠ "" ∧
      s.Storable uuid body.sequenceNumber ∧
      s'.messages = s.messages.insert uuid (sentRow onion body sentAt) ∧
      s'.tasks = s.tasks ++
        [.transmitP2pMessage body.recipientOnion (messagePayload onion body timestamp)] ∧
      s'.contacts = s.contacts ∧ s'.users = s.users := by
  unfold sendMessage
  rw [EStateM.apply_bind]
  rcases getCurrentUser_cases s caller with ⟨e, huser⟩ | ⟨user, -, huser⟩
  · rw [huser]
    exact .inl ⟨e, rfl⟩
  rw [huser]
  dsimp only
  rcases honion : truthy user.onionAddress with _ | onion
  · exact .inl ⟨_, rfl⟩
  dsimp only
  rw [EStateM.apply_bind, insertMessage_apply]
  split_ifs with hstorable
  · exact .inr ⟨onion, _, rfl, ne_of_truthy honion, hstorable, rfl, rfl, rfl, rfl⟩
  · exact .inl ⟨_, rfl⟩

/-- The page of a user, when the request is well formed. -/
theorem messageHistory_apply {s : Node} {caller : Caller} {peerOnion : String} {limit : ℤ}
    {before cursor : Option String} {user : User} {sentAt : Option DateTime}
    (scan : List Row → List Row) (hlimit : 1 ≤ limit ∧ limit ≤ 200)
    (huser : getCurrentUser caller s = .ok user s)
    (hcursor : cursorSentAt R s before cursor = .ok sentAt) :
    messageHistory R scan caller peerOnion limit before cursor s =
      let page := historyPage (scan s.messages.entries) user.onionAddress peerOnion limit.toNat sentAt
      .ok (page, page.getLast?.map fun oldest => encodeCursor oldest.2.sentAt oldest.1) s := by
  unfold messageHistory
  rw [if_neg (not_not_intro hlimit)]
  show (getCurrentUser caller >>= _) s = _
  rw [EStateM.apply_bind, huser]
  dsimp only
  rw [EStateM.apply_bind, EStateM.apply_get]
  dsimp only
  rw [EStateM.apply_bind, EStateM.apply_ofExcept, hcursor]
  rfl

/-- Reading a conversation changes nothing. -/
theorem messageHistory_state (scan : List Row → List Row) (peerOnion : String) (limit : ℤ)
    (before cursor : Option String) :
    (messageHistory R scan caller peerOnion limit before cursor s).state = s := by
  unfold messageHistory
  by_cases hlimit : ¬ (1 ≤ limit ∧ limit ≤ 200)
  · rw [if_pos hlimit]
    rfl
  rw [if_neg hlimit]
  show ((getCurrentUser caller >>= _) s).state = s
  rw [EStateM.apply_bind]
  rcases getCurrentUser_cases s caller with ⟨e, huser⟩ | ⟨user, -, huser⟩
  · rw [huser]
    rfl
  rw [huser]
  dsimp only
  rw [EStateM.apply_bind, EStateM.apply_get]
  dsimp only
  rw [EStateM.apply_bind, EStateM.apply_ofExcept]
  rcases cursorSentAt R s before cursor with e | below <;> rfl

/-- Deleting is refused, or one message is marked. -/
theorem deleteMessage_cases (messageId : String) :
    (∃ e, deleteMessage caller messageId s = .error e s) ∨
    ∃ m s', deleteMessage caller messageId s = .ok ⟨⟩ s' ∧ s.messages.get? messageId = some m ∧
      s'.messages = s.messages.insert messageId { m with isDeleted := true } ∧
      s'.contacts = s.contacts ∧ s'.users = s.users := by
  unfold deleteMessage
  rw [EStateM.apply_bind]
  rcases getCurrentUser_cases s caller with ⟨e, huser⟩ | ⟨user, -, huser⟩
  · rw [huser]
    exact .inl ⟨e, rfl⟩
  rw [huser]
  dsimp only
  rw [EStateM.apply_bind, EStateM.apply_get]
  dsimp only
  rcases hmsg : s.messages.get? messageId with _ | m
  · exact .inl ⟨_, rfl⟩
  dsimp only
  split_ifs
  · exact .inr ⟨m, _, rfl, rfl, rfl, rfl, rfl⟩
  · exact .inl ⟨_, rfl⟩

end

end AnonyMus.P2p
