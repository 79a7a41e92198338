import AnonyMus.P2p.Node

/-!
# P2P node — the Flask server

The messages of `transports/p2p/server.py` and the rows they leave in
`transports/p2p/database.py`: what peers send, one by one or in batches, what
the user sends, and deletions.

* `LegacyNode`, `Library` — the tables, and what the node takes from Python;
* `LegacyNode.latest?`, `lastSeq` — the number that an incoming message
  is compared with;
* `LegacyNode.deliver` — what both endpoints for peers do with a message;
* `LegacyEvent.run` — the endpoints.
-/

namespace AnonyMus.P2p.Legacy

open EStateM
open Relay (strip)

/-! ## Tables -/

structure LegacyContact where
  status             : String
  disappearingTtl    : Option ℤ
  notifyQueueToken   : Option String
  preferredFileRelay : Option String

/-- A row of `messages`; its `message` is the JSON text of the three members. -/
structure LegacyRow where
  peerOnion  : String
  sender     : String
  iv         : Json
  ciphertext : Json
  seq        : ℤ
  timestamp  : ℤ
  expiresAt  : Json

/-- What is emitted to the browser as `incoming_message`. -/
structure IncomingMessage where
  sender     : String
  iv         : Json
  ciphertext : Json
  seq        : ℤ
  timestamp  : ℤ
  expiresAt  : Json
  ephemeral  : Bool

/-- What is handed to the thread pool, to be posted to a peer. -/
inductive Transmission
  | message (onion : String) (payload : IncomingMessage)
  | batch (onion : String) (events : Json) (timestamp : ℤ) (expiresAt : Json)
  | delete (onion : String) (timestamp : ℤ)

/-- A number that was compared with the one of the latest row. -/
structure Offer where
  peerOnion : String
  seq       : ℤ
  lastSeq   : ℤ
deriving DecidableEq

/-- It is above the latest one. -/
def Offer.Accepted (o : Offer) : Prop := o.lastSeq < o.seq

instance (o : Offer) : Decidable o.Accepted := inferInstanceAs (Decidable (_ < _))

/-- The node, with the comparisons made so far. -/
structure LegacyNode where
  myOnion     : String
  contacts    : Dict String LegacyContact
  /-- In the order of their ids. -/
  messages    : List LegacyRow
  notifyQueue : List String
  emitted     : List IncomingMessage
  submitted   : List Transmission
  offers      : List Offer

abbrev Handler := EStateM Failure LegacyNode

/-! ## Python and SQLite -/

/-- How `int(value)` fails. -/
inductive IntError
  /-- `ValueError` or `TypeError`. -/
  | refused
  /-- `OverflowError`, for an infinite float. -/
  | overflow

structure Library where
  /-- `str.lower`. -/
  lower : String → String
  /-- `int(value)`. -/
  int : Json → Except IntError ℤ
  /-- `expires_at IS NOT NULL AND expires_at <= now`. -/
  expired : Json → ℤ → Bool

/-- `bool(value)`. -/
def truthyJson : Json → Bool
  | .null => false
  | .bool b => b
  | .int n => n ≠ 0
  -- zero, and zero with a sign
  | .float bits => bits ≠ 0 && bits ≠ 0x8000000000000000
  | .str s => s ≠ ""
  | .arr items => !items.isEmpty
  | .obj members => !members.isEmpty

/-- `iter(value)`; none if it raises. -/
def iterate : Json → Option (List Json)
  | .arr items => some items
  | .str s => some (s.toList.map fun c => .str (String.ofList [c]))
  | .obj members => some (members.map fun m => .str m.1)
  | _ => none

/-- SQLite can hold the value: an integer has 64 bits, and a list or an object is refused. -/
def bindable : Json → Bool
  | .int n => -2 ^ 63 ≤ n && n < 2 ^ 63
  | .arr _ | .obj _ => false
  | _ => true

variable (L : Library)

abbrev Body := List (String × Json)

/-- `data.get(key)`. -/
def getJson (data : Body) (key : String) : Json := (data.lookup key).getD .null

/-- `data.get(key, "")`, on which a method of `str` is called. -/
def getStr (data : Body) (key : String) : Except Failure String :=
  match data.lookup key with
  | none => .ok ""
  | some (.str s) => .ok s
  | some _ => .error .internal

/-- `int(value)` outside a `try`. -/
def intOf (value : Json) : Except Failure ℤ :=
  match L.int value with
  | .ok n => .ok n
  | .error _ => .error .internal

inductive FieldType
  | str
  | int

/-- `validate_json_schema`. -/
def validateJsonSchema (required : List (String × FieldType)) (data : Body) :
    Except Failure Unit :=
  required.forM fun (field, expected) =>
    match data.lookup field, expected with
    | none, _ => .error (.http 400 ("Missing required field: " ++ field))
    | some value, .int =>
      match L.int value with
      | .ok _ => .ok ⟨⟩
      | .error .refused => .error (.http 400 ("Field " ++ field ++ " must be an integer"))
      | .error .overflow => .error .internal
    | some (.str _), .str => .ok ⟨⟩
    | some _, .str =>
      .error (.http 400 ("Field " ++ field ++ " has invalid type (expected str)"))

/-- How the queries of `database.py` write an address. -/
def normalized (onion : String) : String := L.lower (strip onion)

/-- `validate_onion` of an address that has been normalized. -/
def validOnion (onion : String) : Except Failure String :=
  let onion := normalized L (normalized L onion)
  if isOnion onion then .ok onion else .error (.http 400 "Invalid onion address")

def isBase64Char (c : Char) : Bool := c.isAlphanum || c ∈ "+/=_-".toList

/-- `is_valid_base64_like`: `^[a-zA-Z0-9+/=_\-]+$`, where `$` lets a final newline pass. -/
def isValidBase64Like (maxLen : ℕ) : Json → Bool
  | .str s =>
    s.length ≤ maxLen && (s.toList.takeWhile isBase64Char).length ≠ 0 &&
      (s.toList.dropWhile isBase64Char == [] || s.toList.dropWhile isBase64Char == ['\n'])
  | _ => false

/-! ## Queries -/

namespace LegacyNode

/-- The rows of a conversation. -/
def rows (peer : String) (n : LegacyNode) : List LegacyRow :=
  n.messages.filter fun r => r.peerOnion = peer

/-- Of the rows, one with the largest timestamp. -/
def later (best : Option LegacyRow) (r : LegacyRow) : Option LegacyRow :=
  if ∀ b ∈ best, b.timestamp ≤ r.timestamp then some r else best

/-- `ORDER BY timestamp DESC LIMIT 1`: the index of the conversation is read backwards, so of rows
with one timestamp it is the last that was inserted. -/
def latest? (rows : List LegacyRow) : Option LegacyRow := rows.foldl later none

/-- `get_last_sequence_number` of a normalized address. -/
def lastSeq (peer : String) (n : LegacyNode) : ℤ := ((latest? (n.rows peer)).map (·.seq)).getD 0

/-- When the messages of the contact disappear, for a row that does not say. -/
def savedExpiry (peer : String) (timestamp : ℤ) (n : LegacyNode) : Json → Json
  | .null =>
    match ((n.contacts.get? peer).bind (·.disappearingTtl)).filter (0 < ·) with
    | some ttl => .int (timestamp + ttl)
    | none => .null
  | expiresAt => expiresAt

/-- `save_message`; what SQLite refuses is not stored, and nobody is told. -/
def saveMessage (peerOnion sender : String) (m : IncomingMessage) (n : LegacyNode) : LegacyNode :=
  let peer := normalized L peerOnion
  let expiresAt := n.savedExpiry peer m.timestamp m.expiresAt
  if bindable (.int m.timestamp) && bindable expiresAt then
    { n with messages :=
        n.messages ++ [⟨peer, sender, m.iv, m.ciphertext, m.seq, m.timestamp, expiresAt⟩] }
  else n

/-- `push_notify_queue` of the token of the contact, if it has one. -/
def notify (peerOnion : String) (n : LegacyNode) : LegacyNode :=
  let contact := n.contacts.get? (normalized L peerOnion)
  match truthy (contact.bind (·.notifyQueueToken)) with
  | some token => { n with notifyQueue := n.notifyQueue ++ [token] }
  | none => n

/-- What both endpoints for peers do with a message that is above the latest one. -/
def receive (m : IncomingMessage) (n : LegacyNode) : LegacyNode :=
  let n :=
    if m.ephemeral then n
    else notify L m.sender (saveMessage L m.sender m.sender m n)
  { n with emitted := n.emitted ++ [m] }

/-- The comparison with the latest row, and what follows from it. -/
def deliver (m : IncomingMessage) (n : LegacyNode) : LegacyNode :=
  let peer := normalized L m.sender
  let lastSeq := n.lastSeq peer
  let n := { n with offers := n.offers ++ [⟨peer, m.seq, lastSeq⟩] }
  if m.seq ≤ lastSeq then n else receive L m n

/-- `delete_message_by_timestamp`. -/
def deleteByTimestamp (peerOnion : String) (timestamp : ℤ) (n : LegacyNode) : LegacyNode :=
  { n with messages := n.messages.filter fun r =>
      ¬ (r.peerOnion = normalized L peerOnion ∧ r.timestamp = timestamp) }

/-- `delete_expired_messages`. -/
def deleteExpired (now : ℤ) (n : LegacyNode) : LegacyNode :=
  { n with messages := n.messages.filter fun r => !L.expired r.expiresAt now }

def submit (t : Transmission) (n : LegacyNode) : LegacyNode :=
  { n with submitted := n.submitted ++ [t] }

end LegacyNode

/-- `get_contact`, of a contact that must be accepted. -/
def acceptedContact (onion : String) (failure : Failure) : Handler LegacyContact := do
  match (← get).contacts.get? (normalized L onion) with
  | some contact => if contact.status = "accepted" then return contact else throw failure
  | none => throw failure

/-- What the sender says, or when the messages of the contact disappear. -/
def expiry (contact : LegacyContact) (timestamp : ℤ) : Json → Json
  | .null =>
    match contact.disappearingTtl.filter (· ≠ 0) with
    | some ttl => .int (timestamp + ttl)
    | none => .null
  | expiresAt => expiresAt

/-! ## What peers send -/

/-- `p2p_message`, up to the contact. -/
def readMessage (data : Body) : Except Failure IncomingMessage := do
  validateJsonSchema L [("sender", .str), ("iv", .str), ("ciphertext", .str), ("seq", .int),
    ("timestamp", .int)] data
  let sender ← getStr data "sender"
  let sender ← validOnion L sender
  let seq ← intOf L (getJson data "seq")
  let timestamp ← intOf L (getJson data "timestamp")
  let iv := getJson data "iv"
  let ciphertext := getJson data "ciphertext"
  if !isValidBase64Like 100 iv || !isValidBase64Like 100000 ciphertext then
    throw (.http 400 "Invalid cryptographic payload")
  return ⟨sender, iv, ciphertext, seq, timestamp, getJson data "expires_at",
    truthyJson (getJson data "ephemeral")⟩

/-- `update_preferred_relay`, when the peer names a relay. -/
def updatePreferredRelay (sender : String) (data : Body) : Handler Unit := do
  let relay := strip (← ofExcept (getStr data "preferred_file_relay"))
  if relay ≠ "" ∧ "http".toList <+: relay.toList then
    modify fun n =>
      let peer := normalized L sender
      match n.contacts.get? peer with
      | some contact =>
        { n with contacts := n.contacts.insert peer { contact with preferredFileRelay := relay } }
      | none => n

def p2pMessage (data : Body) : Handler String := do
  let m ← ofExcept (readMessage L data)
  let contact ← acceptedContact L m.sender (.http 403 "Unauthorized contact.")
  updatePreferredRelay L m.sender data
  let last := (← get).lastSeq (normalized L m.sender)
  modify (LegacyNode.deliver L { m with expiresAt := expiry contact m.timestamp m.expiresAt })
  if m.seq ≤ last then
    throw (.http 400 "Sequence number must be strictly monotonic")
  return "delivered"

/-- An event of a batch; none if its payload is skipped. -/
def readEvent (sender : String) (timestamp : ℤ) (expiresAt event : Json) :
    Except Failure (Option IncomingMessage) := do
  match event.members? with
  | none => throw .internal
  | some members =>
    let iv := getJson members "iv"
    let ciphertext := getJson members "ciphertext"
    let seq ← intOf L (getJson members "seq")
    if !isValidBase64Like 100 iv || !isValidBase64Like 100000 ciphertext then
      return none
    return some ⟨sender, iv, ciphertext, seq, timestamp, expiresAt,
      truthyJson (getJson members "ephemeral")⟩

/-- One round of the loop of `p2p_message_batch`. -/
def receiveEvent (sender : String) (timestamp : ℤ) (expiresAt event : Json) : Handler Unit := do
  match ← ofExcept (readEvent L sender timestamp expiresAt event) with
  | some m => modify (LegacyNode.deliver L m)
  | none => return

/-- The sender, the timestamp and the events of `p2p_message_batch`; `now` is the time in
milliseconds. -/
def readBatch (data : Body) (now : ℤ) : Except Failure (String × ℤ × Json) := do
  let sender ← getStr data "sender"
  let sender ← validOnion L sender
  let timestamp ← intOf L ((data.lookup "timestamp").getD (.int now))
  return (sender, timestamp, (data.lookup "events").getD (.arr []))

def p2pMessageBatch (data : Body) (now : ℤ) : Handler String := do
  let (sender, timestamp, events) ← ofExcept (readBatch L data now)
  let contact ← acceptedContact L sender (.http 403 "Unauthorized contact.")
  match iterate events with
  | none => throw .internal
  | some events =>
    events.forM
      (receiveEvent L sender timestamp (expiry contact timestamp (getJson data "expires_at")))
    return "delivered"

/-- `p2p_delete`, up to the contact. -/
def readDelete (data : Body) : Except Failure (String × ℤ) := do
  validateJsonSchema L [("sender", .str), ("timestamp", .int)] data
  let sender ← getStr data "sender"
  let sender ← validOnion L sender
  let timestamp ← intOf L (getJson data "timestamp")
  return (sender, timestamp)

/-- `p2p_delete`; the event for the browser is left out. -/
def p2pDelete (data : Body) : Handler String := do
  let (sender, timestamp) ← ofExcept (readDelete L data)
  let _ ← acceptedContact L sender (.http 403 "Unauthorized contact.")
  modify (LegacyNode.deleteByTimestamp L sender timestamp)
  return "deleted"

/-! ## What the user does -/

/-- When a message that is sent at `timestamp` disappears. -/
def sentExpiry (contact : LegacyContact) (timestamp : ℤ) : Json :=
  match contact.disappearingTtl.filter (0 < ·) with
  | some ttl => .int (timestamp + ttl)
  | none => .null

/-- `send_message`, up to the contact. -/
def readSend (loggedIn : Bool) (data : Body) (now : ℤ) :
    Except Failure (String × IncomingMessage) := do
  validateJsonSchema L [("onion_address", .str), ("iv", .str), ("ciphertext", .str),
    ("seq", .int)] data
  if !loggedIn then throw (.http 401 "Unauthorized")
  let onion ← getStr data "onion_address"
  let onion ← validOnion L onion
  let seq ← intOf L (getJson data "seq")
  return (onion, ⟨"me", getJson data "iv", getJson data "ciphertext", seq, now, .null,
    truthyJson (getJson data "ephemeral")⟩)

/-- The row of a message that the user sends. -/
def saveSent (onion : String) (m : IncomingMessage) (n : LegacyNode) : LegacyNode :=
  if m.ephemeral then n
  else n.saveMessage L onion "me" m

/-- `send_message`; `now` is the time in milliseconds. Returns the timestamp and the expiry. -/
def sendMessage (loggedIn : Bool) (data : Body) (now : ℤ) : Handler (ℤ × Json) := do
  let (onion, m) ← ofExcept (readSend L loggedIn data now)
  let contact ← acceptedContact L onion (.http 400 "Contact not accepted or not found.")
  let m := { m with expiresAt := sentExpiry contact now }
  modify (saveSent L onion m)
  modify fun n => n.submit (.message onion { m with sender := n.myOnion })
  return (now, m.expiresAt)

/-- An event of `send_message_batch`; the number of an ephemeral one is not read. -/
def readSentEvent (now : ℤ) (expiresAt event : Json) : Except Failure IncomingMessage := do
  match event.members? with
  | none => throw .internal
  | some members =>
    let ephemeral := truthyJson (getJson members "ephemeral")
    let seq ← (if ephemeral then .ok 0 else intOf L (getJson members "seq"))
    return ⟨"me", getJson members "iv", getJson members "ciphertext", seq, now, expiresAt,
      ephemeral⟩

/-- One round of the loop of `send_message_batch`. -/
def sendEvent (onion : String) (now : ℤ) (expiresAt event : Json) : Handler Unit := do
  let m ← ofExcept (readSentEvent L now expiresAt event)
  modify (saveSent L onion m)

/-- `send_message_batch`, up to the contact: the address and the events. -/
def readSendBatch (loggedIn : Bool) (data : Body) : Except Failure (String × Json) := do
  if !loggedIn then throw (.http 401 "Unauthorized")
  let onion ← getStr data "onion_address"
  let onion ← validOnion L onion
  return (onion, (data.lookup "events").getD (.arr []))

/-- `send_message_batch`. -/
def sendMessageBatch (loggedIn : Bool) (data : Body) (now : ℤ) : Handler (Option (ℤ × Json)) := do
  let (onion, events) ← ofExcept (readSendBatch L loggedIn data)
  if !truthyJson events then return none
  let contact ← acceptedContact L onion (.http 400 "Contact not accepted or not found.")
  let expiresAt := sentExpiry contact now
  match iterate events with
  | none => throw .internal
  | some items =>
    items.forM (sendEvent L onion now expiresAt)
    modify (LegacyNode.submit (.batch onion events now expiresAt))
    return some (now, expiresAt)

/-- The address and the timestamp of `delete_message`. -/
def readDeleteMessage (loggedIn : Bool) (data : Body) : Except Failure (String × ℤ) := do
  validateJsonSchema L [("onion_address", .str), ("timestamp", .int)] data
  if !loggedIn then throw (.http 401 "Unauthorized")
  let onion ← getStr data "onion_address"
  let onion ← validOnion L onion
  let timestamp ← intOf L (getJson data "timestamp")
  return (onion, timestamp)

/-- `delete_message`. -/
def deleteMessage (loggedIn : Bool) (data : Body) : Handler Unit := do
  let (onion, timestamp) ← ofExcept (readDeleteMessage L loggedIn data)
  modify (LegacyNode.deleteByTimestamp L onion timestamp)
  modify (LegacyNode.submit (.delete onion timestamp))

/-! ## Runs -/

/-- A request from a peer or from the user, or a round of `message_expiry_sweeper`. -/
inductive LegacyEvent
  | p2pMessage (data : Body)
  | p2pMessageBatch (data : Body) (now : ℤ)
  | p2pDelete (data : Body)
  | sendMessage (loggedIn : Bool) (data : Body) (now : ℤ)
  | sendMessageBatch (loggedIn : Bool) (data : Body) (now : ℤ)
  | deleteMessage (loggedIn : Bool) (data : Body)
  | sweep (now : ℤ)

def LegacyEvent.run : LegacyEvent → Handler Unit
  | p2pMessage data => do
    let _ ← Legacy.p2pMessage L data
  | p2pMessageBatch data now => do
    let _ ← Legacy.p2pMessageBatch L data now
  | p2pDelete data => do
    let _ ← Legacy.p2pDelete L data
  | sendMessage loggedIn data now => do
    let _ ← Legacy.sendMessage L loggedIn data now
  | sendMessageBatch loggedIn data now => do
    let _ ← Legacy.sendMessageBatch L loggedIn data now
  | deleteMessage loggedIn data => Legacy.deleteMessage L loggedIn data
  | sweep now => modify (LegacyNode.deleteExpired L now)

/-- A node without messages. -/
def LegacyNode.new (myOnion : String) (contacts : Dict String LegacyContact) : LegacyNode :=
  ⟨myOnion, contacts, [], [], [], [], []⟩

end AnonyMus.P2p.Legacy
