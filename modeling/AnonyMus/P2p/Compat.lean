import AnonyMus.P2p.Contacts
import AnonyMus.P2p.Messages

/-!
# P2P node — the endpoints of the old client

`legacy_get_contacts`, `legacy_update_receipts` and `legacy_get_messages` of
`transports/p2p/routers/compat.py`. They ask for a session, but do not look up
whose it is.

* `legacyGetContacts` — the contacts of the active profile, whoever owns them;
* `boolOf`, `receiptsUpdate` — what is read of an update of receipts;
* `anyContact?`, `legacyUpdateReceipts` — the first contact with the address, and its update;
* `orderAsc`, `legacyGetMessages` — all that a peer has sent or received, the oldest first.
-/

namespace AnonyMus.P2p

open Relay (strip)

/-- `_verify_auth`. -/
def verifyAuth (caller : Caller) : Handler String :=
  match truthy caller.username with
  | none => throw (.http 401 "Unauthorized")
  | some username => return username

/-! ## Contacts -/

structure LegacyContact where
  onionAddress       : String
  nickname           : Option String
  status             : Status
  verified           : Bool
  sendReceipts       : ℕ
  preferredFileRelay : String
deriving DecidableEq

def LegacyContact.ofContact (c : Contact) : LegacyContact where
  onionAddress       := c.onionAddress
  nickname           := c.nickname
  status             := c.status
  verified           := c.verified
  sendReceipts       := if c.sendReceipts then 1 else 0
  preferredFileRelay := c.preferredFileRelay.getD ""

def legacyGetContacts (caller : Caller) : Handler (List LegacyContact) := do
  let _ ← verifyAuth caller
  let contacts := (← get).contacts.values.filter fun c => c.profileId = caller.activeProfileId
  return contacts.map LegacyContact.ofContact

/-- `bool(value)`. -/
def boolOf : Option Json → Bool
  | none => false
  | some .null => false
  | some (.bool b) => b
  | some (.int n) => n ≠ 0
  -- both zeros are false, and `nan` is true
  | some (.float bits) => bits ≠ 0 ∧ bits ≠ 0x8000000000000000
  | some (.str s) => s ≠ ""
  | some (.arr items) => ¬ items.isEmpty
  | some (.obj members) => ¬ members.isEmpty

/-- `data.get("onion_address", "").strip().lower()` and `bool(data.get("send_receipts"))`; none if
the body is not an object, or its address not a string. -/
def receiptsUpdate (R : Runtime) (data : Json) : Option (String × Bool) := do
  let members ← data.members?
  let onion ← match members.lookup "onion_address" with
    | none => some ""
    | some (.str onion) => some onion
    | some _ => none
  return (R.lower (strip onion), boolOf (members.lookup "send_receipts"))

/-- The first contact with this address in the profile, whoever owns it. -/
def Node.anyContact? (n : Node) (onion profileId : String) : Option (ℕ × Contact) :=
  n.contacts.entries.find? fun e => e.2.onionAddress = onion ∧ e.2.profileId = profileId

def legacyUpdateReceipts (R : Runtime) (caller : Caller) (data : Json) : Handler Unit := do
  let _ ← verifyAuth caller
  match receiptsUpdate R data with
  | none => throw .internal
  | some (onion, sendReceipts) =>
    match (← get).anyContact? onion caller.activeProfileId with
    | none => throw (.http 404 "Contact not found")
    | some (id, contact) =>
      modify fun n => n.setContact id { contact with sendReceipts := sendReceipts }

/-! ## Messages -/

structure LegacyMessage where
  messageId  : String
  sender     : String
  recipient  : String
  ciphertext : String
  iv         : String
  seq        : ℤ
  timestamp  : ℤ
deriving DecidableEq

/-- `timestamp` is `int(sent_at.timestamp() * 1000)`, by the clock of the machine. -/
def LegacyMessage.ofRow (timestamp : DateTime → ℤ) (row : Row) : LegacyMessage where
  messageId  := row.1
  sender     := row.2.senderOnion
  recipient  := row.2.recipientOnion
  ciphertext := row.2.ciphertextB64
  iv         := row.2.ivB64
  seq        := row.2.sequenceNumber
  timestamp  := timestamp row.2.sentAt

/-- `order_by(sent_at.asc())` of rows that are visited in the given order. -/
def orderAsc (rows : List Row) : List Row :=
  rows.insertionSort fun r r' => r.2.sentAt ≤ r'.2.sentAt

/-- `scan` is the order in which the database visits the rows. -/
def legacyGetMessages (R : Runtime) (scan : List Row → List Row) (timestamp : DateTime → ℤ)
    (caller : Caller) (onionAddress : Option String) : Handler (List LegacyMessage) := do
  let _ ← verifyAuth caller
  match truthy onionAddress with
  | none => throw (.http 400 "Missing onion_address")
  | some peerOnion =>
    let peer := R.lower (strip peerOnion)
    let messages := (scan (← get).messages.entries).filter fun row =>
      row.2.senderOnion = peer ∨ row.2.recipientOnion = peer
    return (orderAsc messages).map (LegacyMessage.ofRow timestamp)

end AnonyMus.P2p
