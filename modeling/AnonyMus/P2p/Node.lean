import AnonyMus.Lib.DateTime
import AnonyMus.Lib.Dict
import AnonyMus.Lib.EState
import AnonyMus.Lib.Json
import AnonyMus.Relay.Server

/-!
# P2P node — database, notices and what handlers share

The tables of `core/db/models.py` that the routers of `transports/p2p/routers`
work on, kept in SQLite. A handler is a state-keeping exception over `Node`. It
raises only before its first write, or when its writes are committed, so that
the rollback of `get_session` has nothing to undo.

* `Node` — the tables, with what has been sent to the browser and to peers;
* `Runtime` — what the handlers take from Python and pydantic;
* `validateOnion` — `ONION_RE`;
* `getCurrentUser_cases`, `insertContact_cases`, `insertMessage_apply` — the
  steps that handlers share;
* `get?_nextId` — a new contact does not replace another.
-/

namespace AnonyMus.P2p

open Relay (strip)

/-! ## Tables -/

structure User where
  username     : String
  onionAddress : Option String
deriving DecidableEq

/-- The values of `Contact.status`. -/
inductive Status
  | pendingIncoming
  | pendingOutgoing
  | accepted
  | blocked
deriving DecidableEq

structure Contact where
  ownerOnion         : String
  onionAddress       : String
  nickname           : Option String
  publicKeyB64       : Option String
  sharedSecretB64    : Option String
  status             : Status
  verified           : Bool
  profileId          : String
  notifyQueueToken   : Option String := none
  sendReceipts       : Bool := true
  preferredFileRelay : Option String := none
deriving DecidableEq

/-- The block of a message that names its sender to the recipient only. -/
structure SealedSenderBlock where
  ephemeralPub : String
  ciphertext   : String
  iv           : String
deriving DecidableEq

/-- A row of `messages`. SQLite keeps no zone with a time, and the JSON text of
the sealed sender stands for its block. -/
structure Message where
  senderOnion    : String
  recipientOnion : String
  ciphertextB64  : String
  ivB64          : String
  sequenceNumber : ℤ
  sentAt         : DateTime
  delivered      : Bool
  disappearsAt   : Option DateTime
  isDeleted      : Bool
  sealedSender   : Option SealedSenderBlock
deriving DecidableEq

/-- A row of `prekey_bundles`, its two JSON columns decoded. -/
structure PreKeyBundle where
  identityKey      : String
  signedPrekey     : String
  signedPrekeySig  : String
  pqPrekey         : String
  pqPrekeySig      : String
  oneTimePrekeys   : List String
  oneTimePqPrekeys : List String
  publishedAt      : DateTime
deriving DecidableEq

/-! ## Notices and tasks -/

/-- The `message` of a `message_received` event. -/
structure MessageData where
  messageId      : String
  senderOnion    : String
  recipientOnion : Option String
  ciphertextB64  : String
  ivB64          : String
  sequenceNumber : ℤ
  sentAt         : String
  delivered      : Bool
  isDeleted      : Bool
  disappearsAt   : Option String
  sealedSender   : Option SealedSenderBlock
deriving DecidableEq

/-- What `emit_socket` is given. -/
inductive Notice
  | handshakeReceived (onionAddress nickname publicKey : String)
  | contactStatusChange (onionAddress : String) (status : Status)
  | messageReceived (senderOnion : String) (message : MessageData)
  | messageDeleted (onionAddress messageId : String)
deriving DecidableEq

/-- A request to a peer, queued to be sent over Tor. -/
inductive Task
  | transmitHandshake (peerOnion : String) (payload : Json)
  | transmitP2pMessage (recipientOnion : String) (payload : Json)
  | notifyAccepted (peerOnion : String) (payload : Json)

/-- The node: its tables, the notices so far and the queued requests. Contacts are
keyed by `id`, messages by `message_id`, bundles by onion address. -/
structure Node where
  users    : List User
  profiles : List String
  contacts : Dict ℕ Contact
  messages : Dict String Message
  bundles  : Dict String PreKeyBundle
  notices  : List Notice
  tasks    : List Task

/-! ## Failures -/

/-- How a request fails. -/
inductive Failure
  /-- `HTTPException`. -/
  | http (statusCode : ℕ) (detail : String)
  /-- The request model refuses the body: 422. -/
  | validation
  /-- Any other exception: 500. -/
  | internal
deriving DecidableEq

/-- What a handler does to the node. -/
abbrev Handler := EStateM Failure Node

/-! ## Python and pydantic -/

structure Runtime where
  /-- `str.lower`. -/
  lower : String → String
  /-- `datetime.fromtimestamp(ms / 1000.0, timezone.utc)`; none if it raises. -/
  fromTimestamp : ℤ → Option DateTime
  /-- `datetime.fromisoformat`; none if it raises. -/
  fromIsoformat : String → Option Stamp
  /-- The value pydantic makes for a field of type `str`, `int`, `bool` or `datetime`. -/
  str      : Json → Option String
  int      : Json → Option ℤ
  bool     : Json → Option Bool
  datetime : Json → Option Stamp

/-- A runtime that knows ASCII letters and one moment, and reads a field of each type only
from its own kind of JSON value. -/
def asciiRuntime : Runtime where
  lower s := String.ofList (s.toList.map Char.toLower)
  fromTimestamp ms :=
    if ms = 1700000000000 then some ⟨2023, 11, 14, 22, 13, 20, 0, by decide, by decide⟩ else none
  fromIsoformat _ := none
  str
    | .str s => some s
    | _ => none
  int
    | .int n => some n
    | _ => none
  bool
    | .bool b => some b
    | _ => none
  datetime _ := none

/-- A string that counts as true. -/
def truthy (s : Option String) : Option String := s.filter (· ≠ "")

theorem truthy_of_ne {s : String} (h : s ≠ "") : truthy (some s) = some s := by
  simp [truthy, Option.filter, h]

theorem ne_of_truthy {s : Option String} {x : String} (h : truthy s = some x) : x ≠ "" := by
  obtain ⟨-, hx⟩ := Option.filter_eq_some_iff.mp h
  simpa using hx

/-! ## Onion addresses -/

def isBase32 (c : Char) : Bool := ('a' ≤ c && c ≤ 'z') || ('2' ≤ c && c ≤ '7')

/-- `ONION_RE`: `^[a-z2-7]{16,56}\.onion$`, where `$` lets a final newline pass. -/
def isOnion (s : String) : Bool :=
  let label := s.toList.takeWhile isBase32
  16 ≤ label.length && label.length ≤ 56 &&
    (s.toList.dropWhile isBase32 == ".onion".toList ||
      s.toList.dropWhile isBase32 == ".onion\n".toList)

def validateOnion (R : Runtime) (onion : String) : Except Failure String :=
  let onion := R.lower (strip onion)
  if isOnion onion then .ok onion else .error (.http 400 "Invalid onion address")

/-! ## Statements -/

namespace Node

variable (n : Node)

/-- `select(User).where(username == username)`. -/
def user? (username : String) : Option User := n.users.find? fun u => u.username = username

/-- `select(Contact).where(owner_onion == owner, onion_address == onion)`, the first row. -/
def contact? (owner : Option String) (onion : String) : Option (ℕ × Contact) :=
  n.contacts.entries.find? fun e => some e.2.ownerOnion = owner ∧ e.2.onionAddress = onion

/-- The key SQLite gives to the next contact: one more than the largest. -/
def nextId : ℕ := n.contacts.keys.foldr max 0 + 1

def setContact (id : ℕ) (c : Contact) : Node := { n with contacts := n.contacts.insert id c }

def setMessage (id : String) (m : Message) : Node := { n with messages := n.messages.insert id m }

@[simp] theorem setContact_contacts (id : ℕ) (c : Contact) :
    (n.setContact id c).contacts = n.contacts.insert id c := rfl

@[simp] theorem setContact_users (id : ℕ) (c : Contact) :
    (n.setContact id c).users = n.users := rfl

@[simp] theorem setContact_messages (id : ℕ) (c : Contact) :
    (n.setContact id c).messages = n.messages := rfl

@[simp] theorem setMessage_messages (id : String) (m : Message) :
    (n.setMessage id m).messages = n.messages.insert id m := rfl

@[simp] theorem setMessage_users (id : String) (m : Message) :
    (n.setMessage id m).users = n.users := rfl

@[simp] theorem setMessage_contacts (id : String) (m : Message) :
    (n.setMessage id m).contacts = n.contacts := rfl

end Node

/-- `await emit_socket(event, data)`. -/
def emitSocket (notice : Notice) : Handler Unit :=
  modify fun n => { n with notices := n.notices ++ [notice] }

/-- `background_tasks.add_task`. -/
def addTask (task : Task) : Handler Unit :=
  modify fun n => { n with tasks := n.tasks ++ [task] }

/-- Insert a contact; its owner and its profile are foreign keys. -/
def insertContact (c : Contact) : Handler ℕ := do
  let n ← get
  if (∃ u ∈ n.users, u.onionAddress = some c.ownerOnion) ∧ c.profileId ∈ n.profiles then
    set (n.setContact n.nextId c)
    return n.nextId
  else throw .internal

/-- A message can be stored: `message_id` is unique, and SQLite integers have 64 bits. -/
def Node.Storable (n : Node) (id : String) (sequenceNumber : ℤ) : Prop :=
  n.messages.get? id = none ∧ -2 ^ 63 ≤ sequenceNumber ∧ sequenceNumber < 2 ^ 63

instance (n : Node) (id : String) (sequenceNumber : ℤ) : Decidable (n.Storable id sequenceNumber) :=
  inferInstanceAs (Decidable (_ ∧ _ ∧ _))

def insertMessage (id : String) (m : Message) : Handler Unit := do
  let n ← get
  if n.Storable id m.sequenceNumber then set (n.setMessage id m) else throw .internal

/-! ## Callers -/

/-- The session cookie of a local request; no `active_profile_id` counts as `default`. -/
structure Caller where
  username        : Option String
  activeProfileId : String
deriving DecidableEq

/-- `_get_current_user` of the routers for contacts and messages. -/
def getCurrentUser (caller : Caller) : Handler User := do
  match truthy caller.username with
  | none => throw (.http 401 "Not authenticated")
  | some username =>
    match (← get).user? username with
    | none => throw (.http 404 "User not found")
    | some user => return user

/-- The local node identity in the P2P router: `select(User).limit(1)`. -/
def localUser : Handler User := do
  match (← get).users.head? with
  | none => throw (.http 500 "Local user node not configured")
  | some user => return user

/-! ## What they do -/

section

variable (s : Node)

theorem localUser_apply : localUser s = match s.users.head? with
    | none => .error (.http 500 "Local user node not configured") s
    | some user => .ok user s := by
  unfold localUser
  rw [EStateM.apply_bind, EStateM.apply_get]
  dsimp only
  cases s.users.head? <;> rfl

/-- The session names no user, or a user of the node. -/
theorem getCurrentUser_cases (caller : Caller) :
    (∃ e, getCurrentUser caller s = .error e s) ∨
      ∃ user ∈ s.users, getCurrentUser caller s = .ok user s := by
  unfold getCurrentUser
  rcases truthy caller.username with _ | username
  · exact .inl ⟨_, rfl⟩
  · dsimp only
    rw [EStateM.apply_bind, EStateM.apply_get]
    dsimp only
    rcases huser : s.user? username with _ | user
    · exact .inl ⟨_, rfl⟩
    · exact .inr ⟨user, List.mem_of_find?_eq_some huser, rfl⟩

theorem insertContact_cases (c : Contact) :
    insertContact c s = .error .internal s ∨
      insertContact c s = .ok s.nextId (s.setContact s.nextId c) := by
  unfold insertContact
  rw [EStateM.apply_bind, EStateM.apply_get]
  dsimp only
  split_ifs
  · exact .inr rfl
  · exact .inl rfl

theorem insertMessage_apply (id : String) (m : Message) :
    insertMessage id m s = if s.Storable id m.sequenceNumber then .ok ⟨⟩ (s.setMessage id m)
      else .error .internal s := by
  unfold insertMessage
  rw [EStateM.apply_bind, EStateM.apply_get]
  dsimp only
  split_ifs <;> rfl

variable {s}

theorem lt_nextId {id : ℕ} (hid : id ∈ s.contacts.keys) : id < s.nextId := by
  unfold Node.nextId
  generalize s.contacts.keys = ids at hid
  induction ids with
  | nil => cases hid
  | cons first rest ih =>
    rw [List.foldr_cons]
    rcases List.mem_cons.mp hid with rfl | hrest
    · omega
    · have := ih hrest
      omega

/-- The next contact takes no key that is in use. -/
theorem get?_nextId : s.contacts.get? s.nextId = none := by
  rw [Dict.get?_eq_none_iff_notMem_keys]
  intro hid
  exact absurd (lt_nextId hid) (Nat.lt_irrefl _)

theorem contact?_eq_some {owner : Option String} {onion : String} {id : ℕ} {c : Contact}
    (h : s.contact? owner onion = some (id, c)) :
    (id, c) ∈ s.contacts.entries ∧ some c.ownerOnion = owner ∧ c.onionAddress = onion := by
  have hfound := List.find?_some h
  exact ⟨List.mem_of_find?_eq_some h, of_decide_eq_true hfound⟩

end

end AnonyMus.P2p
