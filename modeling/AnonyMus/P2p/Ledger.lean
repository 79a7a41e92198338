import AnonyMus.P2p.Isolation
import AnonyMus.P2p.Reachable

/-!
# P2P node — the requests before a reset

`reset_data` and `get_node_info` of `transports/p2p/routers/node.py`, with the requests to the
routers for contacts, messages and keys, to the endpoints of the old client and to those of
peers. Contacts are owned by the address that the account had when they came.

* `legacyAddContact`, … , `getNodeInfo`, `resetData` — the code;
* `Ledger`, `act` — runs, with a note of whose message each one is;
* `Sound` — names, addresses and owners;
* `sound_after` — every run keeps them apart.
-/

namespace AnonyMus.P2p.Reset

open EStateM
open Keys (PreKeyBundlePublish owns)
open Relay (strip)

/-! ## The old client -/

structure LegacyAddContactRequest where
  onionAddress : String
  nickname     : String

structure LegacySendMessageRequest where
  recipientOnion : String
  ciphertextB64  : String
  ivB64          : String
  sequenceNumber : ℤ

/-- The members that the tables of `Node` have. -/
structure LegacySaveSecretRequest where
  onionAddress  : String
  sharedSecret  : String
  peerPublicKey : String

structure LegacyDeleteContactRequest where
  onionAddress : String

section

variable (R : Runtime) (caller : Caller)

def legacyAddContact (body : LegacyAddContactRequest) : Handler Unit := do
  let user ← verifiedUser caller
  let onion := R.lower (strip body.onionAddress)
  match (← get).profileContact? user.onionAddress onion caller.activeProfileId with
  | some _ => throw (.http 409 "Contact already exists")
  | none =>
    match user.onionAddress with
    -- `owner_onion` may not be null
    | none => throw .internal
    | some owner =>
      let _ ← insertContact {
        ownerOnion := owner, onionAddress := onion, nickname := some body.nickname,
        publicKeyB64 := none, sharedSecretB64 := none, status := .pendingOutgoing,
        verified := false, profileId := caller.activeProfileId }

/-- The row of a message that the old client sends. -/
def legacyRow (onion : String) (body : LegacySendMessageRequest) (sentAt : DateTime) :
    Message where
  senderOnion    := onion
  recipientOnion := body.recipientOnion
  ciphertextB64  := body.ciphertextB64
  ivB64          := body.ivB64
  sequenceNumber := body.sequenceNumber
  sentAt         := sentAt
  delivered      := false
  disappearsAt   := none
  isDeleted      := false
  sealedSender   := none

/-- `uuid` is what `uuid4` draws, and `sentAt` the default of the column. -/
def legacySendMessage (body : LegacySendMessageRequest) (uuid : String) (sentAt : DateTime) :
    Handler String := do
  let user ← verifiedUser caller
  match user.onionAddress with
  -- `sender_onion` may not be null
  | none => throw .internal
  | some onion =>
    insertMessage uuid (legacyRow onion body sentAt)
    return uuid

def legacySaveSecret (body : LegacySaveSecretRequest) : Handler Unit := do
  let _ ← verifyAuth caller
  match (← get).anyContact? (R.lower (strip body.onionAddress)) caller.activeProfileId with
  | none => throw (.http 404 "Contact not found")
  | some (id, contact) =>
    modify fun n => n.setContact id { contact with
      sharedSecretB64 := some body.sharedSecret, publicKeyB64 := some body.peerPublicKey,
      status := .accepted }

def legacyDeleteContact (body : LegacyDeleteContactRequest) : Handler Unit := do
  let user ← verifiedUser caller
  let onion := R.lower (strip body.onionAddress)
  match (← get).profileContact? user.onionAddress onion caller.activeProfileId with
  | none => return
  | some (id, _) => modify fun n => { n with contacts := n.contacts.erase id }

end

/-! ## The node -/

/-- An address that Tor has made. -/
abbrev TorAddress := { onion : String // isOnion onion = true }

/-- `get_node_info`; `configured` is the address that the old database has for the node. An UPDATE
that SQLite refuses is passed over. -/
def getNodeInfo (username : Option String) (configured : Option TorAddress) :
    Handler (Option String) := do
  let user ← authUser username
  match truthy user.onionAddress, configured with
  | some onion, _ => return some onion
  | none, none => return none
  | none, some onion =>
    modify fun n => (n.setAddress? user.username onion).getD n
    return some onion.val

/-- The account without an address. -/
def User.reset (username : String) (u : User) : User :=
  if u.username = username then { u with onionAddress := none } else u

/-- What `reset_data` leaves; nothing is filed under no address. -/
def wipe (user : User) (n : Node) : Node :=
  { n with
    messages := n.messages.filter fun row =>
      ¬ (some row.2.senderOnion = user.onionAddress ∨ some row.2.recipientOnion = user.onionAddress)
    contacts := n.contacts.filter fun row => ¬ some row.2.ownerOnion = user.onionAddress
    users    := n.users.map (User.reset user.username) }

/-- `reset_data`; the old database and its settings are left out. -/
def resetData (username : Option String) (confirm : String) : Handler Unit := do
  let user ← authUser username
  if confirm.length ≠ 5 then throw .validation
  if confirm ≠ "RESET" then throw (.http 400 "Confirmation phrase 'RESET' is required")
  modify (wipe user)

/-! ## Runs -/

inductive Event
  | request (k : Request)
  | resolve (caller : Caller) (messageId : String) (body : ResolveSenderRequest)
  | updateReceipts (caller : Caller) (data : Json)
  | legacyAdd (caller : Caller) (body : LegacyAddContactRequest)
  | legacySend (caller : Caller) (body : LegacySendMessageRequest) (uuid : String)
      (sentAt : DateTime)
  | saveSecret (caller : Caller) (body : LegacySaveSecretRequest)
  | legacyDelete (caller : Caller) (body : LegacyDeleteContactRequest)
  | publish (username : Option String) (body : PreKeyBundlePublish) (now : DateTime)
  | nodeInfo (username : Option String) (configured : Option TorAddress)
  | reset (username : Option String) (confirm : String)

/-- The node, and for the proofs the name of the user who has sent, or has received, the message
with an id. -/
structure Ledger where
  node    : Node
  parties : Dict String String

/-- The id of the message that an event can store, and whose message it is. -/
def Event.files : Event → Option (String × (Node → Option User))
  | .request (.message _ uuid) => some (uuid, fun n => n.users.head?)
  | .request (.sendMessage caller _ uuid _ _) => some (uuid, fun n => n.sessionUser? caller)
  | .legacySend caller _ uuid _ => some (uuid, fun n => n.sessionUser? caller)
  | _ => none

/-- A message with a new id is noted. -/
def Ledger.note (l : Ledger) (files : Option (String × (Node → Option User))) :
    Dict String String :=
  match files with
  | none => l.parties
  | some (id, user?) =>
    match user? l.node with
    | none => l.parties
    | some user =>
      if l.node.messages.get? id = none then l.parties.insert id user.username else l.parties

section

variable (R : Runtime)

def Event.run : Event → Handler Unit
  | .request k => k.run R
  | .resolve caller messageId body => do
    let _ ← resolveSender R caller messageId body
  | .updateReceipts caller data => legacyUpdateReceipts R caller data
  | .legacyAdd caller body => legacyAddContact R caller body
  | .legacySend caller body uuid sentAt => do
    let _ ← legacySendMessage caller body uuid sentAt
  | .saveSecret caller body => legacySaveSecret R caller body
  | .legacyDelete caller body => legacyDeleteContact R caller body
  | .publish username body now => do
    let _ ← publishBundle R username body now
  | .nodeInfo username configured => do
    let _ ← getNodeInfo username configured
  | .reset username confirm => resetData username confirm

def act (e : Event) : EStateM Failure Ledger Unit := fun l =>
  match e.run R l.node with
  | .ok a n => .ok a ⟨n, l.note e.files⟩
  | .error err n => .error err ⟨n, l.note e.files⟩

end

/-- Names that registration allows, none of which has an address, contacts or messages yet. -/
structure Started (l : Ledger) : Prop where
  usernames : ∀ u ∈ l.node.users, '.' ∉ u.username.toList
  addresses : ∀ u ∈ l.node.users, u.onionAddress = none
  contacts  : l.node.contacts = .empty
  messages  : l.node.messages = .empty

/-! ## Accounts and owners -/

/-- Names, addresses and the owners of contacts are of three kinds that do not meet. -/
structure Sound (n : Node) : Prop where
  usernames : ∀ u ∈ n.users, '.' ∉ u.username.toList
  addresses : ∀ u ∈ n.users, ∀ onion ∈ u.onionAddress, isOnion onion = true
  owners    : ∀ id c, n.contacts.get? id = some c → isOnion c.ownerOnion = true

section Accounts

variable {R : Runtime} {n n' : Node}

theorem Sound.congr (h : Sound n) (husers : n'.users = n.users)
    (hcontacts : n'.contacts = n.contacts) : Sound n' :=
  ⟨husers ▸ h.usernames, husers ▸ h.addresses, hcontacts ▸ h.owners⟩

theorem Sound.setContact (h : Sound n) (id : ℕ) {c : Contact} (hc : isOnion c.ownerOnion = true) :
    Sound (n.setContact id c) := by
  refine ⟨h.usernames, h.addresses, fun id' c' hc' => ?_⟩
  rw [Node.setContact_contacts, Dict.get?_insert] at hc'
  split_ifs at hc'
  · exact Option.some.inj hc' ▸ hc
  · exact h.owners id' c' hc'

theorem Sound.eraseContact (h : Sound n) (id : ℕ) :
    Sound { n with contacts := n.contacts.erase id } := by
  refine ⟨h.usernames, h.addresses, fun id' c' hc' => ?_⟩
  dsimp only at hc'
  rw [Dict.get?_erase] at hc'
  split_ifs at hc'
  exact h.owners id' c' hc'

/-- A contact that is found among the rows has an owner of the right kind. -/
theorem Sound.owner_of_find (h : Sound n) {p : ℕ × Contact → Bool} {id : ℕ} {c : Contact}
    (hfound : n.contacts.entries.find? p = some (id, c)) : isOnion c.ownerOnion = true :=
  h.owners id c (Dict.mem_entries_iff.mp (List.mem_of_find?_eq_some hfound))

theorem preserves_of_state {α : Type} {x : Handler α} (h : ∀ s, (x s).state = s) :
    Preserves Sound x := fun s hs => (h s).symm ▸ hs

theorem getCurrentUser_state (caller : Caller) (s : Node) : (getCurrentUser caller s).state = s := by
  rcases getCurrentUser_cases s caller with ⟨e, huser⟩ | ⟨user, -, huser⟩ <;> rw [huser] <;> rfl

/-- The session of the old client names an account, or none. -/
theorem verifiedUser_cases (caller : Caller) (s : Node) :
    (∃ e, verifiedUser caller s = .error e s) ∨
      ∃ user, s.sessionUser? caller = some user ∧ verifiedUser caller s = .ok user s := by
  unfold verifiedUser Node.sessionUser?
  rcases truthy caller.username with _ | username
  · exact .inl ⟨_, rfl⟩
  dsimp only
  rw [apply_bind, apply_get]
  dsimp only [Option.bind_some]
  rcases s.user? username with _ | user
  · exact .inl ⟨_, rfl⟩
  · exact .inr ⟨user, rfl, rfl⟩

theorem verifiedUser_state (caller : Caller) (s : Node) : (verifiedUser caller s).state = s := by
  rcases verifiedUser_cases caller s with ⟨e, huser⟩ | ⟨user, -, huser⟩ <;> rw [huser] <;> rfl

theorem localUser_state (s : Node) : (localUser s).state = s := by
  rw [localUser_apply]
  rcases s.users.head? with _ | user <;> rfl

theorem verifyAuth_state (caller : Caller) (s : Node) : (verifyAuth caller s).state = s := by
  unfold verifyAuth
  rcases truthy caller.username with _ | username <;> rfl

theorem ofExcept_state {α : Type} (x : Except Failure α) (s : Node) :
    ((ofExcept x : Handler α) s).state = s := Keeps.ofExcept (g := id) x s

/-- The owner of a new contact is the address of an account. -/
theorem preserves_insertContact (c : Contact) : Preserves Sound (insertContact c) := by
  unfold insertContact
  refine Preserves.get fun s hs => ?_
  split_ifs with hinsert
  · obtain ⟨⟨u, hu, howner⟩, -⟩ := hinsert
    exact hs.setContact s.nextId (hs.addresses u hu _ howner)
  · exact hs

theorem preserves_addContact (caller : Caller) (body : AddContactRequest) :
    Preserves Sound (addContact caller body) := by
  unfold addContact
  refine (preserves_of_state (getCurrentUser_state caller)).bind fun user => ?_
  refine Preserves.get fun s hs => ?_
  rcases s.profileContact? _ body.onionAddress caller.activeProfileId with _ | _
  · refine (preserves_insertContact _).bind (fun id => ?_) s hs
    rcases truthy user.onionAddress with _ | onion
    · exact Preserves.pure _
    · refine Preserves.bind (Preserves.modify fun n hn => ?_) fun _ => Preserves.pure _
      exact hn.congr rfl rfl
  · exact hs

theorem preserves_legacyAddContact (caller : Caller) (body : LegacyAddContactRequest) :
    Preserves Sound (legacyAddContact R caller body) := by
  unfold legacyAddContact
  refine (preserves_of_state (verifiedUser_state caller)).bind fun user => ?_
  refine Preserves.get fun s hs => ?_
  rcases s.profileContact? _ _ caller.activeProfileId with _ | _
  · rcases user.onionAddress with _ | owner
    · exact hs
    · exact (preserves_insertContact _).bind (fun _ => Preserves.pure _) s hs
  · exact hs

theorem preserves_legacyAcceptContact (caller : Caller) (body : LegacyAcceptContactRequest) :
    Preserves Sound (legacyAcceptContact R caller body) := by
  unfold legacyAcceptContact
  refine (preserves_of_state (verifiedUser_state caller)).bind fun user => ?_
  refine Preserves.get fun s hs => ?_
  rcases hfound : s.profileContact? _ _ caller.activeProfileId with _ | ⟨id, contact⟩
  · exact hs
  · have howner : isOnion contact.ownerOnion = true := hs.owner_of_find hfound
    exact (hs.setContact id (c := { contact with
      sharedSecretB64 := some body.sharedSecret, status := .accepted }) howner).congr rfl rfl

theorem preserves_legacySaveSecret (caller : Caller) (body : LegacySaveSecretRequest) :
    Preserves Sound (legacySaveSecret R caller body) := by
  unfold legacySaveSecret
  refine (preserves_of_state (verifyAuth_state caller)).bind fun _ => ?_
  refine Preserves.get fun s hs => ?_
  rcases hfound : s.anyContact? _ caller.activeProfileId with _ | ⟨id, contact⟩
  · exact hs
  · have howner : isOnion contact.ownerOnion = true := hs.owner_of_find hfound
    exact hs.setContact id howner

theorem preserves_legacyUpdateReceipts (caller : Caller) (data : Json) :
    Preserves Sound (legacyUpdateReceipts R caller data) := by
  unfold legacyUpdateReceipts
  refine (preserves_of_state (verifyAuth_state caller)).bind fun _ => ?_
  rcases receiptsUpdate R data with _ | ⟨onion, sendReceipts⟩
  · exact Preserves.throw _
  refine Preserves.get fun s hs => ?_
  rcases hfound : s.anyContact? onion caller.activeProfileId with _ | ⟨id, contact⟩
  · exact hs
  · have howner : isOnion contact.ownerOnion = true := hs.owner_of_find hfound
    exact hs.setContact id howner

theorem preserves_legacyDeleteContact (caller : Caller) (body : LegacyDeleteContactRequest) :
    Preserves Sound (legacyDeleteContact R caller body) := by
  unfold legacyDeleteContact
  refine (preserves_of_state (verifiedUser_state caller)).bind fun user => ?_
  refine Preserves.get fun s hs => ?_
  rcases s.profileContact? _ _ caller.activeProfileId with _ | ⟨id, _⟩
  · exact hs
  · exact hs.eraseContact id

theorem preserves_p2pHandshake (body : HandshakeRequest) :
    Preserves Sound (p2pHandshake R body) := by
  unfold p2pHandshake
  refine (preserves_of_state (ofExcept_state _)).bind fun onion => ?_
  refine (preserves_of_state localUser_state).bind fun user => ?_
  refine Preserves.get fun s hs => ?_
  have hnotify : Preserves Sound (do
      emitSocket (.handshakeReceived onion body.nickname body.publicKey)
      emitSocket (.contactStatusChange onion .pendingIncoming)
      return "pending") := fun n hn => hn.congr rfl rfl
  rcases hfound : s.contact? user.onionAddress onion with _ | ⟨id, existing⟩
  · -- the contact of a sender that is not known
    rcases user.onionAddress with _ | owner
    · exact hs
    · exact (preserves_insertContact _).bind (fun _ => hnotify) s hs
  · -- the owner of a contact that is there stays
    dsimp only
    have howner : isOnion existing.ownerOnion = true := hs.owner_of_find hfound
    by_cases hblocked : existing.status = .blocked
    · rw [if_pos hblocked]
      exact hs
    · rw [if_neg hblocked]
      exact hnotify _ (hs.setContact id howner)

/-- The requests of peers and of the current client. -/
theorem preserves_request (k : Request) : Preserves Sound (k.run R) := by
  intro s hs
  -- contacts are added, changed or removed; accounts stay as they are
  rcases k with body | body | ⟨body, uuid⟩ | body | ⟨caller, body⟩ | ⟨caller, contactId⟩ |
    ⟨caller, body⟩ | ⟨caller, body, uuid, sentAt, timestamp⟩ |
    ⟨scan, caller, peerOnion, limit, before, cursor⟩ | ⟨caller, messageId⟩ <;>
    rw [Request.run]
  case handshake =>
    rw [state_parsed]
    rcases HandshakeRequest.read R body with _ | request
    · exact hs
    · exact preserves_p2pHandshake request s hs
  case accept =>
    rw [state_parsed]
    rcases AcceptRequest.read R body with _ | request
    · exact hs
    dsimp only
    rcases p2pAccept_cases (R := R) s request with
      ⟨e, hrun⟩ | ⟨onion, user, id, c, s', hrun, -, -, hfound, hcontacts, -, husers⟩ <;> rw [hrun]
    · exact hs
    · have howner : isOnion c.ownerOnion = true := hs.owner_of_find hfound
      exact (hs.setContact id (c := { c with
        publicKeyB64 := some request.publicKey, status := .accepted }) howner).congr husers
          hcontacts
  case message =>
    rw [state_parsed]
    rcases P2PMessageRequest.read R body with _ | request
    · exact hs
    dsimp only
    rcases p2pMessage_cases (R := R) s request uuid with
      ⟨e, hrun, -⟩ | ⟨_, _, s', hrun, -, -, hcontacts, husers⟩ <;> rw [hrun]
    · exact hs
    · exact hs.congr husers hcontacts
  case delete =>
    rw [state_parsed]
    rcases P2PDeleteRequest.read R body with _ | request
    · exact hs
    dsimp only
    rcases p2pDelete_cases (R := R) s request with
      ⟨e, hrun⟩ | ⟨s', hrun, -, hcontacts, husers⟩ <;> rw [hrun]
    · exact hs
    · exact hs.congr husers hcontacts
  case addContact =>
    rw [state_parsed]
    rcases AddContactRequest.read R body with _ | request
    · exact hs
    · exact preserves_addContact caller request s hs
  case removeContact =>
    rcases removeContact_cases s caller contactId with
      ⟨e, hrun⟩ | ⟨id, s', hrun, -, hcontacts, -, husers⟩ <;> rw [hrun]
    · exact hs
    · exact (hs.eraseContact id).congr husers hcontacts
  case acceptContact =>
    rw [apply_bind]
    rcases LegacyAcceptContactRequest.read R body with _ | request
    · exact hs
    · exact preserves_legacyAcceptContact caller request s hs
  case sendMessage =>
    rw [state_parsed]
    rcases SendMessageRequest.read R body with _ | request
    · exact hs
    dsimp only
    rcases sendMessage_cases s caller request uuid sentAt timestamp with
      ⟨e, hrun⟩ | ⟨onion, s', hrun, -, -, -, -, hcontacts, husers⟩ <;> rw [hrun]
    · exact hs
    · exact hs.congr husers hcontacts
  case messageHistory =>
    rw [state_discard, messageHistory_state]
    exact hs
  case deleteMessage =>
    rcases deleteMessage_cases s caller messageId with
      ⟨e, hrun⟩ | ⟨m, s', hrun, -, -, hcontacts, husers⟩ <;> rw [hrun]
    · exact hs
    · exact hs.congr husers hcontacts

/-- Naming a sender is refused, or deletes the message, or writes its sender. -/
theorem resolveSender_writes (caller : Caller) (messageId : String) (body : ResolveSenderRequest)
    (s : Node) :
    ∃ messages,
      (resolveSender R caller messageId body s).state = { s with messages } ∧
      (messages = s.messages ∨ messages = s.messages.erase messageId ∨
        ∃ msg, s.messages.get? messageId = some msg ∧
          messages = s.messages.insert messageId
            { msg with senderOnion := R.lower (strip body.senderOnion) }) := by
  unfold resolveSender
  rw [apply_bind]
  rcases getCurrentUser_cases s caller with ⟨e, huser⟩ | ⟨user, -, huser⟩ <;> rw [huser]
  · exact ⟨_, rfl, .inl rfl⟩
  dsimp only
  rw [apply_bind, apply_get]
  dsimp only
  rcases hmsg : s.messages.get? messageId with _ | msg
  · exact ⟨_, rfl, .inl rfl⟩
  dsimp only
  split_ifs
  · exact ⟨_, rfl, .inr (.inl rfl)⟩
  · exact ⟨_, rfl, .inr (.inl rfl)⟩
  · exact ⟨_, rfl, .inr (.inr ⟨msg, rfl, rfl⟩)⟩

/-- Sending by the old client is refused, or there is one more message, from the account. -/
theorem legacySendMessage_cases (caller : Caller) (body : LegacySendMessageRequest) (uuid : String)
    (sentAt : DateTime) (s : Node) :
    (∃ e, legacySendMessage caller body uuid sentAt s = .error e s) ∨
      ∃ user onion, s.sessionUser? caller = some user ∧ user.onionAddress = some onion ∧
        s.messages.get? uuid = none ∧
        legacySendMessage caller body uuid sentAt s =
          .ok uuid (s.setMessage uuid (legacyRow onion body sentAt)) := by
  unfold legacySendMessage
  rw [apply_bind]
  rcases verifiedUser_cases caller s with ⟨e, huser⟩ | ⟨user, hsession, huser⟩ <;> rw [huser]
  · exact .inl ⟨e, rfl⟩
  dsimp only
  rcases honion : user.onionAddress with _ | onion
  · exact .inl ⟨_, rfl⟩
  dsimp only
  rw [apply_bind, insertMessage_apply]
  split_ifs with hstorable
  · exact .inr ⟨user, onion, hsession, honion, hstorable.1, rfl⟩
  · exact .inl ⟨_, rfl⟩

/-- An account that has no address may get one; nothing else changes. -/
inductive Names? (n n' : Node) : Prop
  | same (husers : n'.users = n.users) : Names? n n'
  | named (user : User) (onion : String) (huser : n.user? user.username = some user)
      (hnone : truthy user.onionAddress = none) (honion : isOnion onion = true)
      (husers : n'.users = n.users.map (User.renamed user.username onion)) : Names? n n'

theorem Names?.congr {n'' : Node} (h : Names? n n') (husers : n''.users = n'.users) :
    Names? n n'' := by
  cases h with
  | same hsame => exact .same (husers.trans hsame)
  | named user onion hfound hnone honion hnamed =>
    exact .named user onion hfound hnone honion (husers.trans hnamed)

/-- The address goes to an account that has none. -/
theorem setAddress?_names {user : User} {onion : String} (hfound : n.user? user.username = some user)
    (hnone : truthy user.onionAddress = none) (honion : isOnion onion = true)
    (hset : n.setAddress? user.username onion = some n') :
    Names? n n' ∧ n'.contacts = n.contacts ∧ n'.messages = n.messages := by
  obtain ⟨rfl, -⟩ := setAddress?_eq_some hset
  exact ⟨.named user onion hfound hnone honion rfl, rfl, rfl⟩

theorem publishBundle_names (username : Option String) (body : PreKeyBundlePublish)
    (now : DateTime) (s : Node) :
    Names? s (publishBundle R username body now s).state ∧
      (publishBundle R username body now s).state.contacts = s.contacts ∧
      (publishBundle R username body now s).state.messages = s.messages := by
  rcases publishBundle_cases (R := R) username body now s with
    ⟨e, hrun⟩ | ⟨user, onion, s', hfound, honion, hset, hrun⟩ <;> rw [hrun]
  · exact ⟨.same rfl, rfl, rfl⟩
  rcases bootstrap?_eq_some hset with rfl | ⟨hnone, hset⟩
  · exact ⟨.same rfl, rfl, rfl⟩
  · obtain ⟨hnames, hcontacts, hmessages⟩ := setAddress?_names hfound hnone honion hset
    exact ⟨hnames.congr rfl, hcontacts, hmessages⟩

theorem getNodeInfo_names (username : Option String) (configured : Option TorAddress) (s : Node) :
    Names? s (getNodeInfo username configured s).state ∧
      (getNodeInfo username configured s).state.contacts = s.contacts ∧
      (getNodeInfo username configured s).state.messages = s.messages := by
  unfold getNodeInfo
  rw [apply_bind]
  rcases authUser_cases username s with ⟨e, huser⟩ | ⟨user, hfound, -, huser⟩ <;> rw [huser]
  · exact ⟨.same rfl, rfl, rfl⟩
  dsimp only
  rcases hnone : truthy user.onionAddress with _ | own
  · rcases configured with _ | onion
    · exact ⟨.same rfl, rfl, rfl⟩
    dsimp only
    rw [apply_bind, apply_modify]
    dsimp only
    rcases hset : s.setAddress? user.username onion with _ | s'
    · exact ⟨.same rfl, rfl, rfl⟩
    · exact setAddress?_names hfound hnone onion.property hset
  · exact ⟨.same rfl, rfl, rfl⟩

/-- A reset is refused, or wipes for an account. -/
theorem resetData_cases (username : Option String) (confirm : String) (s : Node) :
    (∃ e, resetData username confirm s = .error e s) ∨
      ∃ user, s.user? user.username = some user ∧ truthy username = some user.username ∧
        resetData username confirm s = .ok ⟨⟩ (wipe user s) := by
  unfold resetData
  rw [apply_bind]
  rcases authUser_cases username s with ⟨e, huser⟩ | ⟨user, hfound, hname, huser⟩ <;> rw [huser]
  · exact .inl ⟨e, rfl⟩
  dsimp only
  by_cases hlength : confirm.length ≠ 5
  · rw [if_pos hlength]
    exact .inl ⟨_, rfl⟩
  rw [if_neg hlength]
  by_cases hconfirm : confirm ≠ "RESET"
  · rw [if_pos hconfirm]
    exact .inl ⟨_, rfl⟩
  · rw [if_neg hconfirm]
    exact .inr ⟨user, hfound, hname, rfl⟩

theorem Sound.names (h : Sound n) (hnames : Names? n n') (hcontacts : n'.contacts = n.contacts) :
    Sound n' := by
  cases hnames with
  | same husers => exact h.congr husers hcontacts
  | named user onion _ _ honion husers =>
    -- names stay, and the new address is one
    refine ⟨?_, ?_, hcontacts ▸ h.owners⟩
    · rw [husers]
      intro u hu
      obtain ⟨u₀, hu₀, rfl⟩ := List.mem_map.mp hu
      unfold User.renamed
      split
      · exact h.usernames u₀ hu₀
      · exact h.usernames u₀ hu₀
    · rw [husers]
      intro u hu onion' honion'
      obtain ⟨u₀, hu₀, rfl⟩ := List.mem_map.mp hu
      unfold User.renamed at honion'
      split at honion'
      · exact Option.some.inj honion' ▸ honion
      · exact h.addresses u₀ hu₀ onion' honion'

theorem Sound.wipe (h : Sound n) (user : User) : Sound (wipe user n) := by
  -- names stay, and an address is cleared
  refine ⟨?_, ?_, fun id c hc => h.owners id c (Dict.get?_filter.mp hc).1⟩
  · intro u hu
    obtain ⟨u₀, hu₀, rfl⟩ := List.mem_map.mp hu
    unfold User.reset
    split
    · exact h.usernames u₀ hu₀
    · exact h.usernames u₀ hu₀
  · intro u hu onion honion
    obtain ⟨u₀, hu₀, rfl⟩ := List.mem_map.mp hu
    unfold User.reset at honion
    split at honion
    · cases honion
    · exact h.addresses u₀ hu₀ onion honion

theorem preserves_run (e : Event) : Preserves Sound (e.run R) := by
  intro s hs
  cases e with
  | request k => exact preserves_request k s hs
  | resolve caller messageId body =>
    rw [Event.run, state_discard]
    obtain ⟨messages, hstate, -⟩ := resolveSender_writes (R := R) caller messageId body s
    rw [hstate]
    exact hs.congr rfl rfl
  | updateReceipts caller data => exact preserves_legacyUpdateReceipts caller data s hs
  | legacyAdd caller body => exact preserves_legacyAddContact caller body s hs
  | legacySend caller body uuid sentAt =>
    rw [Event.run, state_discard]
    rcases legacySendMessage_cases caller body uuid sentAt s with
      ⟨e, hrun⟩ | ⟨user, onion, -, -, -, hrun⟩ <;> rw [hrun]
    · exact hs
    · exact hs.congr rfl rfl
  | saveSecret caller body => exact preserves_legacySaveSecret caller body s hs
  | legacyDelete caller body => exact preserves_legacyDeleteContact caller body s hs
  | publish username body now =>
    rw [Event.run, state_discard]
    have hnames := publishBundle_names (R := R) username body now s
    exact hs.names hnames.1 hnames.2.1
  | nodeInfo username configured =>
    rw [Event.run, state_discard]
    have hnames := getNodeInfo_names username configured s
    exact hs.names hnames.1 hnames.2.1
  | reset username confirm =>
    rcases resetData_cases username confirm s with ⟨e, hrun⟩ | ⟨user, -, -, hrun⟩ <;>
      rw [Event.run, hrun]
    · exact hs
    · exact hs.wipe user

theorem act_state (e : Event) (l : Ledger) :
    (act R e l).state = ⟨(e.run R l.node).state, l.note e.files⟩ := by
  unfold act
  rcases e.run R l.node with ⟨a, n⟩ | ⟨err, n⟩ <;> rfl

theorem sound_after {start : Ledger} (hstart : Sound start.node) (events : List Event) :
    Sound (after (act R) events start).node := by
  refine after_invariant (fun e (l : Ledger) (hl : Sound l.node) => ?_) hstart
  rw [act_state]
  exact preserves_run e l.node hl

theorem Started.sound {l : Ledger} (h : Started l) : Sound l.node := by
  refine ⟨h.usernames, fun u hu onion honion => ?_, fun id c hc => ?_⟩
  · rw [h.addresses u hu] at honion
    cases honion
  · rw [h.contacts] at hc
    cases hc

end Accounts

end AnonyMus.P2p.Reset
