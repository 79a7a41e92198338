import AnonyMus.Lib.Simulation
import AnonyMus.P2p.Contacts
import AnonyMus.P2p.Messages

/-!
# P2P node — requests

What remote nodes and the local user ask of a node, in any order. Every request
runs in its own session: what it raises is answered, and the next one starts
from the tables it left.

* `Request.run` — the handler of a request;
* `Change`, `run_change` — all that a request can do to the tables.
-/

namespace AnonyMus.P2p

inductive Request
  | handshake (body : Json)
  | accept (body : Json)
  | message (body : Json) (uuid : String)
  | delete (body : Json)
  | addContact (caller : Caller) (body : Json)
  | removeContact (caller : Caller) (contactId : ℤ)
  | acceptContact (caller : Caller) (body : Json)
  | sendMessage (caller : Caller) (body : Json) (uuid : String) (sentAt : DateTime) (timestamp : ℤ)
  | messageHistory (scan : List Row → List Row) (caller : Caller) (peerOnion : String) (limit : ℤ)
      (before cursor : Option String)
  | deleteMessage (caller : Caller) (messageId : String)

namespace Request

/-- The requests of `/p2p`, which anyone can send. -/
def isRemote : Request → Bool
  | handshake _ | accept _ | message _ _ | delete _ => true
  | _ => false

variable (R : Runtime)

/-- Handle the request; a body that does not fit its model is refused. -/
def run : Request → Handler Unit
  | handshake body => do
    let _ ← p2pHandshake R (← parsed (HandshakeRequest.read R body))
  | accept body => do
    let _ ← p2pAccept R (← parsed (AcceptRequest.read R body))
  | message body uuid => do
    let _ ← p2pMessage R (← parsed (P2PMessageRequest.read R body)) uuid
  | delete body => do
    let _ ← p2pDelete R (← parsed (P2PDeleteRequest.read R body))
  | addContact caller body => do
    let _ ← P2p.addContact caller (← parsed (AddContactRequest.read R body))
  | removeContact caller contactId => P2p.removeContact caller contactId
  | acceptContact caller body => do
    legacyAcceptContact R caller (← parsed (LegacyAcceptContactRequest.read R body))
  | sendMessage caller body uuid sentAt timestamp => do
    let _ ← P2p.sendMessage caller (← parsed (SendMessageRequest.read R body)) uuid sentAt timestamp
  | messageHistory scan caller peerOnion limit before cursor => do
    let _ ← P2p.messageHistory R scan caller peerOnion limit before cursor
  | deleteMessage caller messageId => P2p.deleteMessage caller messageId

end Request

/-! ## One request -/

section

variable {R : Runtime} {s : Node}

/-- A request without its answer: the body is refused, or its handler runs. -/
theorem state_parsed {α β : Type} (request : Option α) (handle : α → Handler β) (s : Node) :
    ((do let _ ← handle (← parsed request) : Handler Unit) s).state = match request with
      | none => s
      | some request => (handle request s).state := by
  rcases request with _ | request
  · rfl
  · exact EStateM.state_discard (handle request) () s

/-- The contact that an acceptance is about. -/
def answered (R : Runtime) (body : Json) (s : Node) : Option (ℕ × Contact) := do
  let request ← AcceptRequest.read R body
  let onion ← (validateOnion R request.onionAddress).toOption
  let user ← s.users.head?
  s.contact? user.onionAddress onion

/-- What a request can make of the tables. -/
inductive Change (R : Runtime) (s s' : Node) : Request → Prop
  | none (k : Request) (hcontacts : s'.contacts = s.contacts) (hmessages : s'.messages = s.messages) :
      Change R s s' k
  | pend {body id c} (hpending : c.status = .pendingIncoming)
      (hid : id = s.nextId ∨
        ∃ existing, (id, existing) ∈ s.contacts.entries ∧ existing.status ≠ .blocked)
      (hcontacts : s'.contacts = s.contacts.insert id c) (hmessages : s'.messages = s.messages) :
      Change R s s' (.handshake body)
  | answer {body id c c'} (hfound : answered R body s = some (id, c)) (haccepted : c'.status = .accepted)
      (hcontacts : s'.contacts = s.contacts.insert id c') (hmessages : s'.messages = s.messages) :
      Change R s s' (.accept body)
  | add {caller body c} (hpending : c.status = .pendingOutgoing)
      (hcontacts : s'.contacts = s.contacts.insert s.nextId c) (hmessages : s'.messages = s.messages) :
      Change R s s' (.addContact caller body)
  | remove {caller contactId} (id : ℕ) (hcontacts : s'.contacts = s.contacts.erase id)
      (hmessages : s'.messages = s.messages) : Change R s s' (.removeContact caller contactId)
  | confirm {caller body id c} (haccepted : c.status = .accepted)
      (hcontacts : s'.contacts = s.contacts.insert id c) (hmessages : s'.messages = s.messages) :
      Change R s s' (.acceptContact caller body)
  | file {k uuid m} (hfresh : s.messages.get? uuid = .none) (hcontacts : s'.contacts = s.contacts)
      (hmessages : s'.messages = s.messages.insert uuid m) : Change R s s' k
  | mark {k id m} (hm : s.messages.get? id = some m) (hcontacts : s'.contacts = s.contacts)
      (hmessages : s'.messages = s.messages.insert id { m with isDeleted := true }) : Change R s s' k

theorem run_change (k : Request) (s : Node) :
    Change R s (k.run R s).state k ∧ (k.run R s).state.users = s.users := by
  rcases k with body | body | ⟨body, uuid⟩ | body | ⟨caller, body⟩ | ⟨caller, contactId⟩ |
    ⟨caller, body⟩ | ⟨caller, body, uuid, sentAt, timestamp⟩ |
    ⟨scan, caller, peerOnion, limit, before, cursor⟩ | ⟨caller, messageId⟩ <;>
    rw [Request.run]
  case handshake =>
    rw [state_parsed]
    rcases HandshakeRequest.read R body with _ | request
    · exact ⟨.none _ rfl rfl, rfl⟩
    dsimp only
    rcases p2pHandshake_cases (R := R) s request with
      ⟨e, hrun⟩ | ⟨onion, user, id, c, s', hrun, -, -, hpending, hid, hcontacts, hmessages, husers⟩
      <;> rw [hrun]
    · exact ⟨.none _ rfl rfl, rfl⟩
    · refine ⟨.pend hpending (hid.imp_right ?_) hcontacts hmessages, husers⟩
      rintro ⟨existing, hfound, hblocked⟩
      exact ⟨existing, (contact?_eq_some hfound).1, hblocked⟩
  case accept =>
    rw [state_parsed]
    rcases hread : AcceptRequest.read R body with _ | request
    · exact ⟨.none _ rfl rfl, rfl⟩
    dsimp only
    rcases p2pAccept_cases (R := R) s request with
      ⟨e, hrun⟩ | ⟨onion, user, id, c, s', hrun, honion, huser, hfound, hcontacts, hmessages, husers⟩
      <;> rw [hrun]
    · exact ⟨.none _ rfl rfl, rfl⟩
    · refine ⟨.answer (c := c) ?_ rfl hcontacts hmessages, husers⟩
      simp [answered, hread, honion, huser, hfound, Except.toOption]
  case message =>
    rw [state_parsed]
    rcases P2PMessageRequest.read R body with _ | request
    · exact ⟨.none _ rfl rfl, rfl⟩
    dsimp only
    rcases p2pMessage_cases (R := R) s request uuid with
      ⟨e, hrun, -⟩ | ⟨_, _, s', hrun, -, hmessages, hcontacts, husers⟩ <;> rw [hrun]
    · exact ⟨.none _ rfl rfl, rfl⟩
    · -- an ephemeral message leaves the table alone
      rcases hmessages with ⟨hmessages, -⟩ | ⟨sentAt, hmessages, -, hstorable, -⟩
      · exact ⟨.none _ hcontacts hmessages, husers⟩
      · exact ⟨.file hstorable.1 hcontacts hmessages, husers⟩
  case delete =>
    rw [state_parsed]
    rcases P2PDeleteRequest.read R body with _ | request
    · exact ⟨.none _ rfl rfl, rfl⟩
    dsimp only
    rcases p2pDelete_cases (R := R) s request with
      ⟨e, hrun⟩ | ⟨s', hrun, hmessages, hcontacts, husers⟩ <;> rw [hrun]
    · exact ⟨.none _ rfl rfl, rfl⟩
    · rcases hmessages with hmessages | ⟨m, hm, hmessages⟩
      · exact ⟨.none _ hcontacts hmessages, husers⟩
      · exact ⟨.mark hm hcontacts hmessages, husers⟩
  case addContact =>
    rw [state_parsed]
    rcases AddContactRequest.read R body with _ | request
    · exact ⟨.none _ rfl rfl, rfl⟩
    dsimp only
    rcases addContact_cases s caller request with
      ⟨e, hrun⟩ | ⟨c, s', hrun, hpending, hcontacts, hmessages, husers⟩ <;> rw [hrun]
    · exact ⟨.none _ rfl rfl, rfl⟩
    · exact ⟨.add hpending hcontacts hmessages, husers⟩
  case removeContact =>
    rcases removeContact_cases s caller contactId with
      ⟨e, hrun⟩ | ⟨id, s', hrun, -, hcontacts, hmessages, husers⟩ <;> rw [hrun]
    · exact ⟨.none _ rfl rfl, rfl⟩
    · exact ⟨.remove id hcontacts hmessages, husers⟩
  case acceptContact =>
    rw [EStateM.apply_bind]
    rcases LegacyAcceptContactRequest.read R body with _ | request
    · exact ⟨.none _ rfl rfl, rfl⟩
    dsimp only [parsed, EStateM.apply_pure]
    rcases legacyAcceptContact_cases (R := R) s caller request with
      ⟨e, hrun⟩ | ⟨id, c, s', hrun, haccepted, hcontacts, -, hmessages, husers⟩ <;> rw [hrun]
    · exact ⟨.none _ rfl rfl, rfl⟩
    · exact ⟨.confirm haccepted hcontacts hmessages, husers⟩
  case sendMessage =>
    rw [state_parsed]
    rcases SendMessageRequest.read R body with _ | request
    · exact ⟨.none _ rfl rfl, rfl⟩
    dsimp only
    rcases sendMessage_cases s caller request uuid sentAt timestamp with
      ⟨e, hrun⟩ | ⟨onion, s', hrun, -, hstorable, hmessages, -, hcontacts, husers⟩ <;> rw [hrun]
    · exact ⟨.none _ rfl rfl, rfl⟩
    · exact ⟨.file hstorable.1 hcontacts hmessages, husers⟩
  case messageHistory =>
    rw [EStateM.state_discard, messageHistory_state]
    exact ⟨.none _ rfl rfl, rfl⟩
  case deleteMessage =>
    rcases deleteMessage_cases s caller messageId with
      ⟨e, hrun⟩ | ⟨m, s', hrun, hm, hmessages, hcontacts, husers⟩ <;> rw [hrun]
    · exact ⟨.none _ rfl rfl, rfl⟩
    · exact ⟨.mark hm hcontacts hmessages, husers⟩

end

end AnonyMus.P2p
