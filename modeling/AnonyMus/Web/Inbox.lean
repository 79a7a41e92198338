import AnonyMus.P2p.Deliverable
import AnonyMus.P2p.Isolation
import AnonyMus.P2p.Monotonic
import AnonyMus.P2p.Paging
import AnonyMus.Web.Opening

/-!
# Web client and node — sealed messages in a conversation

The node files a sealed message under `sealed` and tells the client in an event.
A client that is connected opens the block and has the sender written by
`resolve_sender`; `loadMessages` asks for what is filed under the peer.

* `System`, `act` — the node, the client, and the events on their way;
* `Good` — a loaded conversation has the sealed messages of the peer, under its name;
* `Allowed` — the client has handled the event of each of them;
* `Sound` — under which sender a sealed message stands;
* `conversation_complete_iff` — every load is good exactly when all events were handled before it.
-/

namespace AnonyMus.Web.Inbox

open EStateM (AllMeet apply_bind apply_get apply_ofExcept state_bind state_discard)
open P2p (Node Runtime Row MessageData Notice Request)
open P2p.Isolation (SignedIn Resolves session)
open Relay (strip)

/-! ## The system -/

/-- A sealed message that an accepted contact has delivered. -/
structure Sealed where
  messageId : String
  sender    : String
  /-- It is not ephemeral. -/
  kept      : Bool

/-- The node and the client, the `message_received` events that the client has not handled, and for
the proofs what was delivered, which events were handled, and which ids were drawn. -/
structure System where
  node     : Node
  client   : Client
  online   : Bool
  arriving : List (String × MessageData)
  delivered : List Sealed
  handled  : List String
  drawn    : List String

inductive Event
  | request (k : Request)
  | connect
  | disconnect
  /-- An event does not reach the client: the connection breaks, or the page is closed. -/
  | lose (i : ℕ)
  | handle (i : ℕ) (supply : Supply)
  | load (peerOnion : String) (limit : ℤ) (scan : List Row → List Row) (supply : String → Supply)
  /-- What else the client does on its own. -/
  | browse (e : MessagesEvent)

def uiBlock (block : P2p.SealedSenderBlock) : SealedSenderBlock :=
  ⟨block.ephemeralPub, block.ciphertext, block.iv⟩

/-- A message of the history. -/
def uiRow (row : Row) : UiMessage where
  messageId      := row.1
  senderOnion    := row.2.senderOnion
  recipientOnion := row.2.recipientOnion
  ciphertextB64  := row.2.ciphertextB64
  ivB64          := row.2.ivB64
  sequenceNumber := row.2.sequenceNumber
  sealedSender   := row.2.sealedSender.map uiBlock

/-- The message of an event; no function here reads the recipient. -/
def uiData (data : MessageData) : UiMessage where
  messageId      := data.messageId
  senderOnion    := data.senderOnion
  recipientOnion := data.recipientOnion.getD ""
  ciphertextB64  := data.ciphertextB64
  ivB64          := data.ivB64
  sequenceNumber := data.sequenceNumber
  sealedSender   := data.sealedSender.map uiBlock

section

variable (R : Runtime) (W : Platform) (B : Browser) (username : String)

/-- `message_received`, with its two members. -/
def messageEvent : Notice → Option (String × MessageData)
  | .messageReceived senderOnion message => some (senderOnion, message)
  | _ => none

/-- The message events of a request; only `p2p_message` has one. -/
def emitted (k : Request) (n : Node) : List (String × MessageData) :=
  match k with
  | .message _ _ => ((k.run R n).state.notices.drop n.notices.length).filterMap messageEvent
  | _ => []

/-- The id that `uuid4` draws in the request. -/
def drawnBy : Request → Option String
  | .message _ uuid => some uuid
  | .sendMessage _ _ uuid _ _ => some uuid
  | _ => none

/-- Whom a block names to the holder of the identity. -/
def opens (identity : Option KeyPair) (block : P2p.SealedSenderBlock) : Option String :=
  identity.bind fun identity =>
    (decryptSealedSender W B (uiBlock block) identity.privateKey.1).toOption

/-- The sealed message that the request delivers, if an accepted contact sent it. -/
def deliveredBy (k : Request) (s : System) : Option Sealed :=
  match k with
  | .message body uuid => do
    let request ← P2p.P2PMessageRequest.read R body
    let user ← s.node.users.head?
    let block ← request.sealedSender
    let named ← opens W B s.client.identity block
    let _ ← (P2p.p2pMessage R request uuid s.node).value?
    let sender := R.lower (strip named)
    if P2p.truthy request.sender = none ∧
        ∃ e ∈ s.node.contact? user.onionAddress sender, e.2.status = .accepted then
      some ⟨uuid, sender, !request.ephemeral⟩
    else none
  | _ => none

/-- Whom `receiveMessage` names to the node. -/
def opened (identity : Option KeyPair) (d : String × MessageData) : Option String :=
  if d.1 = "sealed" then d.2.sealedSender.bind (opens W B identity) else none

/-- `receiveMessage`, with its call of the node. -/
def handle (d : String × MessageData) (supply : Supply) (s : System) : System :=
  match opened W B s.client.identity d with
  | some target =>
    let answer := P2p.resolveSender R (session username "default") d.2.messageId ⟨target⟩ s.node
    { s with
      node := answer.state
      client :=
        (receiveMessage W B d.1 answer.value?.isSome supply (uiData d.2) s.client).state
      handled := s.handled ++ [d.2.messageId] }
  | none =>
    { s with client := (receiveMessage W B d.1 false supply (uiData d.2) s.client).state }

/-- `api.history(onion, limit)`. -/
def history (peerOnion : String) (limit : ℤ) (scan : List Row → List Row) (n : Node) :
    Option (List Row) :=
  (P2p.messageHistory R scan (session username "default") peerOnion limit none none n).value?.map
    Prod.fst

/-- The page as the client takes it. No message under the name of a peer makes it ask the node for
the sender. -/
def toLoad (supply : String → Supply) (page : Option (List Row)) :
    Option (List (UiMessage × Bool × Supply)) :=
  page.map fun rows => rows.map fun row => (uiRow row, false, supply row.1)

def act (e : Event) (s : System) : System :=
  match e with
  | .request k =>
    { s with
      node := (k.run R s.node).state
      arriving := if s.online then s.arriving ++ emitted R k s.node else s.arriving
      delivered := s.delivered ++ (deliveredBy R W B k s).toList
      drawn := s.drawn ++ (drawnBy k).toList }
  | .connect => { s with online := true }
  | .disconnect => { s with online := false }
  | .lose i => { s with arriving := s.arriving.eraseIdx i }
  | .handle i supply =>
    match s.arriving[i]? with
    | none => s
    | some d => handle R W B username d supply { s with arriving := s.arriving.eraseIdx i }
  | .load peerOnion limit scan supply =>
    let page := toLoad supply (history R username peerOnion limit scan s.node)
    { s with client := ((MessagesEvent.load peerOnion page).run W B s.client).state }
  | .browse e => { s with client := (e.run W B s.client).state }

def run (e : Event) : EStateM Empty System Unit := modify (act R W B username e)

/-! ## The property -/

/-- The node had stored the message, and has deleted it or marked it so. -/
def Deleted (m : Sealed) (n : Node) : Prop :=
  m.kept = true ∧ ∀ row ∈ n.messages.get? m.messageId, row.isDeleted = true

/-- The message stands under its sender, and comes with the page of the history unless older ones
are left for the next page; the client has it from that sender. -/
structure Shown (peerOnion : String) (limit : ℤ) (scan : List Row → List Row)
    (supply : String → Supply) (m : Sealed) (s : System) : Prop where
  filed    : ∃ row ∈ s.node.messages.get? m.messageId, row.senderOnion = peerOnion
  returned : ∃ page, history R username peerOnion limit scan s.node = some page ∧
    (page.length < limit.toNat →
      (∃ row ∈ page, row.1 = m.messageId ∧ row.2.senderOnion = peerOnion) ∧
      ∃ shown,
        (loadMessages W B peerOnion (toLoad supply (some page)) s.client).value? = some shown ∧
        ∃ x ∈ shown, x.1.messageId = m.messageId ∧ x.1.senderOnion = peerOnion)

/-- A loaded conversation shows the sealed messages of the peer that are not deleted. -/
def Good : Event → System → Prop
  | .load peerOnion limit scan supply, s => ∀ m ∈ s.delivered, m.sender = peerOnion →
    ¬ Deleted m s.node → Shown R W B username peerOnion limit scan supply m s
  | _, _ => True

/-- They are not ephemeral, and the client was there for the event of each and has handled it. -/
def Allowed : Event → System → Prop
  | .load peerOnion _ _ _, s => ∀ m ∈ s.delivered, m.sender = peerOnion →
    ¬ Deleted m s.node → m.kept = true ∧ m.messageId ∈ s.handled
  | _, _ => True

/-- An action that is no load and takes no event; its request of the node is an event of its own. -/
def isLocal : MessagesEvent → Bool
  | .load _ _ | .receive _ _ _ _ => false
  | _ => true

/-- What the database, `uuid4`, the router and the user interface can bring. -/
def Possible : Event → System → Prop
  | .request k, s => ∀ uuid ∈ drawnBy k, uuid ∉ s.drawn
  | .load peerOnion limit scan _, _ => peerOnion ≠ "sealed" ∧ (1 ≤ limit ∧ limit ≤ 200) ∧
    ∀ rows, (scan rows).Perm rows
  | .browse e, _ => isLocal e = true
  | _, _ => True

/-- A node with its one user, who is logged in, and a client that has not connected yet. -/
structure Fresh (user : P2p.User) (onion : String) (s : System) : Prop where
  signedIn  : SignedIn username user s.node
  localUser : s.node.users.head? = some user
  address   : user.onionAddress = some onion
  named     : onion ≠ "" ∧ onion ≠ "sealed"
  drawn     : ∀ id, s.node.messages.get? id ≠ none → id ∈ s.drawn
  arriving  : s.arriving = []
  delivered : s.delivered = []
  handled   : s.handled = []

end

/-! ## Where a sealed message stands -/

/-- A sealed message is under its sender once its event was handled, and under `sealed` before; an
event that has not been handled names the sender. -/
structure Sound (R : Runtime) (W : Platform) (B : Browser) (username : String) (user : P2p.User)
    (onion : String) (s : System) : Prop where
  signedIn  : SignedIn username user s.node
  localUser : s.node.users.head? = some user
  stored    : ∀ id, s.node.messages.get? id ≠ none → id ∈ s.drawn
  arriving  : ∀ d ∈ s.arriving, d.2.messageId ∈ s.drawn
  delivered : ∀ m ∈ s.delivered, m.messageId ∈ s.drawn
  handled   : ∀ id ∈ s.handled, id ∈ s.drawn
  filed     : ∀ m ∈ s.delivered, ∀ row, s.node.messages.get? m.messageId = some row →
    m.kept = true ∧ row.recipientOnion = onion ∧
      row.senderOnion = if m.messageId ∈ s.handled then m.sender else "sealed"
  named     : ∀ d ∈ s.arriving, ∀ m ∈ s.delivered, d.2.messageId = m.messageId →
    ∃ target, opened W B s.client.identity d = some target ∧ R.lower (strip target) = m.sender

/-! ## One request of the node -/

section

variable {R : Runtime} {W : Platform} {B : Browser} {username : String}

/-- A request changes no row but one that it marks as deleted, and adds none but under its id. -/
theorem messages_run (k : Request) (n : Node) :
    (k.run R n).state.messages = n.messages ∨
    (∃ id row, n.messages.get? id = some row ∧
      (k.run R n).state.messages = n.messages.insert id { row with isDeleted := true }) ∨
    ∃ uuid row, drawnBy k = some uuid ∧
      (k.run R n).state.messages = n.messages.insert uuid row := by
  rcases k with body | body | ⟨body, uuid⟩ | body | ⟨caller, body⟩ | ⟨caller, contactId⟩ |
    ⟨caller, body⟩ | ⟨caller, body, uuid, sentAt, timestamp⟩ |
    ⟨scan, caller, peerOnion, limit, before, cursor⟩ | ⟨caller, messageId⟩ <;>
    rw [Request.run]
  case handshake =>
    rw [P2p.state_parsed]
    rcases P2p.HandshakeRequest.read R body with _ | request
    · exact .inl rfl
    dsimp only
    rcases P2p.p2pHandshake_cases (R := R) n request with
      ⟨e, hrun⟩ | ⟨_, _, _, _, n', hrun, -, -, -, -, -, hmessages, -⟩ <;> rw [hrun]
    · exact .inl rfl
    · exact .inl hmessages
  case accept =>
    rw [P2p.state_parsed]
    rcases P2p.AcceptRequest.read R body with _ | request
    · exact .inl rfl
    dsimp only
    rcases P2p.p2pAccept_cases (R := R) n request with
      ⟨e, hrun⟩ | ⟨_, _, _, _, n', hrun, -, -, -, -, hmessages, -⟩ <;> rw [hrun]
    · exact .inl rfl
    · exact .inl hmessages
  case message =>
    rw [P2p.state_parsed]
    rcases P2p.P2PMessageRequest.read R body with _ | request
    · exact .inl rfl
    dsimp only
    rcases P2p.p2pMessage_cases (R := R) n request uuid with
      ⟨e, hrun, -⟩ | ⟨_, _, n', hrun, -, hmessages, -, -⟩ <;> rw [hrun]
    · exact .inl rfl
    · -- an ephemeral message is delivered without a row
      rcases hmessages with ⟨hsame, -⟩ | ⟨sentAt, hinsert, -⟩
      · exact .inl hsame
      · exact .inr (.inr ⟨uuid, _, rfl, hinsert⟩)
  case delete =>
    rw [P2p.state_parsed]
    rcases P2p.P2PDeleteRequest.read R body with _ | request
    · exact .inl rfl
    dsimp only
    rcases P2p.p2pDelete_cases (R := R) n request with ⟨e, hrun⟩ | ⟨n', hrun, hmessages, -, -⟩ <;>
      rw [hrun]
    · exact .inl rfl
    · rcases hmessages with hsame | ⟨row, hrow, hmark⟩
      · exact .inl hsame
      · exact .inr (.inl ⟨_, row, hrow, hmark⟩)
  case addContact =>
    rw [P2p.state_parsed]
    rcases P2p.AddContactRequest.read R body with _ | request
    · exact .inl rfl
    dsimp only
    rcases P2p.addContact_cases n caller request with
      ⟨e, hrun⟩ | ⟨_, n', hrun, -, -, hmessages, -⟩ <;> rw [hrun]
    · exact .inl rfl
    · exact .inl hmessages
  case removeContact =>
    rcases P2p.removeContact_cases n caller contactId with
      ⟨e, hrun⟩ | ⟨_, n', hrun, -, -, hmessages, -⟩ <;> rw [hrun]
    · exact .inl rfl
    · exact .inl hmessages
  case acceptContact =>
    rw [apply_bind]
    rcases P2p.LegacyAcceptContactRequest.read R body with _ | request
    · exact .inl rfl
    dsimp only [P2p.parsed, EStateM.apply_pure]
    rcases P2p.legacyAcceptContact_cases (R := R) n caller request with
      ⟨e, hrun⟩ | ⟨_, _, n', hrun, -, -, -, hmessages, -⟩ <;> rw [hrun]
    · exact .inl rfl
    · exact .inl hmessages
  case sendMessage =>
    rw [P2p.state_parsed]
    rcases P2p.SendMessageRequest.read R body with _ | request
    · exact .inl rfl
    dsimp only
    rcases P2p.sendMessage_cases n caller request uuid sentAt timestamp with
      ⟨e, hrun⟩ | ⟨_, n', hrun, -, -, hinsert, -, -, -⟩ <;> rw [hrun]
    · exact .inl rfl
    · exact .inr (.inr ⟨uuid, _, rfl, hinsert⟩)
  case messageHistory =>
    rw [state_discard, P2p.messageHistory_state]
    exact .inl rfl
  case deleteMessage =>
    rcases P2p.deleteMessage_cases n caller messageId with
      ⟨e, hrun⟩ | ⟨row, n', hrun, hrow, hmark, -, -⟩ <;> rw [hrun]
    · exact .inl rfl
    · exact .inr (.inl ⟨_, row, hrow, hmark⟩)

/-- What a request leaves under an id that it does not draw was there, with its sender. -/
theorem get?_run {k : Request} {n : Node} {id : String} (hid : drawnBy k ≠ some id)
    {row : P2p.Message} (hrow : (k.run R n).state.messages.get? id = some row) :
    ∃ row', n.messages.get? id = some row' ∧ row'.senderOnion = row.senderOnion ∧
      row'.recipientOnion = row.recipientOnion := by
  rcases messages_run (R := R) k n with hsame | ⟨marked, old, hold, hmark⟩ |
    ⟨uuid, new, hdrawn, hinsert⟩
  · rw [hsame] at hrow
    exact ⟨row, hrow, rfl, rfl⟩
  · rw [hmark, Dict.get?_insert] at hrow
    split_ifs at hrow with heq
    · obtain rfl := Option.some.inj hrow
      exact ⟨old, heq ▸ hold, rfl, rfl⟩
    · exact ⟨row, hrow, rfl, rfl⟩
  · rw [hinsert, Dict.get?_insert, if_neg] at hrow
    · exact ⟨row, hrow, rfl, rfl⟩
    · rintro rfl
      exact hid hdrawn

/-- A message that is refused makes no event; one that is filed makes one, under its sender. -/
theorem p2pMessage_notices (request : P2p.P2PMessageRequest) (uuid : String) (n : Node) :
    (P2p.p2pMessage R request uuid n).state.notices = n.notices ∨
    ∃ named sender data, P2p.namedSender R request.sender = .ok named ∧
      P2p.filedUnder named request.sealedSender = .ok sender ∧ data.messageId = uuid ∧
      data.sealedSender = request.sealedSender ∧
      (P2p.p2pMessage R request uuid n).state.notices =
        n.notices ++ [.messageReceived sender data] := by
  unfold P2p.p2pMessage
  rw [apply_bind, apply_ofExcept]
  rcases hnamed : P2p.namedSender R request.sender with e | named
  · exact .inl rfl
  dsimp only
  rw [apply_bind, P2p.localUser_apply]
  rcases n.users.head? with _ | user
  · exact .inl rfl
  dsimp only
  rw [apply_bind, apply_ofExcept]
  rcases hfiled : P2p.filedUnder named request.sealedSender with e | sender
  · exact .inl rfl
  dsimp only
  rw [apply_bind]
  rcases P2p.checkSender_cases n user sender request.seq with ⟨e, hcheck⟩ | ⟨hcheck, -⟩ <;>
    rw [hcheck]
  · exact .inl rfl
  dsimp only
  rcases R.fromTimestamp request.timestamp with _ | sentAt
  · exact .inl rfl
  dsimp only
  unfold P2p.fileMessage
  by_cases hephemeral : request.ephemeral = true
  · rw [if_neg (not_not_intro hephemeral)]
    exact .inr ⟨named, sender, _, rfl, hfiled, rfl, rfl, rfl⟩
  · rw [if_pos hephemeral, apply_bind, P2p.insertMessage_apply]
    split_ifs
    · exact .inr ⟨named, sender, _, rfl, hfiled, rfl, rfl, rfl⟩
    · exact .inl rfl

/-- The events of a request carry its id, and without a sender its block. -/
theorem emitted_cases {k : Request} {n : Node} {d : String × MessageData}
    (hd : d ∈ emitted R k n) : drawnBy k = some d.2.messageId ∧
      ∀ body uuid request, k = .message body uuid →
        P2p.P2PMessageRequest.read R body = some request → P2p.truthy request.sender = none →
        request.sealedSender.isSome → d.1 = "sealed" ∧ d.2.sealedSender = request.sealedSender := by
  rcases k with _ | _ | ⟨body, uuid⟩ | _ | _ | _ | _ | _ | _ | _
  case message =>
    unfold emitted at hd
    dsimp only at hd
    rw [Request.run, P2p.state_parsed] at hd
    rcases hread : P2p.P2PMessageRequest.read R body with _ | request
    · rw [hread, List.drop_length] at hd
      cases hd
    rw [hread] at hd
    dsimp only at hd
    rcases p2pMessage_notices (R := R) request uuid n with hsame |
      ⟨named, sender, data, hnamed, hfiled, hid, hblock, hnotices⟩
    · rw [hsame, List.drop_length] at hd
      cases hd
    · rw [hnotices, List.drop_left] at hd
      obtain rfl := List.mem_singleton.mp hd
      refine ⟨congrArg some hid.symm, ?_⟩
      rintro body' uuid' request' hk hread' hunnamed hsome
      obtain ⟨rfl, rfl⟩ := Request.message.inj hk
      obtain rfl := Option.some.inj (hread.symm.trans hread')
      refine ⟨?_, hblock⟩
      unfold P2p.namedSender at hnamed
      rw [hunnamed] at hnamed
      obtain rfl := Except.ok.inj hnamed
      obtain ⟨block, hblock'⟩ := Option.isSome_iff_exists.mp hsome
      rw [hblock'] at hfiled
      exact (Except.ok.inj hfiled).symm
  all_goals cases hd

/-- What is known of a sealed message that has come from an accepted contact. -/
theorem deliveredBy_cases {k : Request} {s : System} {m : Sealed}
    (h : deliveredBy R W B k s = some m) :
    ∃ body uuid request block named answer n', k = .message body uuid ∧
      P2p.P2PMessageRequest.read R body = some request ∧ request.sealedSender = some block ∧
      opens W B s.client.identity block = some named ∧ P2p.truthy request.sender = none ∧
      P2p.p2pMessage R request uuid s.node = .ok answer n' ∧
      m = ⟨uuid, R.lower (strip named), !request.ephemeral⟩ := by
  rcases k with _ | _ | ⟨body, uuid⟩ | _ | _ | _ | _ | _ | _ | _
  case message =>
    obtain ⟨request, hread, h⟩ := Option.bind_eq_some_iff.mp h
    obtain ⟨user, -, h⟩ := Option.bind_eq_some_iff.mp h
    obtain ⟨block, hblock, h⟩ := Option.bind_eq_some_iff.mp h
    obtain ⟨named, hnamed, h⟩ := Option.bind_eq_some_iff.mp h
    obtain ⟨answer, hanswer, h⟩ := Option.bind_eq_some_iff.mp h
    dsimp only at h
    split_ifs at h with haccepted
    obtain rfl := Option.some.inj h
    rcases hrun : P2p.p2pMessage R request uuid s.node with ⟨answer', n'⟩ | ⟨e, n'⟩
    · exact ⟨body, uuid, request, block, named, answer', n', rfl, hread, hblock, hnamed,
        haccepted.1, hrun, rfl⟩
    · rw [hrun] at hanswer
      cases hanswer
  all_goals cases h

/-- A sealed message is filed under `sealed`, unless it is ephemeral. -/
theorem filed_delivered {k : Request} {s : System} {m : Sealed} {user : P2p.User} {onion : String}
    (huser : s.node.users.head? = some user) (haddress : user.onionAddress = some onion)
    (hnamed : onion ≠ "") (hfresh : s.node.messages.get? m.messageId = none)
    (h : deliveredBy R W B k s = some m) {row : P2p.Message}
    (hrow : (k.run R s.node).state.messages.get? m.messageId = some row) :
    m.kept = true ∧ row.recipientOnion = onion ∧ row.senderOnion = "sealed" := by
  obtain ⟨body, uuid, request, block, named, answer, n', rfl, hread, hblock, -, hunnamed, hrun,
    rfl⟩ := deliveredBy_cases h
  rw [Request.run, P2p.state_parsed, hread] at hrow
  dsimp only at hrow hfresh ⊢
  rcases P2p.p2pMessage_cases (R := R) s.node request uuid with
    ⟨e, herror, -⟩ | ⟨user', sender, n'', hok, hpasses, hmessages, -, -⟩
  · cases herror.symm.trans hrun
  rw [hok] at hrow
  obtain rfl := Option.some.inj (hpasses.localUser.symm.trans huser)
  obtain ⟨named', hnamed', hfiled⟩ := hpasses.filed
  unfold P2p.namedSender at hnamed'
  rw [hunnamed] at hnamed'
  obtain rfl := Except.ok.inj hnamed'
  rw [hblock] at hfiled
  obtain rfl := Except.ok.inj hfiled
  rcases hmessages with ⟨hsame, -⟩ | ⟨sentAt, hinsert, hkept, -⟩
  · -- an ephemeral message has no row
    rw [EStateM.Result.state_ok, hsame, hfresh] at hrow
    cases hrow
  · rw [EStateM.Result.state_ok, hinsert, Dict.get?_insert, if_pos rfl] at hrow
    obtain rfl := Option.some.inj hrow
    refine ⟨by rw [hkept]; rfl, ?_, rfl⟩
    show P2p.storedRecipient user' = onion
    unfold P2p.storedRecipient
    rw [haddress, P2p.truthy_of_ne hnamed]
    rfl

/-- Naming a sender writes it to one row, or removes the row. -/
theorem resolveSender_rows {n : Node} {user : P2p.User} (hsigned : SignedIn username user n)
    (messageId target : String) :
    let n' := (P2p.resolveSender R (session username "default") messageId ⟨target⟩ n).state
    n'.users = n.users ∧
      (∀ id, id ≠ messageId → n'.messages.get? id = n.messages.get? id) ∧
      ∀ row, n'.messages.get? messageId = some row → ∃ old, n.messages.get? messageId = some old ∧
        row.senderOnion = R.lower (strip target) ∧ row.recipientOnion = old.recipientOnion := by
  intro n'
  rcases hmsg : n.messages.get? messageId with _ | msg
  · have hn' : n' = n := by
      show (P2p.resolveSender R (session username "default") messageId ⟨target⟩ n).state = n
      rw [P2p.Isolation.resolveSender_missing hsigned hmsg, EStateM.Result.state_error]
    rw [hn', hmsg]
    exact ⟨rfl, fun _ _ => rfl, fun row hrow => absurd hrow (Option.some_ne_none row).symm⟩
  rcases @P2p.Isolation.resolveSender_cases R username user n hsigned messageId msg hmsg ⟨target⟩
    with ⟨-, hset⟩ | ⟨-, e, herase⟩
  · have hn' : n' = n.setMessage messageId { msg with senderOnion := R.lower (strip target) } := by
      show (P2p.resolveSender R (session username "default") messageId ⟨target⟩ n).state = _
      rw [hset, EStateM.Result.state_ok]
    rw [hn']
    refine ⟨rfl, fun id hne => ?_, fun row hrow => ⟨msg, rfl, ?_⟩⟩
    · rw [Node.setMessage_messages, Dict.get?_insert, if_neg hne]
    · rw [Node.setMessage_messages, Dict.get?_insert, if_pos rfl] at hrow
      obtain rfl := Option.some.inj hrow
      exact ⟨rfl, rfl⟩
  · have hn' : n' = { n with messages := n.messages.erase messageId } := by
      show (P2p.resolveSender R (session username "default") messageId ⟨target⟩ n).state = _
      rw [herase, EStateM.Result.state_error]
    rw [hn']
    refine ⟨rfl, fun id hne => ?_, fun row hrow => ?_⟩
    · dsimp only
      rw [Dict.get?_erase, if_neg hne]
    · dsimp only at hrow
      rw [Dict.get?_erase, if_pos rfl] at hrow
      cases hrow

/-! ## One load of the client -/

/-- A message that has its sender keeps it. -/
theorem decryptMessage_named (onion : String) (resolves : Bool) (supply : Supply) {msg : UiMessage}
    (hnamed : msg.senderOnion ≠ "sealed") (c : Client) :
    ∃ text c', decryptMessage W B onion resolves supply msg c = .ok (msg, text) c' := by
  unfold decryptMessage
  rw [apply_bind, apply_get]
  dsimp only
  rcases B.parseEnvelope msg.ciphertextB64 with _ | envelope
  · exact ⟨_, c, rfl⟩
  rcases c.identity with _ | identity
  · exact ⟨_, c, rfl⟩
  dsimp only
  have hresolved : resolveSealed W B onion identity resolves msg = (msg, onion) := by
    unfold resolveSealed
    rcases msg.sealedSender with _ | block
    · rfl
    · exact if_neg hnamed
  rw [hresolved]
  dsimp only
  split_ifs
  · exact ⟨_, c, rfl⟩
  · rcases decryptPeer W B onion identity supply msg envelope c with ⟨plaintext, c'⟩ | ⟨e, c'⟩
    · exact ⟨_, c', rfl⟩
    · exact ⟨_, c, rfl⟩

theorem decryptAll_named (onion : String) (page : List (UiMessage × Bool × Supply))
    (hnamed : ∀ x ∈ page, x.1.senderOnion ≠ "sealed") (c : Client) :
    ∃ shown c', decryptAll W B onion page c = .ok shown c' ∧
      shown.map Prod.fst = page.map Prod.fst := by
  induction page generalizing c with
  | nil => exact ⟨[], c, rfl, rfl⟩
  | cons item page ih =>
    obtain ⟨msg, resolves, supply⟩ := item
    obtain ⟨text, c₁, hrun⟩ := decryptMessage_named (W := W) (B := B) onion resolves supply
      (hnamed _ List.mem_cons_self) c
    obtain ⟨shown, c₂, hrest, hshown⟩ := ih (fun x hx => hnamed x (List.mem_cons_of_mem _ hx)) c₁
    refine ⟨(msg, text) :: shown, c₂, ?_, by rw [List.map_cons, List.map_cons, hshown]⟩
    unfold decryptAll
    rw [apply_bind, hrun]
    dsimp only
    rw [apply_bind, hrest]
    rfl

/-- The client takes the senders of a page as they are. -/
theorem loadMessages_named (peerOnion : String) (supply : String → Supply) (page : List Row)
    (hnamed : ∀ row ∈ page, row.2.senderOnion ≠ "sealed") (c : Client) :
    ∃ shown, (loadMessages W B peerOnion (toLoad supply (some page)) c).value? = some shown ∧
      shown.map Prod.fst = page.map uiRow := by
  have hpage : ∀ x ∈ page.map (fun row => (uiRow row, false, supply row.1)),
      x.1.senderOnion ≠ "sealed" := by
    intro x hx
    obtain ⟨row, hrow, rfl⟩ := List.mem_map.mp hx
    exact hnamed row hrow
  obtain ⟨shown, c', hrun, hshown⟩ :=
    decryptAll_named (W := W) (B := B) peerOnion _ hpage c
  refine ⟨shown, ?_, hshown.trans (List.map_map ..)⟩
  unfold toLoad loadMessages
  dsimp only [Option.map_some]
  rw [apply_bind, hrun]
  rfl

end

/-! ## Runs -/

section

variable {R : Runtime} {W : Platform} {B : Browser} {username onion : String} {user : P2p.User}
  {s : System}

theorem Fresh.sound (h : Fresh username user onion s) :
    Sound R W B username user onion s where
  signedIn  := h.signedIn
  localUser := h.localUser
  stored    := h.drawn
  arriving  := by rw [h.arriving]; exact List.forall_mem_nil _
  delivered := by rw [h.delivered]; exact List.forall_mem_nil _
  handled   := by rw [h.handled]; exact List.forall_mem_nil _
  filed     := by rw [h.delivered]; exact List.forall_mem_nil _
  named     := by rw [h.delivered]; exact fun _ _ => List.forall_mem_nil _

theorem SignedIn.congr {n n' : Node} (h : SignedIn username user n) (husers : n'.users = n.users) :
    SignedIn username user n' := by
  refine ⟨h.name, ?_⟩
  have hfound := h.found
  unfold Node.user? at hfound ⊢
  rw [husers]
  exact hfound

/-- What only the client does changes nothing that is said of the node. -/
theorem Sound.setClient (h : Sound R W B username user onion s) {c : Client}
    (hidentity : c.identity = s.client.identity) :
    Sound R W B username user onion { s with client := c } :=
  ⟨h.signedIn, h.localUser, h.stored, h.arriving, h.delivered, h.handled, h.filed, by
    dsimp only
    rw [hidentity]
    exact h.named⟩

theorem Sound.eraseIdx (h : Sound R W B username user onion s) (i : ℕ) :
    Sound R W B username user onion { s with arriving := s.arriving.eraseIdx i } :=
  ⟨h.signedIn, h.localUser, h.stored, fun d hd => h.arriving d (List.mem_of_mem_eraseIdx hd),
    h.delivered, h.handled, h.filed, fun d hd => h.named d (List.mem_of_mem_eraseIdx hd)⟩

theorem Sound.request (h : Sound R W B username user onion s)
    (haddress : user.onionAddress = some onion) (hnamed : onion ≠ "") {k : Request}
    (hfresh : ∀ uuid ∈ drawnBy k, uuid ∉ s.drawn) :
    Sound R W B username user onion (act R W B username (.request k) s) := by
  have husers := (P2p.run_change (R := R) k s.node).2
  have hdrawn : ∀ m ∈ (deliveredBy R W B k s).toList, drawnBy k = some m.messageId := by
    intro m hm
    obtain ⟨body, uuid, request, block, named, answer, n', rfl, -, -, -, -, -, rfl⟩ :=
      deliveredBy_cases (Option.mem_toList.mp hm)
    rfl
  have hnew : ∀ {id}, drawnBy k = some id → id ∉ s.drawn := fun hid => hfresh _ hid
  refine ⟨SignedIn.congr h.signedIn husers, (congrArg List.head? husers).trans h.localUser, ?_, ?_,
    ?_, ?_, ?_, ?_⟩
  · intro id hid
    by_cases hdraws : drawnBy k = some id
    · exact List.mem_append_right _ (Option.mem_toList.mpr hdraws)
    · obtain ⟨row, hrow⟩ := Option.ne_none_iff_exists'.mp hid
      obtain ⟨row', hrow', -⟩ := get?_run hdraws hrow
      exact List.mem_append_left _ (h.stored id (by rw [hrow']; exact Option.some_ne_none row'))
  · intro d hd
    dsimp only [act] at hd
    split_ifs at hd
    · rcases List.mem_append.mp hd with hold | hemitted
      · exact List.mem_append_left _ (h.arriving d hold)
      · exact List.mem_append_right _ (Option.mem_toList.mpr (emitted_cases hemitted).1)
    · exact List.mem_append_left _ (h.arriving d hd)
  · intro m hm
    rcases List.mem_append.mp hm with hold | hm
    · exact List.mem_append_left _ (h.delivered m hold)
    · exact List.mem_append_right _ (Option.mem_toList.mpr (hdrawn m hm))
  · exact fun id hid => List.mem_append_left _ (h.handled id hid)
  · intro m hm row hrow
    rcases List.mem_append.mp hm with hold | hm
    · -- the row was there
      have hdraws : drawnBy k ≠ some m.messageId := fun hid => hnew hid (h.delivered m hold)
      obtain ⟨row', hrow', hsender, hrecipient⟩ := get?_run hdraws hrow
      rw [← hsender, ← hrecipient]
      exact h.filed m hold row' hrow'
    · have hunknown : s.node.messages.get? m.messageId = none := by
        by_contra hstored
        exact hnew (hdrawn m hm) (h.stored _ hstored)
      have hunhandled : m.messageId ∉ s.handled := fun hid => hnew (hdrawn m hm) (h.handled _ hid)
      obtain ⟨hkept, hrecipient, hsender⟩ := filed_delivered h.localUser haddress hnamed hunknown
        (Option.mem_toList.mp hm) hrow
      refine ⟨hkept, hrecipient, ?_⟩
      rw [hsender]
      exact (if_neg hunhandled).symm
  · intro d hd m hm heq
    have hd : d ∈ s.arriving ∨ d ∈ emitted R k s.node := by
      dsimp only [act] at hd
      split_ifs at hd
      · exact List.mem_append.mp hd
      · exact .inl hd
    rcases hd with hold | hemitted <;> rcases List.mem_append.mp hm with hold' | hm
    · exact h.named d hold m hold' heq
    · exact absurd (h.arriving d hold) (heq ▸ hnew (hdrawn m hm))
    · exact absurd (h.delivered m hold') (heq ▸ hnew (emitted_cases hemitted).1)
    · -- the event of the message itself
      obtain ⟨body, uuid, request, block, named, answer, n', rfl, hread, hblock, hopens, hunnamed,
        -, rfl⟩ := deliveredBy_cases (Option.mem_toList.mp hm)
      obtain ⟨hsealed, hcarries⟩ := (emitted_cases hemitted).2 body uuid request rfl hread hunnamed
        (by rw [hblock]; rfl)
      refine ⟨named, ?_, rfl⟩
      unfold opened
      rw [if_pos hsealed, hcarries, hblock, Option.bind_some]
      exact hopens

/-- The client handles an event. -/
theorem Sound.handle (h : Sound R W B username user onion s) {d : String × MessageData}
    (hdrawn : d.2.messageId ∈ s.drawn)
    (hd : ∀ m ∈ s.delivered, d.2.messageId = m.messageId →
      ∃ target, opened W B s.client.identity d = some target ∧ R.lower (strip target) = m.sender)
    (supply : Supply) : Sound R W B username user onion (handle R W B username d supply s) := by
  unfold Inbox.handle
  rcases hopened : opened W B s.client.identity d with _ | target
  · exact h.setClient (identity_run (.receive d.1 false supply (uiData d.2)) s.client)
  obtain ⟨husers, hothers, hwritten⟩ := resolveSender_rows (R := R) h.signedIn d.2.messageId target
  dsimp only
  generalize P2p.resolveSender R (session username "default") d.2.messageId ⟨target⟩ s.node = answer
    at husers hothers hwritten
  have hidentity := identity_run (W := W) (B := B)
    (.receive d.1 answer.value?.isSome supply (uiData d.2)) s.client
  refine ⟨SignedIn.congr h.signedIn husers, (congrArg List.head? husers).trans h.localUser, ?_,
    h.arriving, h.delivered, ?_, ?_, ?_⟩
  · intro id hid
    by_cases heq : id = d.2.messageId
    · exact heq ▸ hdrawn
    · dsimp only at hid
      rw [hothers id heq] at hid
      exact h.stored id hid
  · intro id hid
    rcases List.mem_append.mp hid with hold | hid
    · exact h.handled id hold
    · exact List.mem_singleton.mp hid ▸ hdrawn
  · intro m hm row hrow
    dsimp only at hm hrow ⊢
    by_cases heq : m.messageId = d.2.messageId
    · -- the block names the sender of the message
      rw [heq] at hrow
      obtain ⟨old, hold, hsender, hrecipient⟩ := hwritten row hrow
      obtain ⟨hkept, hrecipient', -⟩ := h.filed m hm old (heq ▸ hold)
      obtain ⟨target', hopened', htarget⟩ := hd m hm heq.symm
      obtain rfl := Option.some.inj (hopened.symm.trans hopened')
      refine ⟨hkept, hrecipient.trans hrecipient', ?_⟩
      rw [if_pos (List.mem_append_right _ (List.mem_singleton.mpr heq)), hsender, htarget]
    · rw [hothers _ heq] at hrow
      obtain ⟨hkept, hrecipient, hsender⟩ := h.filed m hm row hrow
      refine ⟨hkept, hrecipient, ?_⟩
      have hhandled : (m.messageId ∈ s.handled ++ [d.2.messageId]) ↔ m.messageId ∈ s.handled := by
        rw [List.mem_append, List.mem_singleton, or_iff_left heq]
      rw [hsender]
      simp only [hhandled]
  · dsimp only
    rw [MessagesEvent.run] at hidentity
    rw [hidentity]
    exact h.named

theorem sound_act (haddress : user.onionAddress = some onion) (hnamed : onion ≠ "") {e : Event}
    (h : Sound R W B username user onion s) (hpossible : Possible e s) :
    Sound R W B username user onion (act R W B username e s) := by
  rcases e with k | _ | _ | i | ⟨i, supply⟩ | ⟨peerOnion, limit, scan, supply⟩ | e
  · exact h.request haddress hnamed hpossible
  · exact ⟨h.signedIn, h.localUser, h.stored, h.arriving, h.delivered, h.handled, h.filed, h.named⟩
  · exact ⟨h.signedIn, h.localUser, h.stored, h.arriving, h.delivered, h.handled, h.filed, h.named⟩
  · exact h.eraseIdx i
  · unfold act
    dsimp only
    rcases hd : s.arriving[i]? with _ | d
    · exact h
    · have hmem := List.mem_of_getElem? hd
      exact (h.eraseIdx i).handle (h.arriving d hmem) (h.named d hmem) supply
  · exact h.setClient (identity_run (.load peerOnion _) s.client)
  · exact h.setClient (identity_run e s.client)

/-! ## One load -/

theorem history_eq (hsigned : SignedIn username user s.node) {peerOnion : String} {limit : ℤ}
    (hlimit : 1 ≤ limit ∧ limit ≤ 200) (scan : List Row → List Row) :
    history R username peerOnion limit scan s.node =
      some (P2p.historyPage (scan s.node.messages.entries) user.onionAddress peerOnion limit.toNat
        none) := by
  have hcursor : P2p.cursorSentAt R s.node none none = .ok none := rfl
  unfold history
  rw [P2p.messageHistory_apply scan hlimit (hsigned.getCurrentUser "default") hcursor]
  rfl

theorem mem_historyPage {rows : List Row} {userOnion : Option String} {peerOnion : String}
    {limit : ℕ} {row : Row} (h : row ∈ P2p.historyPage rows userOnion peerOnion limit none) :
    row ∈ rows ∧ P2p.inConversation userOnion peerOnion row = true := by
  have hordered := (List.perm_insertionSort _ _).mem_iff.mp (List.mem_of_mem_take h)
  rw [List.mem_filter, Option.all_none, Bool.and_true] at hordered
  exact hordered

/-- A page that is not full has all messages of the conversation. -/
theorem mem_historyPage_of_lt {rows : List Row} {userOnion : Option String} {peerOnion : String}
    {limit : ℕ} (hlt : (P2p.historyPage rows userOnion peerOnion limit none).length < limit)
    {row : Row} (hrow : row ∈ rows) (hin : P2p.inConversation userOnion peerOnion row = true) :
    row ∈ P2p.historyPage rows userOnion peerOnion limit none := by
  unfold P2p.historyPage at hlt ⊢
  rw [List.length_take] at hlt
  rw [List.take_of_length_le (by omega)]
  refine (List.perm_insertionSort _ _).mem_iff.mpr (List.mem_filter.mpr ⟨hrow, ?_⟩)
  rw [hin]
  rfl

/-- What was handled is shown, and what was not is not. -/
theorem shown_iff (h : Sound R W B username user onion s)
    (haddress : user.onionAddress = some onion) (hnamed : onion ≠ "sealed") {peerOnion : String}
    (hpeer : peerOnion ≠ "sealed") {limit : ℤ} (hlimit : 1 ≤ limit ∧ limit ≤ 200)
    {scan : List Row → List Row} (hscan : ∀ rows, (scan rows).Perm rows) (supply : String → Supply)
    {m : Sealed} (hm : m ∈ s.delivered) (hsender : m.sender = peerOnion)
    (hkeeps : ¬ Deleted m s.node) :
    Shown R W B username peerOnion limit scan supply m s ↔
      m.kept = true ∧ m.messageId ∈ s.handled := by
  constructor
  · rintro ⟨⟨row, hrow, hfiled⟩, -⟩
    obtain ⟨hkept, -, hstands⟩ := h.filed m hm row hrow
    refine ⟨hkept, ?_⟩
    by_contra hunhandled
    rw [if_neg hunhandled] at hstands
    exact hpeer (hfiled.symm.trans hstands)
  · rintro ⟨hkept, hhandled⟩
    have hrow : ∃ row, s.node.messages.get? m.messageId = some row ∧ row.isDeleted = false := by
      by_contra hnone
      refine hkeeps ⟨hkept, fun row hrow => ?_⟩
      by_contra hdeleted
      exact hnone ⟨row, hrow, Bool.eq_false_of_not_eq_true hdeleted⟩
    obtain ⟨row, hrow, hdeleted⟩ := hrow
    obtain ⟨-, hrecipient, hstands⟩ := h.filed m hm row hrow
    rw [if_pos hhandled, hsender] at hstands
    refine ⟨⟨row, hrow, hstands⟩, _, history_eq h.signedIn hlimit scan, fun hlt => ?_⟩
    have hin : P2p.inConversation user.onionAddress peerOnion (m.messageId, row) = true := by
      refine decide_eq_true ⟨by rw [hdeleted]; exact Bool.false_ne_true, .inr ⟨hstands, ?_⟩⟩
      rw [haddress]
      exact congrArg some hrecipient
    have hmem := mem_historyPage_of_lt hlt
      ((hscan _).mem_iff.mpr (Dict.mem_entries_iff.mpr hrow)) hin
    refine ⟨⟨_, hmem, rfl, hstands⟩, ?_⟩
    -- no message of the page is sealed
    have hsenders : ∀ row' ∈ P2p.historyPage (scan s.node.messages.entries) user.onionAddress
        peerOnion limit.toNat none, row'.2.senderOnion ≠ "sealed" := by
      intro row' hrow' heq
      rcases (of_decide_eq_true (mem_historyPage hrow').2).2 with ⟨hown, -⟩ | ⟨htheirs, -⟩
      · rw [haddress] at hown
        exact hnamed (Option.some.inj hown ▸ heq)
      · exact hpeer (htheirs ▸ heq)
    obtain ⟨shown, hvalue, hmap⟩ :=
      loadMessages_named (W := W) (B := B) peerOnion supply _ hsenders s.client
    have hui : uiRow (m.messageId, row) ∈ shown.map Prod.fst := by
      rw [hmap]
      exact List.mem_map_of_mem hmem
    obtain ⟨x, hx, hxrow⟩ := List.mem_map.mp hui
    refine ⟨shown, hvalue, x, hx, ?_, ?_⟩ <;> rw [hxrow]
    · rfl
    · exact hstands

end

/-- **Sealed messages reach the conversation.** In every run, each loaded conversation shows the
sealed messages that the peer delivered and that are not deleted, exactly when none of them is
ephemeral and the client has received and handled the events of all before it loads. -/
theorem conversation_complete_iff (R : Runtime) (W : Platform) (B : Browser)
    {username onion : String} {user : P2p.User} {s : System} (hstart : Fresh username user onion s) (events : List Event)
    (hpossible : AllMeet (run R W B username) Possible events s) :
    AllMeet (run R W B username) (Good R W B username) events s ↔
      AllMeet (run R W B username) Allowed events s := by
  have hsound : Sound R W B username user onion s := hstart.sound
  have haddress := hstart.address
  obtain ⟨hne, hunsealed⟩ := hstart.named
  clear hstart
  induction events generalizing s with
  | nil => exact iff_of_true trivial trivial
  | cons e events ih =>
    have hnext : Sound R W B username user onion (act R W B username e s) :=
      sound_act haddress hne hsound hpossible.1
    refine and_congr ?_ (ih hpossible.2 hnext)
    rcases e with k | _ | _ | i | ⟨i, supply⟩ | ⟨peerOnion, limit, scan, supply⟩ | e
    case load =>
      obtain ⟨hpeer, hlimit, hscan⟩ := hpossible.1
      refine forall_congr' fun m => forall_congr' fun hm => forall_congr' fun hsender =>
        forall_congr' fun hkeeps => ?_
      exact shown_iff hsound haddress hunsealed hpeer hlimit hscan supply hm hsender hkeeps
    all_goals exact Iff.rfl

/-! ## One message -/

open Opening (pairedPlatform pairedBrowser pairedPlatform_documented pairedBrowser_documented
  senderBlock decryptSealedSender_eq)

/-- Alice's address, sealed to Bob. -/
def sealedAlice : SealedSenderBlock :=
  senderBlock pairedPlatform P2p.aliceOnion (sampleKeys 2).publicKey sampleSupply

theorem opens_sealedAlice : opens pairedPlatform pairedBrowser (some (sampleKeys 2))
    ⟨sealedAlice.ephemeralPub, sealedAlice.ciphertext, sealedAlice.iv⟩ = some P2p.aliceOnion := by
  have hrecipient : Opening.Proper id (sampleKeys 2) := rfl
  have hsealing : Opening.Proper id sampleSupply.sealing := rfl
  have hblock : decryptSealedSender pairedPlatform pairedBrowser sealedAlice
      (sampleKeys 2).privateKey.1 = .ok P2p.aliceOnion :=
    decryptSealedSender_eq pairedPlatform_documented pairedBrowser_documented (by decide +kernel)
      hrecipient hsealing
  unfold opens
  rw [Option.bind_some]
  exact congrArg Except.toOption hblock

def sealedRequest : P2p.P2PMessageRequest where
  sender       := none
  sealedSender := some ⟨sealedAlice.ephemeralPub, sealedAlice.ciphertext, sealedAlice.iv⟩
  iv           := "aXY="
  ciphertext   := "Y3Q="
  seq          := 1
  timestamp    := 1700000000000
  disappearsAt := none
  ephemeral    := false

def sealedBody : Json :=
  .obj [("sealed_sender", .obj [("ephemeral_pub", .str sealedAlice.ephemeralPub),
      ("ciphertext", .str sealedAlice.ciphertext), ("iv", .str sealedAlice.iv)]),
    ("iv", .str "aXY="), ("ciphertext", .str "Y3Q="), ("seq", .int 1),
    ("timestamp", .int 1700000000000)]

/-- Bob's node, which has Alice for a contact, and his client. -/
def bobsSystem (online : Bool) : System where
  node      := P2p.nodeListing "bob" P2p.bobOnion P2p.aliceOnion
  client    := ⟨some (sampleKeys 2), Dict.empty, none, Dict.empty⟩
  online    := online
  arriving  := []
  delivered := []
  handled   := []
  drawn     := []

theorem bobsSystem_fresh (online : Bool) :
    Fresh "bob" ⟨"bob", some P2p.bobOnion⟩ P2p.bobOnion (bobsSystem online) where
  signedIn  := ⟨by decide, rfl⟩
  localUser := rfl
  address   := rfl
  named     := ⟨by decide, by decide⟩
  drawn     := fun id hid => absurd rfl hid
  arriving  := rfl
  delivered := rfl
  handled   := rfl

def deliver : Event := .request (.message sealedBody "m1")

def loadAlice : Event := .load P2p.aliceOnion 50 id fun _ => sampleSupply

theorem delivered_sealedBody (online : Bool) :
    deliveredBy P2p.asciiRuntime pairedPlatform pairedBrowser (.message sealedBody "m1")
      (bobsSystem online) = some ⟨"m1", P2p.aliceOnion, true⟩ := by
  have hread : P2p.P2PMessageRequest.read P2p.asciiRuntime sealedBody = some sealedRequest := rfl
  have hblock : sealedRequest.sealedSender =
      some ⟨sealedAlice.ephemeralPub, sealedAlice.ciphertext, sealedAlice.iv⟩ := rfl
  have hanswer : (P2p.p2pMessage P2p.asciiRuntime sealedRequest "m1"
      (bobsSystem online).node).value? = some "delivered" := rfl
  have hlower : P2p.asciiRuntime.lower (strip P2p.aliceOnion) = P2p.aliceOnion := by decide +kernel
  have haccepted : P2p.truthy sealedRequest.sender = none ∧
      ∃ e ∈ (bobsSystem online).node.contact? (some P2p.bobOnion) P2p.aliceOnion,
        e.2.status = .accepted := by
    refine ⟨rfl, ?_⟩
    exact ⟨_, rfl, rfl⟩
  have huser : (bobsSystem online).node.users.head? = some ⟨"bob", some P2p.bobOnion⟩ := rfl
  have hopens : opens pairedPlatform pairedBrowser (bobsSystem online).client.identity
      ⟨sealedAlice.ephemeralPub, sealedAlice.ciphertext, sealedAlice.iv⟩ = some P2p.aliceOnion :=
    opens_sealedAlice
  unfold deliveredBy
  simp only [Option.bind_eq_bind, hread, Option.bind_some, huser, hblock, hopens, hanswer, hlower,
    if_pos haccepted]
  rfl

/-- The system with the message of Alice. -/
def afterDelivery (online : Bool) : System :=
  act P2p.asciiRuntime pairedPlatform pairedBrowser "bob" deliver (bobsSystem online)

theorem delivered_afterDelivery (online : Bool) :
    (afterDelivery online).delivered = [⟨"m1", P2p.aliceOnion, true⟩] :=
  congrArg Option.toList (delivered_sealedBody online)

theorem arriving_afterDelivery : ∃ data, (afterDelivery true).arriving = [("sealed", data)] ∧
    data.messageId = "m1" ∧ data.sealedSender = sealedRequest.sealedSender :=
  ⟨_, rfl, rfl, rfl⟩

theorem kept_afterDelivery (online : Bool) :
    ¬ Deleted ⟨"m1", P2p.aliceOnion, true⟩ (afterDelivery online).node := by
  rintro ⟨-, hdeleted⟩
  exact Bool.false_ne_true (hdeleted _ rfl)

/-- Bob is there when the message comes, and his client handles its event before it loads. -/
def onlineRun : List Event := [deliver, .handle 0 sampleSupply, loadAlice]

theorem onlineRun_good :
    AllMeet (run P2p.asciiRuntime pairedPlatform pairedBrowser "bob")
      (Good P2p.asciiRuntime pairedPlatform pairedBrowser "bob") onlineRun (bobsSystem true) := by
  have hpossible : AllMeet (run P2p.asciiRuntime pairedPlatform pairedBrowser "bob") Possible
      onlineRun (bobsSystem true) :=
    ⟨fun _ _ => List.not_mem_nil, trivial, ⟨by decide, by decide, fun rows => List.Perm.refl rows⟩,
      trivial⟩
  refine (conversation_complete_iff _ _ _ (bobsSystem_fresh true) onlineRun hpossible).mpr
    ⟨trivial, trivial, ?_, trivial⟩
  obtain ⟨data, harriving, hid, hblock⟩ := arriving_afterDelivery
  have hopened : opened pairedPlatform pairedBrowser (afterDelivery true).client.identity
      ("sealed", data) = some P2p.aliceOnion := by
    unfold opened
    rw [if_pos rfl, hblock]
    exact opens_sealedAlice
  have hstate : EStateM.after (run P2p.asciiRuntime pairedPlatform pairedBrowser "bob")
      [deliver, .handle 0 sampleSupply] (bobsSystem true) =
        handle P2p.asciiRuntime pairedPlatform pairedBrowser "bob" ("sealed", data) sampleSupply
          { afterDelivery true with arriving := [] } := by
    show act P2p.asciiRuntime pairedPlatform pairedBrowser "bob" (.handle 0 sampleSupply)
      (afterDelivery true) = _
    unfold act
    dsimp only
    rw [harriving]
    rfl
  show Allowed loadAlice (EStateM.after (run P2p.asciiRuntime pairedPlatform pairedBrowser "bob")
      [deliver, .handle 0 sampleSupply] (bobsSystem true))
  rw [hstate]
  unfold handle
  dsimp only
  rw [hopened]
  intro m hm _ _
  dsimp only at hm ⊢
  rw [delivered_afterDelivery] at hm
  obtain rfl := List.mem_singleton.mp hm
  exact ⟨rfl, List.mem_append_right _ (List.mem_singleton.mpr hid.symm)⟩

/-- The message comes while Bob's client is not there. -/
def offlineRun : List Event := [deliver, .connect, loadAlice]

theorem offlineRun_fails :
    Fresh "bob" ⟨"bob", some P2p.bobOnion⟩ P2p.bobOnion (bobsSystem false) ∧
    AllMeet (run P2p.asciiRuntime pairedPlatform pairedBrowser "bob") Possible offlineRun
      (bobsSystem false) ∧
    ¬ AllMeet (run P2p.asciiRuntime pairedPlatform pairedBrowser "bob")
        (Good P2p.asciiRuntime pairedPlatform pairedBrowser "bob") offlineRun
        (bobsSystem false) := by
  refine ⟨bobsSystem_fresh false, ⟨fun _ _ => List.not_mem_nil, trivial,
    ⟨by decide, by decide, fun rows => List.Perm.refl rows⟩, trivial⟩, ?_⟩
  rintro ⟨-, -, hgood, -⟩
  have hm : (⟨"m1", P2p.aliceOnion, true⟩ : Sealed) ∈ (afterDelivery false).delivered := by
    rw [delivered_afterDelivery]
    exact List.mem_singleton.mpr rfl
  obtain ⟨⟨row, hrow, hfiled⟩, -⟩ := hgood _ hm rfl (kept_afterDelivery false)
  have hsealed : ∀ row ∈ (afterDelivery false).node.messages.get? "m1",
      row.senderOnion = "sealed" := by
    intro row hrow
    obtain rfl := Option.some.inj hrow
    rfl
  exact absurd ((hsealed row hrow).symm.trans hfiled) (by decide)

end AnonyMus.Web.Inbox
