import AnonyMus.P2p.Node

/-!
# P2P node — requests of remote nodes

The handlers of `transports/p2p/routers/p2p.py`. A body is the JSON value that
arrived; each request model reads it, or the request ends with 422.

* `p2pHandshake`, `p2pAccept`, `p2pMessage`, `p2pDelete` — the code;
* `p2pHandshake_cases`, … — all that each of them can do: a request that fails
  leaves the node as it was.
-/

namespace AnonyMus.P2p

/-! ## Request models -/

structure HandshakeRequest where
  onionAddress       : String
  nickname           : String
  publicKey          : String
  preferredFileRelay : Option String

structure AcceptRequest where
  onionAddress       : String
  publicKey          : String
  preferredFileRelay : Option String

structure P2PMessageRequest where
  sender       : Option String
  sealedSender : Option SealedSenderBlock
  iv           : String
  ciphertext   : String
  seq          : ℤ
  timestamp    : ℤ
  disappearsAt : Option Stamp
  ephemeral    : Bool

structure P2PDeleteRequest where
  sender    : String
  messageId : String

section

variable (R : Runtime)

def HandshakeRequest.read (body : Json) : Option HandshakeRequest := do
  let members ← body.members?
  let onionAddress ← Json.required R.str members "onion_address"
  let nickname ← Json.required R.str members "nickname"
  guard (nickname.length ≤ 64)
  let publicKey ← Json.required R.str members "public_key"
  let preferredFileRelay ← Json.optional R.str members "preferred_file_relay"
  return { onionAddress, nickname, publicKey, preferredFileRelay }

def AcceptRequest.read (body : Json) : Option AcceptRequest := do
  let members ← body.members?
  let onionAddress ← Json.required R.str members "onion_address"
  let publicKey ← Json.required R.str members "public_key"
  let preferredFileRelay ← Json.optional R.str members "preferred_file_relay"
  return { onionAddress, publicKey, preferredFileRelay }

def SealedSenderBlock.read (value : Json) : Option SealedSenderBlock := do
  let members ← value.members?
  let ephemeralPub ← Json.required R.str members "ephemeral_pub"
  let ciphertext ← Json.required R.str members "ciphertext"
  let iv ← Json.required R.str members "iv"
  return { ephemeralPub, ciphertext, iv }

def P2PMessageRequest.read (body : Json) : Option P2PMessageRequest := do
  let members ← body.members?
  let sender ← Json.optional R.str members "sender"
  let sealedSender ← Json.optional (SealedSenderBlock.read R) members "sealed_sender"
  let iv ← Json.required R.str members "iv"
  let ciphertext ← Json.required R.str members "ciphertext"
  let seq ← Json.required R.int members "seq"
  guard (0 ≤ seq)
  let timestamp ← Json.required R.int members "timestamp"
  let disappearsAt ← Json.optional R.datetime members "disappears_at"
  let ephemeral ← Json.defaulted R.bool members "ephemeral" false
  return { sender, sealedSender, iv, ciphertext, seq, timestamp, disappearsAt, ephemeral }

def P2PDeleteRequest.read (body : Json) : Option P2PDeleteRequest := do
  let members ← body.members?
  let sender ← Json.required R.str members "sender"
  let messageId ← Json.required R.str members "message_id"
  return { sender, messageId }

/-- What the request model makes of the body. -/
def parsed {α : Type} (request : Option α) : Handler α :=
  match request with
  | some request => pure request
  | none => throw .validation

/-! ## Endpoints -/

def p2pHandshake (body : HandshakeRequest) : Handler String := do
  let onion ← ofExcept (validateOnion R body.onionAddress)
  let user ← localUser
  match (← get).contact? user.onionAddress onion with
  | some (id, existing) =>
    if existing.status = .blocked then throw (.http 403 "Blocked contact")
    modify fun n => n.setContact id { existing with
      nickname := some body.nickname, publicKeyB64 := some body.publicKey,
      status := .pendingIncoming }
  | none =>
    match user.onionAddress with
    -- `owner_onion` may not be null
    | none => throw .internal
    | some owner =>
      let _ ← insertContact {
        ownerOnion := owner, onionAddress := onion, nickname := some body.nickname,
        publicKeyB64 := some body.publicKey, sharedSecretB64 := none,
        status := .pendingIncoming, verified := false, profileId := "default" }
  emitSocket (.handshakeReceived onion body.nickname body.publicKey)
  emitSocket (.contactStatusChange onion .pendingIncoming)
  return "pending"

def p2pAccept (body : AcceptRequest) : Handler String := do
  let onion ← ofExcept (validateOnion R body.onionAddress)
  let user ← localUser
  match (← get).contact? user.onionAddress onion with
  | none => throw (.http 404 "Handshake contact record not found")
  | some (id, contact) =>
    modify fun n => n.setContact id { contact with
      publicKeyB64 := some body.publicKey, status := .accepted }
    emitSocket (.contactStatusChange onion .accepted)
    return "accepted"

/-- The sender that a message names; an empty one counts as none. -/
def namedSender (sender : Option String) : Except Failure (Option String) :=
  match truthy sender with
  | some sender => some <$> validateOnion R sender
  | none => .ok none

/-- The sender a message is filed under. -/
def filedUnder (sender : Option String) (sealedSender : Option SealedSenderBlock) :
    Except Failure String :=
  match sender, sealedSender with
  | some sender, _ => .ok sender
  | none, some _ => .ok "sealed"
  | none, none => .error (.http 400 "Missing sender or sealed_sender")

/-- `max(sequence_number)` of what `sender` sent to `recipient`. -/
def Node.lastSeq (n : Node) (sender : String) (recipient : Option String) : Option ℤ :=
  ((n.messages.values.filter fun m =>
    m.senderOnion = sender ∧ some m.recipientOnion = recipient).map Message.sequenceNumber).max?

/-- The contact check and the monotonic check; a sealed sender is not checked. -/
def checkSender (user : User) (sender : String) (seq : ℤ) : Handler Unit := do
  if sender = "sealed" then return
  let n ← get
  match n.contact? user.onionAddress sender with
  | none => throw (.http 403 "Unauthorized contact connection")
  | some (_, contact) =>
    if contact.status ≠ .accepted then throw (.http 403 "Unauthorized contact connection")
    match n.lastSeq sender user.onionAddress with
    | none => return
    | some lastSeq =>
      if seq ≤ lastSeq then throw (.http 400 "Sequence number must be strictly monotonic")

/-- `user.onion_address or "sealed_recipient"`. -/
def storedRecipient (user : User) : String := (truthy user.onionAddress).getD "sealed_recipient"

/-- The row of a message. -/
def messageRow (user : User) (sender : String) (body : P2PMessageRequest) (sentAt : DateTime) :
    Message where
  senderOnion    := sender
  recipientOnion := storedRecipient user
  ciphertextB64  := body.ciphertext
  ivB64          := body.iv
  sequenceNumber := body.seq
  sentAt         := sentAt
  delivered      := false
  disappearsAt   := body.disappearsAt.map Stamp.wall
  isDeleted      := false
  sealedSender   := body.sealedSender

/-- Store the message, unless it is ephemeral, and tell the browser. -/
def fileMessage (user : User) (sender : String) (body : P2PMessageRequest) (uuid : String)
    (sentAt : DateTime) : Handler String := do
  if ¬ body.ephemeral then insertMessage uuid (messageRow user sender body sentAt)
  emitSocket (.messageReceived sender {
    messageId := uuid, senderOnion := sender, recipientOnion := user.onionAddress,
    ciphertextB64 := body.ciphertext, ivB64 := body.iv, sequenceNumber := body.seq,
    sentAt := String.ofList (Stamp.isoformat ⟨sentAt, some 0⟩), delivered := true,
    isDeleted := false,
    disappearsAt := body.disappearsAt.map fun s => String.ofList s.isoformat,
    sealedSender := body.sealedSender })
  return "delivered"

/-- `uuid` is what `uuid4` draws. -/
def p2pMessage (body : P2PMessageRequest) (uuid : String) : Handler String := do
  let named ← ofExcept (namedSender R body.sender)
  let user ← localUser
  let sender ← ofExcept (filedUnder named body.sealedSender)
  checkSender user sender body.seq
  match R.fromTimestamp body.timestamp with
  | none => throw .internal
  | some sentAt => fileMessage user sender body uuid sentAt

def p2pDelete (body : P2PDeleteRequest) : Handler String := do
  let sender ← ofExcept (validateOnion R body.sender)
  match (← get).messages.get? body.messageId with
  | none => return "deleted"
  | some msg =>
    if msg.senderOnion = sender then
      modify fun n => n.setMessage body.messageId { msg with isDeleted := true }
      emitSocket (.messageDeleted sender body.messageId)
    return "deleted"

end

/-! ## What the endpoints do -/

section

variable {R : Runtime} (s : Node)

/-- A handshake is refused, or it leaves one contact, new or not blocked, pending. -/
theorem p2pHandshake_cases (body : HandshakeRequest) :
    (∃ e, p2pHandshake R body s = .error e s) ∨
    ∃ onion user id contact s', p2pHandshake R body s = .ok "pending" s' ∧
      validateOnion R body.onionAddress = .ok onion ∧ s.users.head? = some user ∧
      contact.status = .pendingIncoming ∧
      (id = s.nextId ∨ ∃ existing, s.contact? user.onionAddress onion = some (id, existing) ∧
        existing.status ≠ .blocked) ∧
      s'.contacts = s.contacts.insert id contact ∧ s'.messages = s.messages ∧
      s'.users = s.users := by
  unfold p2pHandshake
  rw [EStateM.apply_bind, EStateM.apply_ofExcept]
  rcases validateOnion R body.onionAddress with e | onion
  · exact .inl ⟨e, rfl⟩
  dsimp only
  rw [EStateM.apply_bind, localUser_apply]
  rcases s.users.head? with _ | user
  · exact .inl ⟨_, rfl⟩
  dsimp only
  rw [EStateM.apply_bind, EStateM.apply_get]
  dsimp only
  rcases hfound : s.contact? user.onionAddress onion with _ | ⟨id, existing⟩
  · -- a new contact, unless a foreign key fails
    rcases user.onionAddress with _ | owner
    · exact .inl ⟨_, rfl⟩
    dsimp only
    rw [EStateM.apply_bind]
    rcases insertContact_cases s _ with hinsert | hinsert
    · rw [hinsert]
      exact .inl ⟨_, rfl⟩
    · rw [hinsert]
      exact .inr ⟨onion, user, _, _, _, rfl, rfl, rfl, rfl, .inl rfl, rfl, rfl, rfl⟩
  · -- the contact is there
    dsimp only
    by_cases hblocked : existing.status = .blocked
    · rw [if_pos hblocked]
      exact .inl ⟨_, rfl⟩
    · rw [if_neg hblocked]
      exact .inr ⟨onion, user, _, _, _, rfl, rfl, rfl, rfl, .inr ⟨existing, hfound, hblocked⟩,
        rfl, rfl, rfl⟩

/-- An acceptance is refused, or it makes the contact found accepted. -/
theorem p2pAccept_cases (body : AcceptRequest) :
    (∃ e, p2pAccept R body s = .error e s) ∨
    ∃ onion user id contact s', p2pAccept R body s = .ok "accepted" s' ∧
      validateOnion R body.onionAddress = .ok onion ∧ s.users.head? = some user ∧
      s.contact? user.onionAddress onion = some (id, contact) ∧
      s'.contacts = s.contacts.insert id { contact with
        publicKeyB64 := some body.publicKey, status := .accepted } ∧
      s'.messages = s.messages ∧ s'.users = s.users := by
  unfold p2pAccept
  rw [EStateM.apply_bind, EStateM.apply_ofExcept]
  rcases validateOnion R body.onionAddress with e | onion
  · exact .inl ⟨e, rfl⟩
  dsimp only
  rw [EStateM.apply_bind, localUser_apply]
  rcases huser : s.users.head? with _ | user
  · exact .inl ⟨_, rfl⟩
  dsimp only
  rw [EStateM.apply_bind, EStateM.apply_get]
  dsimp only
  rcases hfound : s.contact? user.onionAddress onion with _ | ⟨id, contact⟩
  · exact .inl ⟨_, rfl⟩
  · exact .inr ⟨onion, user, id, contact, _, rfl, rfl, rfl, hfound, rfl, rfl, rfl⟩

/-- The checks on a sender only read. -/
theorem checkSender_cases (user : User) (sender : String) (seq : ℤ) :
    (∃ e, checkSender user sender seq s = .error e s) ∨
      checkSender user sender seq s = .ok ⟨⟩ s ∧ (sender ≠ "sealed" →
        ∀ lastSeq, s.lastSeq sender user.onionAddress = some lastSeq → lastSeq < seq) := by
  unfold checkSender
  by_cases hsealed : sender = "sealed"
  · rw [if_pos hsealed]
    exact .inr ⟨rfl, fun hne => absurd hsealed hne⟩
  rw [if_neg hsealed, EStateM.apply_bind, EStateM.apply_get]
  dsimp only
  rcases s.contact? user.onionAddress sender with _ | ⟨_, contact⟩
  · exact .inl ⟨_, rfl⟩
  dsimp only
  by_cases haccepted : contact.status ≠ .accepted
  · rw [if_pos haccepted]
    exact .inl ⟨_, rfl⟩
  rw [if_neg haccepted]
  rcases s.lastSeq sender user.onionAddress with _ | lastSeq
  · refine .inr ⟨rfl, ?_⟩
    rintro - _ ⟨⟩
  dsimp only
  by_cases hle : seq ≤ lastSeq
  · rw [if_pos hle]
    exact .inl ⟨_, rfl⟩
  · rw [if_neg hle]
    refine .inr ⟨rfl, ?_⟩
    rintro - _ ⟨⟩
    omega

/-- The checks pass for a sealed sender, and for an accepted contact whose messages all have lower
numbers. -/
theorem checkSender_ok_iff (user : User) (sender : String) (seq : ℤ) :
    checkSender user sender seq s = .ok ⟨⟩ s ↔ sender = "sealed" ∨
      (∃ e ∈ s.contact? user.onionAddress sender, e.2.status = .accepted) ∧
        ∀ lastSeq ∈ s.lastSeq sender user.onionAddress, lastSeq < seq := by
  unfold checkSender
  by_cases hsealed : sender = "sealed"
  · rw [if_pos hsealed]
    exact iff_of_true rfl (.inl hsealed)
  rw [if_neg hsealed, EStateM.apply_bind, EStateM.apply_get, or_iff_right hsealed]
  dsimp only
  rcases s.contact? user.onionAddress sender with _ | ⟨id, contact⟩
  · exact iff_of_false (by rintro ⟨⟩) (by simp)
  dsimp only
  by_cases haccepted : contact.status ≠ .accepted
  · rw [if_pos haccepted]
    exact iff_of_false (by rintro ⟨⟩) (by simp [haccepted])
  have haccepted := not_not.mp haccepted
  rw [if_neg (not_not_intro haccepted), and_iff_right ⟨_, rfl, haccepted⟩]
  rcases s.lastSeq sender user.onionAddress with _ | lastSeq
  · exact iff_of_true rfl (by simp)
  dsimp only
  by_cases hle : seq ≤ lastSeq
  · rw [if_pos hle]
    exact iff_of_false (by rintro ⟨⟩) fun h => absurd (h lastSeq rfl) (by omega)
  · rw [if_neg hle]
    refine iff_of_true rfl ?_
    rintro _ ⟨⟩
    omega

/-- What is filed: a new row, unless the message is ephemeral. -/
theorem fileMessage_cases (user : User) (sender : String) (body : P2PMessageRequest)
    (uuid : String) (sentAt : DateTime) :
    (fileMessage user sender body uuid sentAt s = .error .internal s ∧
      ¬ (body.ephemeral = true ∨ s.Storable uuid body.seq)) ∨
    ∃ s', fileMessage user sender body uuid sentAt s = .ok "delivered" s' ∧
      (s'.messages = s.messages ∧ body.ephemeral = true ∨
        s'.messages = s.messages.insert uuid (messageRow user sender body sentAt) ∧
          body.ephemeral = false ∧ s.Storable uuid body.seq) ∧
      s'.contacts = s.contacts ∧ s'.users = s.users := by
  unfold fileMessage
  by_cases hephemeral : body.ephemeral = true
  · rw [if_neg (not_not_intro hephemeral)]
    exact .inr ⟨_, rfl, .inl ⟨rfl, hephemeral⟩, rfl, rfl⟩
  · rw [if_pos hephemeral, EStateM.apply_bind, insertMessage_apply]
    split_ifs with hstorable
    · exact .inr ⟨_, rfl, .inr ⟨rfl, by simpa using hephemeral, hstorable⟩, rfl, rfl⟩
    · exact .inl ⟨rfl, not_or.mpr ⟨hephemeral, hstorable⟩⟩

variable (R) in
/-- The message passes every check, and is filed under `sender`. -/
structure Passes (body : P2PMessageRequest) (uuid : String) (user : User) (sender : String)
    (s : Node) : Prop where
  localUser : s.users.head? = some user
  filed : ∃ named, namedSender R body.sender = .ok named ∧
    filedUnder named body.sealedSender = .ok sender
  checks : checkSender user sender body.seq s = .ok ⟨⟩ s
  timestamp : R.fromTimestamp body.timestamp ≠ none
  storable : body.ephemeral = true ∨ s.Storable uuid body.seq

/-- A message passes for one user and sender only. -/
theorem Passes.unique {body : P2PMessageRequest} {uuid sender sender' : String} {user user' : User}
    (h : Passes R body uuid user' sender' s) (huser : s.users.head? = some user)
    (hsender : ∃ named, namedSender R body.sender = .ok named ∧
      filedUnder named body.sealedSender = .ok sender) : user' = user ∧ sender' = sender := by
  obtain ⟨named, hnamed, hfiled⟩ := hsender
  obtain ⟨named', hnamed', hfiled'⟩ := h.filed
  obtain rfl := Except.ok.inj (hnamed.symm.trans hnamed')
  exact ⟨(Option.some.inj (huser.symm.trans h.localUser)).symm,
    (Except.ok.inj (hfiled.symm.trans hfiled')).symm⟩

/-- A message is refused, or it passes the checks and is filed. -/
theorem p2pMessage_cases (body : P2PMessageRequest) (uuid : String) :
    (∃ e, p2pMessage R body uuid s = .error e s ∧
      ∀ user sender, ¬ Passes R body uuid user sender s) ∨
    ∃ user sender s', p2pMessage R body uuid s = .ok "delivered" s' ∧
      Passes R body uuid user sender s ∧
      (s'.messages = s.messages ∧ body.ephemeral = true ∨
        ∃ sentAt, s'.messages = s.messages.insert uuid (messageRow user sender body sentAt) ∧
          body.ephemeral = false ∧ s.Storable uuid body.seq ∧
          R.fromTimestamp body.timestamp = some sentAt) ∧
      s'.contacts = s.contacts ∧ s'.users = s.users := by
  unfold p2pMessage
  rw [EStateM.apply_bind, EStateM.apply_ofExcept]
  -- each check in the order of the source: what fails it does not pass
  rcases hnamed : namedSender R body.sender with e | named
  · refine .inl ⟨e, rfl, ?_⟩
    rintro user sender ⟨-, ⟨named, h, -⟩, -, -, -⟩
    cases hnamed.symm.trans h
  dsimp only
  rw [EStateM.apply_bind, localUser_apply]
  rcases huser : s.users.head? with _ | user
  · refine .inl ⟨_, rfl, ?_⟩
    rintro user sender ⟨h, -, -, -, -⟩
    cases huser.symm.trans h
  dsimp only
  rw [EStateM.apply_bind, EStateM.apply_ofExcept]
  rcases hsender : filedUnder named body.sealedSender with e | sender
  · refine .inl ⟨e, rfl, ?_⟩
    rintro user sender ⟨-, ⟨named', h, h'⟩, -, -, -⟩
    obtain rfl := Except.ok.inj (hnamed.symm.trans h)
    cases hsender.symm.trans h'
  -- from here user and sender are fixed, so passing is about these two only
  have hunique : ∀ {user' sender'}, Passes R body uuid user' sender' s →
      user' = user ∧ sender' = sender := fun hpasses =>
    hpasses.unique s huser ⟨named, hnamed, hsender⟩
  dsimp only
  rw [EStateM.apply_bind]
  rcases checkSender_cases s user sender body.seq with ⟨e, hcheck⟩ | ⟨hcheck, -⟩
  · rw [hcheck]
    refine .inl ⟨e, rfl, fun user' sender' hpasses => ?_⟩
    obtain ⟨rfl, rfl⟩ := hunique hpasses
    cases hcheck.symm.trans hpasses.checks
  rw [hcheck]
  dsimp only
  rcases htime : R.fromTimestamp body.timestamp with _ | sentAt
  · exact .inl ⟨_, rfl, fun _ _ hpasses => hpasses.timestamp htime⟩
  dsimp only
  rcases fileMessage_cases s user sender body uuid sentAt with
    ⟨hfile, hnot⟩ | ⟨s', hfile, hmessages, hrest⟩
  · exact .inl ⟨_, hfile, fun _ _ hpasses => hnot hpasses.storable⟩
  · -- it is filed, so it was storable unless ephemeral
    refine .inr ⟨user, sender, s', hfile, ⟨huser, ⟨named, hnamed, hsender⟩, hcheck, ?_, ?_⟩,
      hmessages.imp_right ?_, hrest⟩
    · rw [htime]
      exact Option.some_ne_none sentAt
    · rcases hmessages with ⟨-, hephemeral⟩ | ⟨-, -, hstorable⟩
      · exact .inl hephemeral
      · exact .inr hstorable
    · rintro ⟨hinsert, hephemeral, hstorable⟩
      exact ⟨sentAt, hinsert, hephemeral, hstorable, rfl⟩

/-- A deletion is refused, or it marks at most one message as deleted. -/
theorem p2pDelete_cases (body : P2PDeleteRequest) :
    (∃ e, p2pDelete R body s = .error e s) ∨
    ∃ s', p2pDelete R body s = .ok "deleted" s' ∧
      (s'.messages = s.messages ∨ ∃ m, s.messages.get? body.messageId = some m ∧
        s'.messages = s.messages.insert body.messageId { m with isDeleted := true }) ∧
      s'.contacts = s.contacts ∧ s'.users = s.users := by
  unfold p2pDelete
  rw [EStateM.apply_bind, EStateM.apply_ofExcept]
  rcases validateOnion R body.sender with e | sender
  · exact .inl ⟨e, rfl⟩
  dsimp only
  rw [EStateM.apply_bind, EStateM.apply_get]
  dsimp only
  rcases hmsg : s.messages.get? body.messageId with _ | m
  · exact .inr ⟨s, rfl, .inl rfl, rfl, rfl⟩
  dsimp only
  by_cases hsender : m.senderOnion = sender
  · rw [if_pos hsender]
    exact .inr ⟨_, rfl, .inr ⟨m, rfl, rfl⟩, rfl, rfl⟩
  · rw [if_neg hsender]
    exact .inr ⟨s, rfl, .inl rfl, rfl, rfl⟩

end

end AnonyMus.P2p
