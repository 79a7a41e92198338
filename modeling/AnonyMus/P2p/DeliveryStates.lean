import AnonyMus.Lib.Interleave
import AnonyMus.P2p.LegacyReplay
import Mathlib.Data.List.Sort

/-!
# P2P node — the delivery states of sent messages

The table `messages` of `transports/p2p/database.py` with its ids and delivery states,
under what the Flask server of `transports/p2p/server.py` does to it: `send_message`,
the other calls of `save_message`, edits, deletions, migrations, receipts and resets, in
any order. `send_message` reads its request as in the model of the messages.

* `saveMessage`, `updateMessageDeliveryState`, `getMessages` — the writer, the updater
  and the reader;
* `DeliveryEvent`, `FlaskNode.apply` — the histories;
* `Reaches` — an update reaches a sent message, and no other;
* `Unmarked` — nobody stores what the updater looks for;
* `reaches_iff` — the updates that reach a sent message;
* `read_unreached` — a message that has been read.
-/

namespace AnonyMus.P2p.DeliveryStates

open EStateM Interleave Legacy

/-! ## The table -/

/-- A row of `messages`. -/
structure MessageRow where
  id            : ℕ
  peerOnion     : String
  sender        : String
  message       : String
  timestamp     : ℤ
  expiresAt     : Json
  deliveryState : String

/-- The contacts, the rows in the order of their ids, and the last id that was given. -/
structure FlaskNode where
  contacts : Dict String LegacyContact
  messages : List MessageRow
  lastId   : ℕ

variable (L : Library)

namespace FlaskNode

/-- `save_message`; a row that is inserted has the default of its delivery state. -/
def saveMessage (peerOnion sender message : String) (timestamp : ℤ) (expiresAt : Json)
    (f : FlaskNode) : FlaskNode :=
  let peer := normalized L peerOnion
  let expiresAt := (LegacyNode.new "" f.contacts).savedExpiry peer timestamp expiresAt
  if bindable (.int timestamp) && bindable expiresAt then
    { f with
      messages := f.messages ++ [{
        id := f.lastId + 1, peerOnion := peer, sender, message, timestamp, expiresAt,
        deliveryState := "sent" }]
      lastId := f.lastId + 1 }
  else f

/-- `update_message_delivery_state`; a timestamp that SQLite cannot hold is refused, and no
row has it. -/
def updateMessageDeliveryState (peerOnion : String) (timestamp : ℤ) (state : String)
    (f : FlaskNode) : FlaskNode :=
  { f with messages := f.messages.map fun r =>
      if r.peerOnion = normalized L peerOnion ∧ r.timestamp = timestamp ∧ r.sender = "You" then
        { r with deliveryState := state }
      else r }

/-- `get_messages`: rows with one timestamp come in the order of their ids, and a negative
limit is none. -/
def getMessages (peerOnion : String) (limit offset : Option ℤ) (f : FlaskNode) :
    List MessageRow :=
  let rows := (f.messages.filter fun r => r.peerOnion = normalized L peerOnion).mergeSort
    fun r r' => r.timestamp ≤ r'.timestamp
  match limit with
  | none => rows
  | some limit =>
    let rows := rows.drop (offset.getD 0).toNat
    if limit < 0 then rows else rows.take limit.toNat

/-- `update_message_text`. -/
def updateMessageText (peerOnion : String) (timestamp : ℤ) (newText : String) (f : FlaskNode) :
    FlaskNode :=
  { f with messages := f.messages.map fun r =>
      if r.peerOnion = normalized L peerOnion ∧ r.timestamp = timestamp then
        { r with message := newText }
      else r }

/-- `delete_message_by_timestamp`. -/
def deleteByTimestamp (peerOnion : String) (timestamp : ℤ) (f : FlaskNode) : FlaskNode :=
  { f with messages := f.messages.filter fun r =>
      ¬ (r.peerOnion = normalized L peerOnion ∧ r.timestamp = timestamp) }

/-- `delete_expired_messages`. -/
def deleteExpired (now : ℤ) (f : FlaskNode) : FlaskNode :=
  { f with messages := f.messages.filter fun r => !L.expired r.expiresAt now }

/-- `delete_contact`; its messages go with it when foreign keys are enforced. -/
def deleteContact (peerOnion : String) (enforced : Bool) (f : FlaskNode) : FlaskNode :=
  { f with
    contacts := f.contacts.erase (normalized L peerOnion)
    messages := f.messages.filter fun r =>
      ¬ (enforced = true ∧ r.peerOnion = normalized L peerOnion) }

/-- The statements of `migrate_contact_address` that change these tables. -/
def migrateContactAddress (oldAddress newAddress : String) (f : FlaskNode) : FlaskNode :=
  match f.contacts.get? (normalized L oldAddress) with
  | some contact =>
    { f with
      contacts := (f.contacts.erase (normalized L oldAddress)).insert (normalized L newAddress) contact
      messages := f.messages.map fun r =>
        if r.peerOnion = normalized L oldAddress then
          { r with peerOnion := normalized L newAddress }
        else r }
  | none => f

/-- `reset_app_data`. -/
def resetAppData (f : FlaskNode) : FlaskNode := { f with contacts := .empty, messages := [] }

end FlaskNode

/-! ## Histories -/

/-- `get_contact`, of a contact that must be accepted. -/
def acceptedContact (onion : String) (failure : Failure) :
    EStateM Failure FlaskNode LegacyContact := do
  match (← get).contacts.get? (normalized L onion) with
  | some contact => if contact.status = "accepted" then return contact else throw failure
  | none => throw failure

/-- `send_message`, with `json.dumps` of the payload; the transmission is left out. -/
def sendMessage (dumps : IncomingMessage → String) (loggedIn : Bool) (data : Body) (now : ℤ) :
    EStateM Failure FlaskNode (ℤ × Json) := do
  let (onion, m) ← ofExcept (readSend L loggedIn data now)
  let contact ← acceptedContact L onion (.http 400 "Contact not accepted or not found.")
  let expiresAt := sentExpiry contact now
  if !m.ephemeral then
    modify (FlaskNode.saveMessage L onion "me" (dumps m) now expiresAt)
  return (now, expiresAt)

/-- What is done to the two tables. -/
inductive DeliveryEvent
  | sendMessage (loggedIn : Bool) (data : Body) (now : ℤ)
  -- a round of the loop of `send_message_batch`
  | sendBatched (onion message : String) (now : ℤ) (expiresAt : Json)
  -- `p2p_message`, or a round of the loop of `p2p_message_batch`
  | receive (sender message : String) (timestamp : ℤ) (expiresAt : Json)
  | receipt (onion : String) (timestamp : ℤ) (state : String)
  | edit (onion : String) (timestamp : ℤ) (newText : String)
  | delete (onion : String) (timestamp : ℤ)
  | sweep (now : ℤ)
  | setContact (onion : String) (contact : LegacyContact)
  | deleteContact (onion : String) (enforced : Bool)
  | migrate (oldAddress newAddress : String)
  | reset

/-- A peer is named by an address that has passed `validate_onion`. -/
def FlaskNode.apply (dumps : IncomingMessage → String) (f : FlaskNode) :
    DeliveryEvent → Option FlaskNode
  | .sendMessage loggedIn data now =>
      some (DeliveryStates.sendMessage L dumps loggedIn data now f).state
  | .sendBatched onion message now expiresAt =>
      some (f.saveMessage L onion "me" message now expiresAt)
  | .receive sender message timestamp expiresAt =>
      if isOnion sender then some (f.saveMessage L sender sender message timestamp expiresAt)
      else none
  | .receipt onion timestamp state => some (f.updateMessageDeliveryState L onion timestamp state)
  | .edit onion timestamp newText => some (f.updateMessageText L onion timestamp newText)
  | .delete onion timestamp => some (f.deleteByTimestamp L onion timestamp)
  | .sweep now => some (f.deleteExpired L now)
  | .setContact onion contact =>
      some { f with contacts := f.contacts.insert (normalized L onion) contact }
  | .deleteContact onion enforced => some (f.deleteContact L onion enforced)
  | .migrate oldAddress newAddress => some (f.migrateContactAddress L oldAddress newAddress)
  | .reset => some f.resetAppData

def FlaskNode.new : FlaskNode := ⟨.empty, [], 0⟩

/-- `f'` comes after `f`. -/
abbrev Later (dumps : IncomingMessage → String) (f f' : FlaskNode) : Prop :=
  Run (FlaskNode.apply L dumps) (fun _ _ => True) f f'

/-! ## What an update should do -/

/-- `send_message` stores `sent`. -/
def Sends (dumps : IncomingMessage → String) (sent : MessageRow) (f f' : FlaskNode) : Prop :=
  ∃ loggedIn data now expiresAt,
    sendMessage L dumps loggedIn data now f = .ok (now, expiresAt) f' ∧
      f'.messages = f.messages ++ [sent]

/-- An update for a message that was sent to `peer`: what is listed of the message has the new
state, and the messages that the peer has sent, and those of other conversations, are as before. -/
structure Reaches (peer : String) (sent : MessageRow) (state : String) (f f' : FlaskNode) :
    Prop where
  reached : ∀ r ∈ f'.getMessages L peer none none, r.id = sent.id → r.deliveryState = state
  frame   : ∀ other, (f'.getMessages L other none none).filter (fun r =>
      r.sender ≠ "me" ∨ normalized L other ≠ normalized L peer) =
    (f.getMessages L other none none).filter fun r =>
      r.sender ≠ "me" ∨ normalized L other ≠ normalized L peer

/-! ## What the table holds -/

/-- No row has the sender that an update looks for, and none has another state than the first. -/
def Unmarked (f : FlaskNode) : Prop :=
  ∀ r ∈ f.messages, r.sender ≠ "You" ∧ r.deliveryState = "sent"

variable {L} {f f' : FlaskNode}

/-- An update finds nothing to change. -/
theorem Unmarked.update_eq (h : Unmarked f) (peerOnion : String) (timestamp : ℤ) (state : String) :
    f.updateMessageDeliveryState L peerOnion timestamp state = f := by
  have hsame : f.messages.map (fun r =>
      if r.peerOnion = normalized L peerOnion ∧ r.timestamp = timestamp ∧ r.sender = "You" then
        { r with deliveryState := state }
      else r) = f.messages := by
    refine (List.map_congr_left fun r hr => ?_).trans (List.map_id _)
    exact if_neg fun hfound => (h r hr).1 hfound.2.2
  rw [FlaskNode.updateMessageDeliveryState, hsame]

theorem Unmarked.saveMessage (h : Unmarked f) {peerOnion sender message : String} {timestamp : ℤ}
    {expiresAt : Json} (hsender : sender ≠ "You") :
    Unmarked (f.saveMessage L peerOnion sender message timestamp expiresAt) := by
  unfold FlaskNode.saveMessage
  dsimp only
  split
  · intro r hr
    rcases List.mem_append.mp hr with hmem | hmem
    · exact h r hmem
    · rw [List.mem_singleton.mp hmem]
      exact ⟨hsender, rfl⟩
  · exact h

theorem Unmarked.filter (h : Unmarked f) (contacts : Dict String LegacyContact)
    (p : MessageRow → Bool) : Unmarked { f with contacts, messages := f.messages.filter p } :=
  fun r hr => h r (List.mem_of_mem_filter hr)

/-- Changes of other columns. -/
theorem Unmarked.map (h : Unmarked f) (contacts : Dict String LegacyContact)
    {g : MessageRow → MessageRow}
    (hg : ∀ r, (g r).sender = r.sender ∧ (g r).deliveryState = r.deliveryState) :
    Unmarked { f with contacts, messages := f.messages.map g } := by
  intro r hr
  obtain ⟨r₀, hr₀, rfl⟩ := List.mem_map.mp hr
  rw [(hg r₀).1, (hg r₀).2]
  exact h r₀ hr₀

/-- An address that has been validated is not the user's mark. -/
theorem ne_you_of_isOnion {s : String} (h : isOnion s = true) : s ≠ "You" := by
  rintro rfl
  exact absurd h (by decide)

theorem acceptedContact_cases (onion : String) (failure : Failure) (f : FlaskNode) :
    acceptedContact L onion failure f = .error failure f ∨
      ∃ contact, acceptedContact L onion failure f = .ok contact f := by
  unfold acceptedContact
  rw [apply_bind, apply_get]
  dsimp only
  rcases f.contacts.get? (normalized L onion) with _ | contact
  · exact .inl rfl
  · dsimp only
    split_ifs
    · exact .inr ⟨contact, rfl⟩
    · exact .inl rfl

/-- `send_message` fails, or stores at most one row, with the user's mark. -/
theorem sendMessage_cases (dumps : IncomingMessage → String) (loggedIn : Bool) (data : Body)
    (now : ℤ) (f : FlaskNode) :
    (∃ e, sendMessage L dumps loggedIn data now f = .error e f) ∨
      ∃ onion m expiresAt, readSend L loggedIn data now = .ok (onion, m) ∧
        sendMessage L dumps loggedIn data now f = .ok (now, expiresAt)
          (if m.ephemeral then f
            else f.saveMessage L onion "me" (dumps m) now expiresAt) := by
  unfold sendMessage
  rw [apply_bind]
  rcases readSend L loggedIn data now with e | ⟨onion, m⟩
  · exact .inl ⟨e, rfl⟩
  dsimp only [apply_ofExcept_ok]
  rw [apply_bind]
  rcases acceptedContact_cases (L := L) onion (.http 400 "Contact not accepted or not found.") f
    with hcontact | ⟨contact, hcontact⟩
  · exact .inl ⟨_, by rw [hcontact]⟩
  · refine .inr ⟨onion, m, sentExpiry contact now, rfl, ?_⟩
    rw [hcontact]
    cases m.ephemeral <;> rfl

theorem Unmarked.sendMessage (h : Unmarked f) (dumps : IncomingMessage → String) (loggedIn : Bool)
    (data : Body) (now : ℤ) :
    Unmarked (DeliveryStates.sendMessage L dumps loggedIn data now f).state := by
  obtain ⟨e, hsend⟩ | ⟨onion, m, expiresAt, -, hsend⟩ :=
    sendMessage_cases dumps loggedIn data now f
  · rw [hsend]
    exact h
  · rw [hsend]
    dsimp only [Result.state]
    split
    · exact h
    · exact h.saveMessage (by decide)

theorem Unmarked.apply {dumps : IncomingMessage → String} {e : DeliveryEvent} (h : Unmarked f)
    (happly : f.apply L dumps e = some f') : Unmarked f' := by
  cases e with
  | sendMessage loggedIn data now =>
    cases happly
    exact h.sendMessage dumps loggedIn data now
  | sendBatched onion message now expiresAt =>
    cases happly
    exact h.saveMessage (by decide)
  | receive sender message timestamp expiresAt =>
    -- the sender is an address, and so not the user's mark
    simp only [FlaskNode.apply] at happly
    split at happly
    · rename_i honion
      cases happly
      exact h.saveMessage (ne_you_of_isOnion honion)
    · cases happly
  | receipt onion timestamp state =>
    cases happly
    rw [h.update_eq]
    exact h
  | edit onion timestamp newText =>
    cases happly
    refine h.map _ fun r => ?_
    split <;> exact ⟨rfl, rfl⟩
  | delete onion timestamp =>
    cases happly
    exact h.filter _ _
  | sweep now =>
    cases happly
    exact h.filter _ _
  | setContact onion contact =>
    cases happly
    exact h
  | deleteContact onion enforced =>
    cases happly
    exact h.filter _ _
  | migrate oldAddress newAddress =>
    cases happly
    unfold FlaskNode.migrateContactAddress
    split
    · refine h.map _ fun r => ?_
      split <;> exact ⟨rfl, rfl⟩
    · exact h
  | reset =>
    cases happly
    exact fun r hr => nomatch hr

theorem Later.unmarked {dumps : IncomingMessage → String} (h : Unmarked f)
    (hlater : Later L dumps f f') : Unmarked f' :=
  hlater.invariant h fun _ _ _ h _ happly => h.apply happly

/-! ## Receipts -/

theorem mem_getMessages {r : MessageRow} {peer : String} :
    r ∈ f.getMessages L peer none none ↔ r ∈ f.messages ∧ r.peerOnion = normalized L peer := by
  simp [FlaskNode.getMessages, List.mem_mergeSort]

/-- After any history, `send_message` stores a message for `peer`, and after any further one the
message is still there: an update for the peer and the timestamp reaches it only if it says what
every message says from the beginning. -/
theorem reaches_iff {dumps : IncomingMessage → String} {f₀ f₁ f₂ : FlaskNode}
    (hbefore : Later L dumps .new f₀) {sent : MessageRow} (hsends : Sends L dumps sent f₀ f₁)
    (hlater : Later L dumps f₁ f₂) {peer : String}
    (hkept : ∃ r ∈ f₂.getMessages L peer none none, r.id = sent.id) (state : String) :
    Reaches L peer sent state f₂ (f₂.updateMessageDeliveryState L peer sent.timestamp state) ↔
      state = "sent" := by
  obtain ⟨loggedIn, data, now, expiresAt, hsend, -⟩ := hsends
  have hnew : Unmarked FlaskNode.new := fun r hr => nomatch hr
  have hunmarked₁ : Unmarked f₁ := by
    have hrun := (Later.unmarked hnew hbefore).sendMessage (L := L) dumps loggedIn data now
    rwa [hsend] at hrun
  have hunmarked : Unmarked f₂ := Later.unmarked hunmarked₁ hlater
  rw [hunmarked.update_eq]
  -- the table is as before, and every row has the state of the default
  constructor
  · intro hreaches
    obtain ⟨r, hr, hid⟩ := hkept
    rw [← hreaches.reached r hr hid]
    exact (hunmarked r (mem_getMessages.mp hr).1).2
  · rintro rfl
    exact ⟨fun r hr _ => (hunmarked r (mem_getMessages.mp hr).1).2, fun _ => rfl⟩

/-! ## A message that has been read -/

def toCarolBody : Body :=
  [("onion_address", .str carolOnion), ("iv", .str "iv"), ("ciphertext", .str "text"),
    ("seq", .int 1)]

/-- A node with one contact. -/
def carolsContact : FlaskNode :=
  { FlaskNode.new with
    contacts :=
      Dict.empty.insert (normalized plainLibrary carolOnion) ⟨"accepted", none, none, none⟩ }

def messageToCarol : MessageRow := ⟨1, carolOnion, "me", "text", 1000, .null, "sent"⟩

def sentToCarol : FlaskNode :=
  (sendMessage plainLibrary (fun _ => "text") true toCarolBody 1000 carolsContact).state

theorem later_carolsContact :
    Later plainLibrary (fun _ => "text") .new carolsContact :=
  .next (.setContact carolOnion ⟨"accepted", none, none, none⟩) .start trivial rfl

theorem sends_messageToCarol :
    Sends plainLibrary (fun _ => "text") messageToCarol carolsContact sentToCarol :=
  ⟨true, toCarolBody, 1000, .null, rfl, rfl⟩

theorem messageToCarol_mem :
    messageToCarol ∈ sentToCarol.getMessages plainLibrary carolOnion none none := by
  rw [mem_getMessages]
  exact ⟨List.mem_singleton_self _, rfl⟩

/-- What the message says anyway. -/
theorem reaches_sent :
    Reaches plainLibrary carolOnion messageToCarol "sent" sentToCarol
      (sentToCarol.updateMessageDeliveryState plainLibrary carolOnion 1000 "sent") :=
  (reaches_iff later_carolsContact sends_messageToCarol .start
    ⟨messageToCarol, messageToCarol_mem, rfl⟩ "sent").mpr rfl

/-- The receipt of a message that has been read changes nothing. -/
theorem read_unreached :
    ∃ f₀ f₁ sent, Later plainLibrary (fun _ => "text") .new f₀ ∧
      Sends plainLibrary (fun _ => "text") sent f₀ f₁ ∧
      sent ∈ f₁.getMessages plainLibrary carolOnion none none ∧
      ¬ Reaches plainLibrary carolOnion sent "read" f₁
        (f₁.updateMessageDeliveryState plainLibrary carolOnion sent.timestamp "read") := by
  refine ⟨carolsContact, sentToCarol, messageToCarol, later_carolsContact, sends_messageToCarol,
    messageToCarol_mem, fun hreaches => ?_⟩
  have hlisted : messageToCarol ∈ (sentToCarol.updateMessageDeliveryState plainLibrary carolOnion
      messageToCarol.timestamp "read").getMessages plainLibrary carolOnion none none := by
    rw [mem_getMessages]
    exact ⟨List.mem_singleton_self _, rfl⟩
  exact absurd (hreaches.reached messageToCarol hlisted rfl) (by decide)

end AnonyMus.P2p.DeliveryStates
