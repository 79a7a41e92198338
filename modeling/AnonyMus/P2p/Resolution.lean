import AnonyMus.Lib.Simulation
import AnonyMus.P2p.Deliverable
import AnonyMus.P2p.Isolation

/-!
# P2P node — the senders of sealed messages

A sealed message is filed under `sealed`. When the client has opened it, it
names the sender to `resolve_sender`, which looks the message up by its id
alone: it writes the sender if that is an accepted contact and the number of the
message is above those of the contact's other messages, and deletes the message
otherwise.

* `TouchesOwn` — a call changes at most an unresolved message of the user, and
  can be repeated;
* `touchesOwn_iff` — a call does so exactly when its message is one, or has the
  sender already;
* `Attributed` — sealed messages of a contact are stored under its address;
* `Above`, `attributed_iff` — they all are after a run of calls and deliveries
  exactly when every call finds the number of its message above the others.
-/

namespace AnonyMus.P2p.Resolution

open EStateM Isolation
open Relay (strip)

/-! ## One call -/

/-- The message is still sealed, addressed to the user, and not sent by the user. -/
def Unresolved (user : User) (msg : Message) : Prop :=
  msg.senderOnion = "sealed" ∧ some msg.recipientOnion = user.onionAddress ∧
    some msg.senderOnion ≠ user.onionAddress

instance (user : User) (msg : Message) : Decidable (Unresolved user msg) :=
  inferInstanceAs (Decidable (_ ∧ _))

section

variable (R : Runtime) (username : String) (user : User) (messageId : String)
  (body : ResolveSenderRequest)

/-- The call leaves the database as it is, or changes one unresolved message of the user; and what
succeeds once succeeds again, and changes nothing more. -/
structure TouchesOwn (n : Node) : Prop where
  frame : (resolveSender R (session username "default") messageId body n).state = n ∨
    ∃ msg ∈ n.messages.get? messageId, Unresolved user msg ∧
      ∃ messages : Dict String Message,
        (resolveSender R (session username "default") messageId body n).state =
          { n with messages := messages } ∧
        messages.entries.filter (fun row => row.1 ≠ messageId) =
          n.messages.entries.filter fun row => row.1 ≠ messageId
  again : ∀ answer n', resolveSender R (session username "default") messageId body n = .ok answer n' →
    resolveSender R (session username "default") messageId body n' = .ok answer n'

end

section

variable {R : Runtime} {username : String} {user : User} {n : Node} {messageId sender : String}
  {msg : Message}

/-- The numbers that a message is compared with are those of other rows. -/
theorem lastSeqBut_setMessage (m : Message) (recipient : Option String) :
    (n.setMessage messageId m).lastSeqBut messageId sender recipient =
      n.lastSeqBut messageId sender recipient := by
  have hhidden : ∀ m : Message, (decide (m.senderOnion = sender ∧
      some m.recipientOnion = recipient ∧ messageId ≠ messageId)) = false := by simp
  unfold Node.lastSeqBut Node.setMessage
  rw [Dict.filter_insert (hhidden m) fun m' _ => hhidden m']

/-- A message that has got its sender can be given it again. -/
theorem resolves_again (h : Resolves user n messageId msg sender) :
    Resolves user (n.setMessage messageId { msg with senderOnion := sender }) messageId
      { msg with senderOnion := sender } sender := by
  refine ⟨h.accepted, ?_⟩
  rw [lastSeqBut_setMessage]
  exact h.above

/-- A call that succeeds can be repeated. -/
theorem resolveSender_again (hsigned : SignedIn username user n) (body : ResolveSenderRequest)
    {answer : String × String} {n' : Node}
    (hok : resolveSender R (session username "default") messageId body n = .ok answer n') :
    resolveSender R (session username "default") messageId body n' = .ok answer n' := by
  rcases hmsg : n.messages.get? messageId with _ | msg
  · rw [resolveSender_missing hsigned hmsg] at hok
    cases hok
  rcases @resolveSender_cases R username user n hsigned messageId msg hmsg body with
    ⟨hresolves, hset⟩ | ⟨-, e, herase⟩
  · obtain ⟨rfl, rfl⟩ := Result.ok.inj (hset.symm.trans hok)
    have hsigned' : SignedIn username user (n.setMessage messageId
        { msg with senderOnion := R.lower (strip body.senderOnion) }) :=
      ⟨hsigned.name, hsigned.found⟩
    have hmsg' := Dict.get?_insert n.messages messageId messageId
      { msg with senderOnion := R.lower (strip body.senderOnion) }
    rw [if_pos rfl] at hmsg'
    -- the second call writes what is there
    rcases @resolveSender_cases R username user _ hsigned' messageId _ hmsg' body with
      ⟨-, hset'⟩ | ⟨hnot, -⟩
    · rw [hset']
      congr 1
      unfold Node.setMessage
      dsimp only
      rw [Dict.insert_of_get? hmsg']
    · exact absurd (resolves_again hresolves) hnot
  · cases herase.symm.trans hok

/-- A call touches what it may exactly when its message is unresolved, or already has the sender
that the call would write. -/
theorem touchesOwn_iff (R : Runtime) {username : String} {user : User} {n : Node}
    (hsigned : SignedIn username user n) (messageId : String) (body : ResolveSenderRequest) :
    TouchesOwn R username user messageId body n ↔
      ∀ msg ∈ n.messages.get? messageId, Unresolved user msg ∨
        Resolves user n messageId msg (R.lower (strip body.senderOnion)) ∧
          msg.senderOnion = R.lower (strip body.senderOnion) := by
  rcases hmsg : n.messages.get? messageId with _ | msg
  · refine iff_of_true ⟨.inl ?_, fun _ _ => resolveSender_again hsigned body⟩ (by simp)
    rw [resolveSender_missing hsigned hmsg, Result.state_error]
  have hfound : (∀ msg' ∈ some msg, Unresolved user msg' ∨
      Resolves user n messageId msg' (R.lower (strip body.senderOnion)) ∧
        msg'.senderOnion = R.lower (strip body.senderOnion)) ↔
      Unresolved user msg ∨ Resolves user n messageId msg (R.lower (strip body.senderOnion)) ∧
        msg.senderOnion = R.lower (strip body.senderOnion) := by
    simp
  rw [hfound]
  constructor
  · rintro ⟨hunchanged | ⟨msg', hmsg', hunresolved, -⟩, -⟩
    · right
      rcases @resolveSender_cases R username user n hsigned messageId msg hmsg body with
        ⟨hresolves, hset⟩ | ⟨-, e, herase⟩
      · -- what is written was there
        rw [hset, Result.state_ok] at hunchanged
        have hwritten := Dict.get?_insert n.messages messageId messageId
          { msg with senderOnion := R.lower (strip body.senderOnion) }
        rw [if_pos rfl, ← Node.setMessage_messages, hunchanged, hmsg, Option.some.injEq] at hwritten
        exact ⟨hresolves, congrArg Message.senderOnion hwritten⟩
      · rw [herase, Result.state_error] at hunchanged
        have hgone := Dict.erase_eq_self_iff.mp (congrArg Node.messages hunchanged)
        cases hgone.symm.trans hmsg
    · obtain rfl := Option.some.inj (hmsg.symm.trans hmsg')
      exact .inl hunresolved
  · intro hmay
    refine ⟨?_, fun _ _ => resolveSender_again hsigned body⟩
    rcases hmay with hunresolved | ⟨hresolves, hsender⟩
    · right
      refine ⟨msg, hmsg, hunresolved, ?_⟩
      rcases @resolveSender_cases R username user n hsigned messageId msg hmsg body with
        ⟨-, hset⟩ | ⟨-, e, herase⟩
      · refine ⟨_, by rw [hset]; rfl, Dict.filter_insert (by simp) (by simp)⟩
      · exact ⟨_, by rw [herase]; rfl, Dict.filter_erase (by simp)⟩
    · left
      rcases @resolveSender_cases R username user n hsigned messageId msg hmsg body with
        ⟨-, hset⟩ | ⟨hnot, -⟩
      · rw [hset, Result.state_ok, ← hsender]
        unfold Node.setMessage
        rw [Dict.insert_of_get? hmsg]
      · exact absurd hresolves hnot

end

/-- A node with one message. -/
def nodeStoring (messageId : String) (msg : Message) : Node :=
  (sharedNode .empty).setMessage messageId msg

/-- A message to Alice. -/
def messageToAlice (sender : String) (sequenceNumber : ℤ) : Message where
  senderOnion    := sender
  recipientOnion := "aaaaaaaaaaaaaaaa.onion"
  ciphertextB64  := ""
  ivB64          := ""
  sequenceNumber := sequenceNumber
  sentAt         := aMoment
  delivered      := false
  disappearsAt   := none
  isDeleted      := false
  sealedSender   := none

/-- A call that names a stranger takes no more than the sealed message it is about. -/
theorem stranger_named :
    TouchesOwn asciiRuntime "alice" alice "id" ⟨"dddddddddddddddd.onion"⟩
      (nodeStoring "id" (messageToAlice "sealed" 0)) := by
  refine (touchesOwn_iff asciiRuntime ⟨by decide, rfl⟩ "id" _).mpr fun msg hmsg => .inl ?_
  obtain rfl : msg = messageToAlice "sealed" 0 := (Option.some.inj hmsg).symm
  decide

/-- A call that names a stranger deletes a message whose sender is known. -/
theorem resolved_deleted :
    ¬ TouchesOwn asciiRuntime "alice" alice "id" ⟨"dddddddddddddddd.onion"⟩
      (nodeStoring "id" (messageToAlice "cccccccccccccccc.onion" 0)) := by
  rintro ⟨hunchanged | ⟨msg, hmsg, ⟨hsealed, -⟩, -⟩, -⟩
  · have hsize := congrArg (fun n => n.messages.size) hunchanged
    revert hsize
    decide +kernel
  · obtain rfl : msg = messageToAlice "cccccccccccccccc.onion" 0 := (Option.some.inj hmsg).symm
    exact absurd hsealed (by decide)

/-! ## Runs -/

inductive Event
  | resolve (messageId : String)
  | deliver (body : Json) (uuid : String)

section

variable (R : Runtime) (username : String) (user : User) (claimed : String) (rows : List Row)

/-- The address that the client names in every call. -/
def claimedOnion : String := R.lower (strip claimed)

def Event.run : Event → Handler Unit
  | resolve messageId => do
    let _ ← resolveSender R (session username "default") messageId ⟨claimed⟩
  | deliver body uuid => Request.run R (.message body uuid)

/-- The client has its session, and names an accepted contact. -/
structure Ready (n : Node) : Prop where
  signed   : SignedIn username user n
  accepted : ∃ e ∈ n.contact? user.onionAddress (claimedOnion R claimed), e.2.status = .accepted

/-- The sealed messages of the contact, as they are stored. -/
structure Waiting (n : Node) : Prop where
  stored     : ∀ row ∈ rows, n.messages.get? row.1 = some row.2
  unresolved : ∀ row ∈ rows, Unresolved user row.2

/-- Every message is resolved, no other one is, and what is delivered gets an id of its own. -/
structure Covers (events : List Event) : Prop where
  called : ∀ row ∈ rows, .resolve row.1 ∈ events
  only   : ∀ messageId, .resolve messageId ∈ events → ∃ row ∈ rows, row.1 = messageId
  fresh  : ∀ body uuid, .deliver body uuid ∈ events → ∀ row ∈ rows, uuid ≠ row.1

/-- Every message is stored with its sender. -/
def Attributed (n : Node) : Prop :=
  ∀ row ∈ rows, n.messages.get? row.1 = some { row.2 with senderOnion := claimedOnion R claimed }

/-- A call finds the number of its message above those of the contact's other messages. -/
def Above : Event → Node → Prop
  | .resolve messageId, n => ∀ row ∈ rows, row.1 = messageId →
    ∀ lastSeq ∈ n.lastSeqBut messageId (claimedOnion R claimed) user.onionAddress,
      lastSeq < row.2.sequenceNumber
  | .deliver _ _, _ => True

/-- What the contact delivers later under its name has a number above those of the messages. -/
def Later (events : List Event) : Prop :=
  ∀ body uuid, .deliver body uuid ∈ events → ∀ request ∈ P2PMessageRequest.read R body,
    namedSender R request.sender = .ok (some (claimedOnion R claimed)) →
      ∀ row ∈ rows, row.2.sequenceNumber < request.seq

end

def Event.isDelivery : Event → Bool
  | resolve _ => false
  | deliver _ _ => true

/-! ## One step -/

section

variable {R : Runtime} {username claimed : String} {user : User} {rows : List Row} {n : Node}
  {id : String} {m : Message}

theorem run_resolve (messageId : String) :
    ((Event.resolve messageId).run R username claimed n).state =
      (resolveSender R (session username "default") messageId ⟨claimed⟩ n).state := by
  rw [Event.run]
  exact state_discard (resolveSender R (session username "default") messageId ⟨claimed⟩) () n

/-- A call resolves a message that is above the others, and deletes any other one. -/
theorem get?_resolve (hready : Ready R username user claimed n) (hm : n.messages.get? id = some m) :
    ((∀ lastSeq ∈ n.lastSeqBut id (claimedOnion R claimed) user.onionAddress,
        lastSeq < m.sequenceNumber) ∧
      ((Event.resolve id).run R username claimed n).state =
        n.setMessage id { m with senderOnion := claimedOnion R claimed }) ∨
    (¬ (∀ lastSeq ∈ n.lastSeqBut id (claimedOnion R claimed) user.onionAddress,
        lastSeq < m.sequenceNumber) ∧
      ((Event.resolve id).run R username claimed n).state =
        { n with messages := n.messages.erase id }) := by
  rw [run_resolve]
  rcases @resolveSender_cases R username user n hready.signed id m hm ⟨claimed⟩ with
    ⟨⟨-, habove⟩, hset⟩ | ⟨hnot, e, herase⟩
  · exact .inl ⟨habove, by rw [hset]; rfl⟩
  · exact .inr ⟨fun habove => hnot ⟨hready.accepted, habove⟩, by rw [herase]; rfl⟩

/-- No event changes the users and the contacts. -/
theorem run_frame (hready : Ready R username user claimed n) (e : Event) :
    (e.run R username claimed n).state.users = n.users ∧
      (e.run R username claimed n).state.contacts = n.contacts := by
  rcases e with id | ⟨body, uuid⟩
  · rcases hm : n.messages.get? id with _ | m
    · rw [run_resolve, resolveSender_missing hready.signed hm]
      exact ⟨rfl, rfl⟩
    · rcases get?_resolve hready hm with ⟨-, hstate⟩ | ⟨-, hstate⟩ <;> rw [hstate] <;>
        exact ⟨rfl, rfl⟩
  · rw [Event.run, Request.run, state_parsed]
    rcases P2PMessageRequest.read R body with _ | request
    · exact ⟨rfl, rfl⟩
    dsimp only
    rcases p2pMessage_cases (R := R) n request uuid with
      ⟨e, hrun, -⟩ | ⟨_, _, n', hrun, -, -, hcontacts, husers⟩ <;> rw [hrun]
    · exact ⟨rfl, rfl⟩
    · exact ⟨husers, hcontacts⟩

theorem Ready.run (hready : Ready R username user claimed n) (e : Event) :
    Ready R username user claimed (e.run R username claimed n).state := by
  obtain ⟨husers, hcontacts⟩ := run_frame hready e
  constructor
  · refine ⟨hready.signed.name, ?_⟩
    unfold Node.user?
    rw [husers]
    exact hready.signed.found
  · unfold Node.contact?
    rw [hcontacts]
    exact hready.accepted

/-- A call leaves the other messages alone. -/
theorem get?_resolve_other (hready : Ready R username user claimed n) {messageId : String}
    (hne : id ≠ messageId) :
    ((Event.resolve messageId).run R username claimed n).state.messages.get? id =
      n.messages.get? id := by
  rcases hm : n.messages.get? messageId with _ | m
  · rw [run_resolve, resolveSender_missing hready.signed hm]
    rfl
  · rcases get?_resolve hready hm with ⟨-, hstate⟩ | ⟨-, hstate⟩ <;> rw [hstate]
    · rw [Node.setMessage_messages, Dict.get?_insert, if_neg hne]
    · rw [Dict.get?_erase, if_neg hne]

/-- What a delivery makes of the messages: it leaves them, or adds one under its id. -/
theorem messages_deliver (body : Json) (uuid : String) :
    let messages := ((Event.deliver body uuid).run R username claimed n).state.messages
    messages = n.messages ∨ n.messages.get? uuid = none ∧ ∃ m, messages = n.messages.insert uuid m := by
  rw [Event.run, Request.run, state_parsed]
  rcases P2PMessageRequest.read R body with _ | request
  · exact .inl rfl
  dsimp only
  rcases p2pMessage_cases (R := R) n request uuid with
    ⟨e, hrun, -⟩ | ⟨_, _, n', hrun, -, ⟨hmessages, -⟩ | ⟨sentAt, hmessages, -, hstorable, -⟩, -, -⟩
    <;> rw [hrun]
  · exact .inl rfl
  · exact .inl hmessages
  · exact .inr ⟨hstorable.1, _, hmessages⟩

theorem get?_deliver (body : Json) {uuid : String} (hne : id ≠ uuid) :
    ((Event.deliver body uuid).run R username claimed n).state.messages.get? id =
      n.messages.get? id := by
  rcases @messages_deliver R username claimed n body uuid with hmessages | ⟨-, m, hmessages⟩ <;>
    rw [hmessages]
  rw [Dict.get?_insert, if_neg hne]

/-! ## One message -/

/-- A message that is lost does not come back. -/
theorem get?_after_of_none {events : List Event} (hready : Ready R username user claimed n)
    (hfresh : ∀ body uuid, .deliver body uuid ∈ events → uuid ≠ id)
    (hm : n.messages.get? id = none) :
    (after (Event.run R username claimed) events n).messages.get? id = none := by
  induction events generalizing n with
  | nil => exact hm
  | cons e events ih =>
    rw [after_cons]
    refine ih (hready.run e) (fun body uuid he => hfresh body uuid (List.mem_cons_of_mem e he)) ?_
    rcases e with messageId | ⟨body, uuid⟩
    · by_cases hid : id = messageId
      · rw [← hid, run_resolve, resolveSender_missing hready.signed hm]
        exact hm
      · rw [get?_resolve_other hready hid, hm]
    · have hne := hfresh body uuid List.mem_cons_self
      rw [get?_deliver body (Ne.symm hne), hm]

/-- A message is stored under its sender after a run that resolves it exactly when every call for
it finds its number above the others. -/
theorem get?_after_iff {events : List Event} (hready : Ready R username user claimed n)
    (hfresh : ∀ body uuid, .deliver body uuid ∈ events → uuid ≠ id)
    (hstored : n.messages.get? id = some m ∧ .resolve id ∈ events ∨
      n.messages.get? id = some { m with senderOnion := claimedOnion R claimed }) :
    (after (Event.run R username claimed) events n).messages.get? id =
        some { m with senderOnion := claimedOnion R claimed } ↔
      AllMeet (Event.run R username claimed) (Above R user claimed [(id, m)]) events n := by
  induction events generalizing n with
  | nil =>
    rcases hstored with ⟨-, h⟩ | hstored
    · cases h
    · exact iff_of_true hstored trivial
  | cons e events ih =>
    have hnext := hready.run e
    have hfresh' : ∀ body uuid, Event.deliver body uuid ∈ events → uuid ≠ id :=
      fun body uuid he => hfresh body uuid (List.mem_cons_of_mem e he)
    rw [after_cons, AllMeet]
    by_cases he : e = .resolve id
    · subst he
      -- the message is resolved or lost, whether it was resolved before or not
      obtain ⟨m', hm', hseq, hsender⟩ : ∃ m', n.messages.get? id = some m' ∧
          m'.sequenceNumber = m.sequenceNumber ∧
          { m' with senderOnion := claimedOnion R claimed } =
            { m with senderOnion := claimedOnion R claimed } := by
        rcases hstored with ⟨hstored, -⟩ | hstored
        · exact ⟨m, hstored, rfl, rfl⟩
        · exact ⟨_, hstored, rfl, rfl⟩
      have habove : Above R user claimed [(id, m)] (.resolve id) n ↔
          ∀ lastSeq ∈ n.lastSeqBut id (claimedOnion R claimed) user.onionAddress,
            lastSeq < m'.sequenceNumber := by
        rw [hseq]
        simp [Above]
      rw [habove]
      rcases get?_resolve hready hm' with ⟨hyes, hstate⟩ | ⟨hnot, hstate⟩
      · rw [and_iff_right hyes]
        refine ih hnext hfresh' (.inr ?_)
        rw [hstate, Node.setMessage_messages, Dict.get?_insert, if_pos rfl, hsender]
      · refine iff_of_false ?_ fun h => hnot h.1
        rw [get?_after_of_none hnext hfresh' (by rw [hstate, Dict.get?_erase, if_pos rfl])]
        rintro ⟨⟩
    · have hsame : (e.run R username claimed n).state.messages.get? id = n.messages.get? id := by
        rcases e with messageId | ⟨body, uuid⟩
        · exact get?_resolve_other hready fun h => he (by rw [h])
        · exact get?_deliver body (Ne.symm (hfresh body uuid List.mem_cons_self))
      have hmeets : Above R user claimed [(id, m)] e n := by
        rcases e with messageId | ⟨body, uuid⟩
        · intro row hrow hid
          obtain rfl := List.mem_singleton.mp hrow
          exact absurd (congrArg Event.resolve hid.symm) he
        · trivial
      rw [and_iff_right hmeets]
      refine ih hnext hfresh' ?_
      rw [hsame]
      exact hstored.imp_left fun h => ⟨h.1, (List.mem_cons.mp h.2).resolve_left (Ne.symm he)⟩

/-- The calls of a run find every message above the others when they find each one so. -/
theorem allMeet_above_iff {events : List Event} :
    AllMeet (Event.run R username claimed) (Above R user claimed rows) events n ↔
      ∀ row ∈ rows, AllMeet (Event.run R username claimed) (Above R user claimed [row]) events n := by
  simp only [allMeet_iff]
  constructor
  · intro h row hrow done e todo hsplit
    have habove := h done e todo hsplit
    rcases e with messageId | ⟨body, uuid⟩
    · intro row' hrow' hid
      obtain rfl := List.mem_singleton.mp hrow'
      exact habove row' hrow hid
    · trivial
  · intro h done e todo hsplit
    rcases e with messageId | ⟨body, uuid⟩
    · intro row hrow hid
      exact h row hrow done _ todo hsplit row (List.mem_singleton_self row) hid
    · trivial

/-! ## With the deliveries alone -/

/-- The tables of a run, and of its deliveries alone: they differ in the senders of messages that
are resolved. -/
structure Mirrors (R : Runtime) (claimed : String) (rows : List Row) (n n' : Node) : Prop where
  users    : n.users = n'.users
  contacts : n.contacts = n'.contacts
  keys     : n.messages.keys = n'.messages.keys
  get?     : ∀ id, n.messages.get? id = n'.messages.get? id ∨ ∃ row ∈ rows, row.1 = id ∧
    n'.messages.get? id = some row.2 ∧
    n.messages.get? id = some { row.2 with senderOnion := claimedOnion R claimed }

section

variable {n' : Node} {events : List Event}

theorem forall_max?_lt_iff {l : List ℤ} {b : ℤ} : (∀ a ∈ l.max?, a < b) ↔ ∀ a ∈ l, a < b := by
  rcases hmax : l.max? with _ | c
  · rw [List.max?_eq_none_iff.mp hmax]
    simp
  · obtain ⟨hmem, hle⟩ := List.max?_eq_some_iff.mp hmax
    constructor
    · intro h a ha
      have hc := h c rfl
      have hac := hle a ha
      omega
    · rintro h _ ⟨⟩
      exact h c hmem

/-- The monotonic check, on the rows. -/
theorem forall_lastSeq_lt_iff {sender : String} {recipient : Option String} {seq : ℤ} :
    (∀ lastSeq ∈ n.lastSeq sender recipient, lastSeq < seq) ↔
      ∀ id m, n.messages.get? id = some m → m.senderOnion = sender →
        some m.recipientOnion = recipient → m.sequenceNumber < seq := by
  unfold Node.lastSeq
  rw [forall_max?_lt_iff]
  constructor
  · intro h id m hm hsender hrecipient
    refine h _ (List.mem_map_of_mem (List.mem_filter.mpr ⟨?_, by simp [hsender, hrecipient]⟩))
    exact List.mem_map.mpr ⟨(id, m), Dict.mem_entries_iff.mpr hm, rfl⟩
  · intro h seq' hseq'
    obtain ⟨m, hm, rfl⟩ := List.mem_map.mp hseq'
    obtain ⟨hmem, hboth⟩ := List.mem_filter.mp hm
    obtain ⟨⟨id, m'⟩, hentry, rfl⟩ := List.mem_map.mp hmem
    obtain ⟨hsender, hrecipient⟩ := of_decide_eq_true hboth
    exact h id m' (Dict.mem_entries_iff.mp hentry) hsender hrecipient

theorem Mirrors.get?_eq_none_iff (h : Mirrors R claimed rows n n') (id : String) :
    n.messages.get? id = none ↔ n'.messages.get? id = none := by
  rw [Dict.get?_eq_none_iff_notMem_keys, Dict.get?_eq_none_iff_notMem_keys, h.keys]

/-- The check of a sender passes in both, or in neither. -/
theorem Mirrors.checkSender (h : Mirrors R claimed rows n n')
    (hsealed : ∀ row ∈ rows, row.2.senderOnion = "sealed") (localUser : User) {sender : String}
    {seq : ℤ} (hlater : sender ≠ "sealed" → sender = claimedOnion R claimed →
      ∀ row ∈ rows, row.2.sequenceNumber < seq) :
    P2p.checkSender localUser sender seq n = .ok ⟨⟩ n ↔
      P2p.checkSender localUser sender seq n' = .ok ⟨⟩ n' := by
  rw [checkSender_ok_iff, checkSender_ok_iff, forall_lastSeq_lt_iff, forall_lastSeq_lt_iff]
  by_cases hseal : sender = "sealed"
  · exact iff_of_true (.inl hseal) (.inl hseal)
  rw [or_iff_right hseal, or_iff_right hseal]
  unfold Node.contact?
  rw [h.contacts]
  refine and_congr_right fun _ => ⟨fun hbelow id m hm hsender hrecipient => ?_,
    fun hbelow id m hm hsender hrecipient => ?_⟩
  · rcases h.get? id with hsame | ⟨row, hrow, -, hm', -⟩
    · exact hbelow id m (hsame.trans hm) hsender hrecipient
    · -- in the deliveries alone, the message is filed as sealed
      obtain rfl := Option.some.inj (hm.symm.trans hm')
      exact absurd (hsender.symm.trans (hsealed row hrow)) hseal
  · rcases h.get? id with hsame | ⟨row, hrow, -, -, hm'⟩
    · exact hbelow id m (hsame.symm.trans hm) hsender hrecipient
    · obtain rfl := Option.some.inj (hm.symm.trans hm')
      exact hlater hseal hsender.symm row hrow

/-- A message that is not filed as sealed is filed under the sender it names. -/
theorem named_of_filedUnder {named : Option String} {sealedSender : Option SealedSenderBlock}
    {sender : String} (h : filedUnder named sealedSender = .ok sender) (hne : sender ≠ "sealed") :
    named = some sender := by
  rcases named with _ | named
  · rcases sealedSender with _ | block
    · cases h
    · exact absurd (Except.ok.inj h).symm hne
  · rw [Except.ok.inj h]

theorem Mirrors.passes_iff (h : Mirrors R claimed rows n n')
    (hsealed : ∀ row ∈ rows, row.2.senderOnion = "sealed") {request : P2PMessageRequest}
    (hlater : namedSender R request.sender = .ok (some (claimedOnion R claimed)) →
      ∀ row ∈ rows, row.2.sequenceNumber < request.seq)
    (uuid : String) (localUser : User) (sender : String) :
    Passes R request uuid localUser sender n ↔ Passes R request uuid localUser sender n' := by
  have hchecks : (∃ named, namedSender R request.sender = .ok named ∧
      filedUnder named request.sealedSender = .ok sender) →
      (P2p.checkSender localUser sender request.seq n = .ok ⟨⟩ n ↔
        P2p.checkSender localUser sender request.seq n' = .ok ⟨⟩ n') := by
    rintro ⟨named, hnamed, hfiled⟩
    refine h.checkSender hsealed localUser fun hne hsender => hlater ?_
    rw [hnamed, named_of_filedUnder hfiled hne, hsender]
  have hstorable : n.Storable uuid request.seq ↔ n'.Storable uuid request.seq :=
    and_congr_left' (h.get?_eq_none_iff uuid)
  constructor
  · rintro ⟨huser, hfiled, hcheck, htime, hstore⟩
    exact ⟨h.users ▸ huser, hfiled, (hchecks hfiled).mp hcheck, htime, hstore.imp_right hstorable.mp⟩
  · rintro ⟨huser, hfiled, hcheck, htime, hstore⟩
    exact ⟨h.users ▸ huser, hfiled, (hchecks hfiled).mpr hcheck, htime,
      hstore.imp_right hstorable.mpr⟩

/-- A delivery is accepted by both, or refused by both. -/
theorem Mirrors.deliver (h : Mirrors R claimed rows n n')
    (hsealed : ∀ row ∈ rows, row.2.senderOnion = "sealed") {body : Json} (uuid : String)
    (hlater : ∀ request ∈ P2PMessageRequest.read R body,
      namedSender R request.sender = .ok (some (claimedOnion R claimed)) →
        ∀ row ∈ rows, row.2.sequenceNumber < request.seq) :
    Mirrors R claimed rows ((Event.deliver body uuid).run R username claimed n).state
      ((Event.deliver body uuid).run R username claimed n').state := by
  rw [Event.run, Request.run, state_parsed, state_parsed]
  rcases hread : P2PMessageRequest.read R body with _ | request
  · exact h
  dsimp only
  -- both nodes decide alike, so the two runs are refused or filed together
  have hpasses := h.passes_iff hsealed (hlater request hread) uuid
  rcases p2pMessage_cases (R := R) n request uuid with
    ⟨e, hrun, hnot⟩ | ⟨localUser, sender, s, hrun, hpass, hmessages, hcontacts, husers⟩ <;>
    rcases p2pMessage_cases (R := R) n' request uuid with
      ⟨e', hrun', hnot'⟩ | ⟨localUser', sender', s', hrun', hpass', hmessages', hcontacts', husers'⟩ <;>
    rw [hrun, hrun']
  · exact h
  · exact absurd ((hpasses _ _).mpr hpass') (hnot _ _)
  · exact absurd ((hpasses _ _).mp hpass) (hnot' _ _)
  obtain ⟨rfl, rfl⟩ := hpass'.unique n' ((hpasses _ _).mp hpass).localUser
    ((hpasses _ _).mp hpass).filed
  refine ⟨?_, ?_, ?_, ?_⟩
  · exact husers.trans (h.users.trans husers'.symm)
  · exact hcontacts.trans (h.contacts.trans hcontacts'.symm)
  all_goals
    simp only [Result.state_ok]
    rcases hmessages with ⟨hsame, hephemeral⟩ | ⟨sentAt, hinsert, hephemeral, -, htime⟩ <;>
      rcases hmessages' with ⟨hsame', hephemeral'⟩ | ⟨sentAt', hinsert', hephemeral', -, htime'⟩
  case refine_3.inl.inl => rw [hsame, hsame', h.keys]
  case refine_4.inl.inl => rw [hsame, hsame']; exact h.get?
  case refine_3.inr.inr => rw [hinsert, hinsert', Dict.keys_insert, Dict.keys_insert, h.keys]
  -- the row filed is the same in both, under the same time
  case refine_4.inr.inr =>
    obtain rfl := Option.some.inj (htime.symm.trans htime')
    intro id
    rw [hinsert, hinsert', Dict.get?_insert, Dict.get?_insert]
    split_ifs
    · exact .inl rfl
    · exact h.get? id
  all_goals
    rw [hephemeral] at hephemeral'
    cases hephemeral'

/-- A call that finds its message above the others does what the deliveries alone do not. -/
theorem Mirrors.resolve (h : Mirrors R claimed rows n n') (hready : Ready R username user claimed n)
    {row : Row} (hrow : row ∈ rows) (hstored : n'.messages.get? row.1 = some row.2)
    (habove : Above R user claimed rows (.resolve row.1) n) :
    Mirrors R claimed rows ((Event.resolve row.1).run R username claimed n).state n' := by
  obtain ⟨m, hm, hseq, hsender⟩ : ∃ m, n.messages.get? row.1 = some m ∧
      m.sequenceNumber = row.2.sequenceNumber ∧
      { m with senderOnion := claimedOnion R claimed } =
        { row.2 with senderOnion := claimedOnion R claimed } := by
    rcases h.get? row.1 with hsame | ⟨row', -, -, hstored', hm⟩
    · exact ⟨row.2, hsame.trans hstored, rfl, rfl⟩
    · rw [← Option.some.inj (hstored.symm.trans hstored')] at hm
      exact ⟨_, hm, rfl, rfl⟩
  have hlt := habove row hrow rfl
  rw [← hseq] at hlt
  rcases get?_resolve hready hm with ⟨-, hstate⟩ | ⟨hnot, -⟩
  · rw [hstate, hsender]
    refine ⟨h.users, h.contacts, ?_, ?_⟩
    · have hkey : row.1 ∈ n.messages.keys := by
        by_contra hnew
        rw [← Dict.get?_eq_none_iff_notMem_keys, hm] at hnew
        cases hnew
      rw [Node.setMessage_messages, Dict.keys_insert, Dict.addKey, if_pos hkey, h.keys]
    · intro id
      rw [Node.setMessage_messages, Dict.get?_insert]
      split_ifs with hid
      · exact .inr ⟨row, hrow, hid.symm, hid ▸ hstored, rfl⟩
      · exact h.get? id
  · exact absurd hlt hnot

/-- A run whose calls find their messages above the others mirrors its deliveries. -/
theorem Mirrors.after (h : Mirrors R claimed rows n n') (hready : Ready R username user claimed n)
    (hwaiting : Waiting user rows n') (honly : ∀ messageId, .resolve messageId ∈ events →
      ∃ row ∈ rows, row.1 = messageId)
    (hfresh : ∀ body uuid, .deliver body uuid ∈ events → ∀ row ∈ rows, uuid ≠ row.1)
    (hlater : Later R claimed rows events)
    (hmeet : AllMeet (Event.run R username claimed) (Above R user claimed rows) events n) :
    Mirrors R claimed rows (EStateM.after (Event.run R username claimed) events n)
      (EStateM.after (Event.run R username claimed) (events.filter Event.isDelivery) n') := by
  induction events generalizing n n' with
  | nil => exact h
  | cons e events ih =>
    obtain ⟨habove, hmeet⟩ := hmeet
    have honly' : ∀ messageId, Event.resolve messageId ∈ events → ∃ row ∈ rows, row.1 = messageId :=
      fun messageId he => honly messageId (List.mem_cons_of_mem e he)
    have hfresh' : ∀ body uuid, Event.deliver body uuid ∈ events → ∀ row ∈ rows, uuid ≠ row.1 :=
      fun body uuid he => hfresh body uuid (List.mem_cons_of_mem e he)
    have hlater' : Later R claimed rows events :=
      fun body uuid he => hlater body uuid (List.mem_cons_of_mem e he)
    rcases e with messageId | ⟨body, uuid⟩
    · rw [List.filter_cons_of_neg (by simp [Event.isDelivery]), after_cons]
      obtain ⟨row, hrow, rfl⟩ := honly messageId List.mem_cons_self
      exact ih (h.resolve hready hrow (hwaiting.stored row hrow) habove) (hready.run _) hwaiting
        honly' hfresh' hlater' hmeet
    · rw [List.filter_cons_of_pos rfl, after_cons, after_cons]
      have hsealed : ∀ row ∈ rows, row.2.senderOnion = "sealed" :=
        fun row hrow => (hwaiting.unresolved row hrow).1
      refine ih (h.deliver hsealed uuid (hlater body uuid List.mem_cons_self)) (hready.run _) ?_
        honly' hfresh' hlater' hmeet
      refine ⟨fun row hrow => ?_, hwaiting.unresolved⟩
      rw [get?_deliver body (Ne.symm (hfresh body uuid List.mem_cons_self row hrow))]
      exact hwaiting.stored row hrow

/-! ## Every message -/

/-- After a run that resolves the waiting messages, they are all stored under the contact exactly
when every call finds the number of its message above those of the contact's other messages; and
all such runs with the same deliveries leave the same messages. -/
theorem attributed_iff (R : Runtime) {username claimed : String} {user : User} {rows : List Row}
    {n : Node} (hready : Ready R username user claimed n) (hwaiting : Waiting user rows n) :
    (∀ events, Covers rows events →
      (Attributed R claimed rows (EStateM.after (Event.run R username claimed) events n) ↔
        AllMeet (Event.run R username claimed) (Above R user claimed rows) events n)) ∧
    ∀ events events', Covers rows events → Covers rows events' → Later R claimed rows events →
      events.filter Event.isDelivery = events'.filter Event.isDelivery →
      AllMeet (Event.run R username claimed) (Above R user claimed rows) events n →
      AllMeet (Event.run R username claimed) (Above R user claimed rows) events' n →
        (EStateM.after (Event.run R username claimed) events n).messages =
          (EStateM.after (Event.run R username claimed) events' n).messages := by
  have hattributed : ∀ events, Covers rows events →
      (Attributed R claimed rows (EStateM.after (Event.run R username claimed) events n) ↔
        AllMeet (Event.run R username claimed) (Above R user claimed rows) events n) := by
    intro events hcovers
    rw [allMeet_above_iff]
    refine forall₂_congr fun row hrow => ?_
    exact get?_after_iff hready (fun body uuid he => hcovers.fresh body uuid he row hrow)
      (.inl ⟨hwaiting.stored row hrow, hcovers.called row hrow⟩)
  refine ⟨hattributed, fun events events' hcovers hcovers' hlater hsame hmeet hmeet' => ?_⟩
  have hlater' : Later R claimed rows events' := by
    intro body uuid he
    have hdelivery : Event.deliver body uuid ∈ events'.filter Event.isDelivery :=
      List.mem_filter.mpr ⟨he, rfl⟩
    rw [← hsame] at hdelivery
    exact hlater body uuid (List.mem_filter.mp hdelivery).1
  have hstart : Mirrors R claimed rows n n := ⟨rfl, rfl, rfl, fun _ => .inl rfl⟩
  have hmirrors := hstart.after hready hwaiting hcovers.only hcovers.fresh hlater hmeet
  have hmirrors' := hstart.after hready hwaiting hcovers'.only hcovers'.fresh hlater' hmeet'
  rw [← hsame] at hmirrors'
  refine Dict.ext_get? (hmirrors.keys.trans hmirrors'.keys.symm) fun id => ?_
  by_cases hid : ∃ row ∈ rows, row.1 = id
  · obtain ⟨row, hrow, rfl⟩ := hid
    rw [(hattributed events hcovers).mpr hmeet row hrow,
      (hattributed events' hcovers').mpr hmeet' row hrow]
  · -- no other message differs from what the deliveries alone make of it
    have hplain : ∀ {s s' : Node}, Mirrors R claimed rows s s' →
        s.messages.get? id = s'.messages.get? id := by
      intro s s' h
      rcases h.get? id with hget | ⟨row, hrow, hid', -⟩
      · exact hget
      · exact absurd ⟨row, hrow, hid'⟩ hid
    rw [hplain hmirrors, hplain hmirrors']

end

end

/-! ## Two messages -/

def twoRows : List Row :=
  [("first", messageToAlice "sealed" 1), ("second", messageToAlice "sealed" 2)]

/-- Carol is a contact of Alice, and has sent her two sealed messages. -/
def carolsNode : Node :=
  { sharedNode (.insert .empty 1 { bobsContact with ownerOnion := "aaaaaaaaaaaaaaaa.onion" }) with
    messages := (Dict.empty.insert "first" (messageToAlice "sealed" 1)).insert "second"
      (messageToAlice "sealed" 2) }

theorem ready_carolsNode :
    Ready asciiRuntime "alice" alice "cccccccccccccccc.onion" carolsNode where
  signed   := ⟨by decide, rfl⟩
  accepted := by decide +kernel

theorem waiting_carolsNode : Waiting alice twoRows carolsNode where
  stored     := by decide +kernel
  unresolved := by decide

/-- The two messages are all that a run without deliveries has to resolve. -/
theorem covers_twoRows {events : List Event} (h : events = [.resolve "first", .resolve "second"] ∨
    events = [.resolve "second", .resolve "first"]) : Covers twoRows events where
  called := by rcases h with rfl | rfl <;> simp [twoRows]
  only   := by rcases h with rfl | rfl <;> simp [twoRows]
  fresh  := by rcases h with rfl | rfl <;> simp

theorem resolved_in_order :
    Attributed asciiRuntime "cccccccccccccccc.onion" twoRows
      (after (Event.run asciiRuntime "alice" "cccccccccccccccc.onion")
        [.resolve "first", .resolve "second"] carolsNode) := by
  refine ((attributed_iff asciiRuntime ready_carolsNode waiting_carolsNode).1 _
    (covers_twoRows (.inl rfl))).mpr ⟨?_, ?_, trivial⟩
  · show ∀ row ∈ twoRows, _
    decide +kernel
  · show ∀ row ∈ twoRows, _
    decide +kernel

/-- Resolved after the second message, the first one is deleted. -/
theorem resolved_out_of_order :
    Waiting alice twoRows carolsNode ∧
    Covers twoRows [.resolve "second", .resolve "first"] ∧
    ¬ Attributed asciiRuntime "cccccccccccccccc.onion" twoRows
      (after (Event.run asciiRuntime "alice" "cccccccccccccccc.onion")
        [.resolve "second", .resolve "first"] carolsNode) := by
  refine ⟨waiting_carolsNode, covers_twoRows (.inr rfl), ?_⟩
  intro hattributed
  have hstored := hattributed _ List.mem_cons_self
  revert hstored
  decide +kernel

end AnonyMus.P2p.Resolution
