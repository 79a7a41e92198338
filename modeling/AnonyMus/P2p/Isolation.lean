import Mathlib.Data.Finset.Max
import Mathlib.Data.Fintype.EquivFin
import AnonyMus.P2p.Compat
import AnonyMus.P2p.Requests

/-!
# P2P node — the users of one node

Several users may have an account on one node. What one of them reads should not
depend on the contacts and messages of the others, and what one of them changes
should leave these alone. The endpoints of the current client look up the rows
of the user; the older ones look up rows of any user, as do the `before` of
`message_history` and `resolve_sender`.

* `Isolated` — in every database that differs in rows of other users only, the
  user reads the same;
* `KeepsOthers` — a request leaves the rows of other users alone;
* `Read.Scoped`, `Update.Contained` — when a request does not reach them;
* `users_isolated_iff` — the requests of a user are isolated exactly then.
-/

namespace AnonyMus.P2p.Isolation

open EStateM
open Relay (strip)

/-! ## Databases -/

/-- What SQLite checks, the names that registration allows, and the addresses that Tor makes. -/
structure WellFormed (n : Node) : Prop where
  owned     : ∀ e ∈ n.contacts.entries, ∃ u ∈ n.users, u.onionAddress = some e.2.ownerOnion
  profiled  : ∀ e ∈ n.contacts.entries, e.2.profileId ∈ n.profiles
  distinct  : ∀ u ∈ n.users, ∀ v ∈ n.users, u.onionAddress ≠ none →
    u.onionAddress = v.onionAddress → u = v
  usernames : ∀ u ∈ n.users, '.' ∉ u.username.toList
  addresses : ∀ u ∈ n.users, ∀ onion ∈ u.onionAddress, isOnion onion = true

/-- The address belongs to a user other than `user`. -/
def IsOther (users : List User) (user : User) (onion : String) : Prop :=
  ∃ v ∈ users, v ≠ user ∧ v.onionAddress = some onion

instance (users : List User) (user : User) (onion : String) :
    Decidable (IsOther users user onion) :=
  inferInstanceAs (Decidable (∃ v ∈ users, _))

/-- A contact that another user owns. -/
def othersContact (users : List User) (user : User) (row : ℕ × Contact) : Bool :=
  IsOther users user row.2.ownerOnion

/-- A message that is sent by or to another user, to which `user` is not a party. -/
def othersMessage (users : List User) (user : User) (row : Row) : Bool :=
  (IsOther users user row.2.senderOnion ∨ IsOther users user row.2.recipientOnion) ∧
    ¬ (some row.2.senderOnion = user.onionAddress ∨ some row.2.recipientOnion = user.onionAddress)

/-- The databases differ only in rows of other users. -/
structure SameFor (user : User) (n n' : Node) : Prop where
  contacts : n'.contacts.entries.filter (fun e => !othersContact n.users user e) =
    n.contacts.entries.filter fun e => !othersContact n.users user e
  messages : n'.messages.entries.filter (fun e => !othersMessage n.users user e) =
    n.messages.entries.filter fun e => !othersMessage n.users user e
  rest : n' = { n with contacts := n'.contacts, messages := n'.messages }

/-- An order in which the database visits rows: that of two rows does not depend on the others. -/
structure Scan where
  visit  : List Row → List Row
  perm   : ∀ rows, (visit rows).Perm rows
  filter : ∀ (p : Row → Bool) rows, (visit rows).filter p = visit (rows.filter p)

/-! ## Reading -/

/-- A request that reads; `profileId` is the active profile of the session. -/
inductive Read
  | listContacts (profileId : String)
  | legacyGetContacts (profileId : String)
  | messageHistory (peerOnion : String) (limit : ℤ) (before cursor : Option String)
  | legacyGetMessages (onionAddress : Option String)

inductive Answer
  | contacts (contacts : List ContactResponse)
  | legacyContacts (contacts : List LegacyContact)
  | history (page : List Row) (nextCursor : Option String)
  | legacyMessages (messages : List LegacyMessage)
deriving DecidableEq

section

variable (R : Runtime) (scan : Scan) (timestamp : DateTime → ℤ) (username : String) (user : User)

/-- The session of the user. -/
def session (profileId : String) : Caller := ⟨some username, profileId⟩

def Read.run : Read → Handler Answer
  | listContacts profileId => do
    return .contacts (← P2p.listContacts (session username profileId))
  | legacyGetContacts profileId => do
    return .legacyContacts (← P2p.legacyGetContacts (session username profileId))
  | messageHistory peerOnion limit before cursor => do
    let (page, nextCursor) ← P2p.messageHistory R scan.visit (session username "default") peerOnion
      limit before cursor
    return .history page nextCursor
  | legacyGetMessages onionAddress => do
    return .legacyMessages
      (← P2p.legacyGetMessages R scan.visit timestamp (session username "default") onionAddress)

/-- The answers to a sequence of requests. -/
def answers : List Read → Node → List (Except Failure Answer)
  | [], _ => []
  | k :: ks, n =>
    (k.run R scan timestamp username n).toExcept ::
      answers ks (k.run R scan timestamp username n).state

/-- In every database that differs from `n` in rows of other users only, the answers are the same. -/
def Isolated (reads : List Read) (n : Node) : Prop :=
  ∀ n', WellFormed n' → SameFor user n n' →
    answers R scan timestamp username reads n' = answers R scan timestamp username reads n

/-- No other user has an address, and so none has rows. -/
def Alone (n : Node) : Prop := ∀ v ∈ n.users, v ≠ user → v.onionAddress = none

/-- The request looks at rows of the user only, or what it finds makes no difference: it asks for
the contacts of a profile that is not there, for messages before a message of the user's own, in a
conversation that has none, or for messages with the user as a peer. -/
def Read.Scoped (n : Node) : Read → Prop
  | listContacts _ => True
  | legacyGetContacts profileId => profileId ∉ n.profiles
  | messageHistory peerOnion limit before cursor =>
    ¬ (1 ≤ limit ∧ limit ≤ 200) ∨ truthy cursor ≠ none ∨
      (∀ id ∈ truthy before, ∃ m ∈ n.messages.get? id, othersMessage n.users user (id, m) = false) ∨
      ∀ row ∈ n.messages.entries, inConversation user.onionAddress peerOnion row = false
  | legacyGetMessages onionAddress =>
    ∀ peerOnion ∈ truthy onionAddress, user.onionAddress = some (R.lower (strip peerOnion))

end

/-! ## Changing -/

/-- A request that updates or deletes. -/
inductive Update
  | legacyUpdateReceipts (profileId : String) (data : Json)
  | removeContact (contactId : ℤ)
  | deleteMessage (messageId : String)
  | resolveSender (messageId : String) (body : Json)

section

variable (R : Runtime) (username : String) (user : User)

def Update.run : Update → Handler Unit
  | legacyUpdateReceipts profileId data =>
    P2p.legacyUpdateReceipts R (session username profileId) data
  | removeContact contactId => P2p.removeContact (session username "default") contactId
  | deleteMessage messageId => P2p.deleteMessage (session username "default") messageId
  | resolveSender messageId body => do
    let _ ← P2p.resolveSender R (session username "default") messageId
      (← parsed (ResolveSenderRequest.read R body))

/-- The request leaves the rows of other users as they are, and adds none. -/
structure KeepsOthers (k : Update) (n : Node) : Prop where
  contacts : (k.run R username n).state.contacts.entries.filter (othersContact n.users user) =
    n.contacts.entries.filter (othersContact n.users user)
  messages : (k.run R username n).state.messages.entries.filter (othersMessage n.users user) =
    n.messages.entries.filter (othersMessage n.users user)

/-- The sender that the request names is an accepted contact of the user, and the number of the
message is above those of its other messages. -/
structure Resolves (n : Node) (messageId : String) (msg : Message) (sender : String) : Prop where
  accepted : ∃ e ∈ n.contact? user.onionAddress sender, e.2.status = .accepted
  above    : ∀ lastSeq ∈ n.lastSeqBut messageId sender user.onionAddress, lastSeq < msg.sequenceNumber

/-- The row that the request finds is not another user's, before and after, or it has already what
is written to it. -/
def Update.Contained (n : Node) : Update → Prop
  | legacyUpdateReceipts profileId data =>
    ∀ request ∈ receiptsUpdate R data, ∀ e ∈ n.anyContact? request.1 profileId,
      othersContact n.users user e = true → e.2.sendReceipts = request.2
  | removeContact _ => True
  | deleteMessage _ => True
  | resolveSender messageId body =>
    ∀ request ∈ ResolveSenderRequest.read R body, ∀ msg ∈ n.messages.get? messageId,
      let sender := R.lower (strip request.senderOnion)
      (Resolves user n messageId msg sender → msg.senderOnion ≠ sender →
        othersMessage n.users user (messageId, msg) = false ∧
          othersMessage n.users user (messageId, { msg with senderOnion := sender }) = false) ∧
      (¬ Resolves user n messageId msg sender → othersMessage n.users user (messageId, msg) = false)

end

/-! ## Whose rows they are -/

/-- The user has an account, and a session under its name. -/
structure SignedIn (username : String) (user : User) (n : Node) : Prop where
  name  : username ≠ ""
  found : n.user? username = some user

section

variable {n n' : Node} {username onion : String} {user : User}

theorem SignedIn.mem (hsigned : SignedIn username user n) : user ∈ n.users :=
  List.mem_of_find?_eq_some hsigned.found

theorem SignedIn.getCurrentUser (hsigned : SignedIn username user n) (profileId : String) :
    P2p.getCurrentUser (session username profileId) n = .ok user n := by
  unfold P2p.getCurrentUser session
  rw [truthy_of_ne hsigned.name]
  dsimp only
  rw [apply_bind, apply_get]
  dsimp only
  rw [hsigned.found]
  rfl

theorem SignedIn.verifyAuth (hsigned : SignedIn username user n) (profileId : String) :
    P2p.verifyAuth (session username profileId) n = .ok username n := by
  unfold P2p.verifyAuth session
  rw [truthy_of_ne hsigned.name]
  rfl

theorem SameFor.users (h : SameFor user n n') : n'.users = n.users := by
  rw [h.rest]

theorem SameFor.signedIn (h : SameFor user n n') (hsigned : SignedIn username user n) :
    SignedIn username user n' := by
  refine ⟨hsigned.name, ?_⟩
  unfold Node.user?
  rw [h.users]
  exact hsigned.found

/-- An address has a dot, after characters of base 32. -/
theorem isOnion_split (h : isOnion onion = true) :
    onion.toList.dropWhile isBase32 = ".onion".toList ∨
      onion.toList.dropWhile isBase32 = ".onion\n".toList := by
  simp only [isOnion, Bool.and_eq_true, Bool.or_eq_true, beq_iff_eq] at h
  exact h.2

/-- No address is a name that registration allows. -/
theorem isOnion_ne_username (hdot : '.' ∉ username.toList) : isOnion username = false := by
  rw [Bool.eq_false_iff]
  intro h
  have hsuffix := List.dropWhile_suffix (l := username.toList) isBase32
  apply hdot
  rcases isOnion_split h with hrest | hrest <;> rw [hrest] at hsuffix
  · exact hsuffix.subset (by decide)
  · exact hsuffix.subset (by decide)

/-- No address is the substitute of a user who has none. -/
theorem isOnion_ne_local (hdot : '.' ∉ username.toList) :
    isOnion (username ++ ".local.onion") = false := by
  rw [Bool.eq_false_iff]
  intro h
  have hrest := isOnion_split h
  rw [String.toList_append, List.dropWhile_append] at hrest
  rcases hname : username.toList.dropWhile isBase32 with _ | ⟨c, rest⟩
  · -- the name is of base 32: `local` follows the dot
    rw [hname] at hrest
    revert hrest
    decide
  · -- what is left of the name starts with another character than the dot
    rw [hname] at hrest
    have hc : c ∈ username.toList := by
      have hsuffix := List.dropWhile_suffix (l := username.toList) isBase32
      rw [hname] at hsuffix
      exact hsuffix.subset List.mem_cons_self
    have hhead : c = '.' := by
      rcases hrest with hrest | hrest <;> exact (List.cons.inj hrest).1
    exact hdot (hhead ▸ hc)

theorem IsOther.ne (hn : WellFormed n) (huser : user ∈ n.users) (h : IsOther n.users user onion) :
    user.onionAddress ≠ some onion := by
  obtain ⟨v, hv, hne, hv'⟩ := h
  intro hsame
  exact hne (hn.distinct v hv user huser (by simp [hv']) (hv'.trans hsame.symm))

theorem IsOther.isOnion (hn : WellFormed n) (h : IsOther n.users user onion) :
    P2p.isOnion onion = true := by
  obtain ⟨v, hv, -, hv'⟩ := h
  exact hn.addresses v hv onion hv'

/-- What a user owns under one of its names is not another user's. -/
theorem not_othersContact (hn : WellFormed n) (huser : user ∈ n.users) {row : ℕ × Contact}
    (hrow : row.2.ownerOnion = user.owner ∨ row.2.ownerOnion = user.username) :
    othersContact n.users user row = false := by
  have hdot := hn.usernames user huser
  refine decide_eq_false fun hother => ?_
  have honion := hother.isOnion hn
  rcases hrow with howner | hname
  · rw [howner, User.owner] at hother honion
    rcases haddress : truthy user.onionAddress with _ | address
    · rw [haddress, Option.getD_none, isOnion_ne_local hdot] at honion
      cases honion
    · rw [haddress, Option.getD_some] at hother
      exact hother.ne hn huser (Option.eq_some_of_filter_eq_some haddress)
  · rw [hname, isOnion_ne_username hdot] at honion
    cases honion

/-- A message of a conversation of the user is not another user's. -/
theorem not_othersMessage {users : List User} {row : Row}
    (h : some row.2.senderOnion = user.onionAddress ∨ some row.2.recipientOnion = user.onionAddress) :
    othersMessage users user row = false :=
  decide_eq_false fun hother => hother.2 h

theorem not_othersMessage_of_inConversation {users : List User} {peerOnion : String} {row : Row}
    (h : inConversation user.onionAddress peerOnion row = true) :
    othersMessage users user row = false := by
  refine not_othersMessage ?_
  obtain ⟨-, ⟨hsender, -⟩ | ⟨-, hrecipient⟩⟩ := of_decide_eq_true h
  · exact .inl hsender
  · exact .inr hrecipient

/-! ## Databases that differ -/

/-- What is chosen among the rows in view is chosen from equal rows. -/
theorem filter_of_view {α : Type} {l l' : List α} {p view : α → Bool}
    (hview : ∀ a, p a = true → view a = true) (h : l'.filter view = l.filter view) :
    l'.filter p = l.filter p := by
  have hfilter : ∀ l : List α, l.filter p = (l.filter view).filter p := by
    intro l
    rw [List.filter_filter]
    refine List.filter_congr fun a _ => ?_
    rcases hp : p a with _ | _
    · simp
    · simp [hview a hp]
  rw [hfilter l', hfilter l, h]

theorem SameFor.contacts_filter (h : SameFor user n n') {p : ℕ × Contact → Bool}
    (hp : ∀ row, p row = true → othersContact n.users user row = false) :
    n'.contacts.entries.filter p = n.contacts.entries.filter p :=
  filter_of_view (fun row hrow => by simp [hp row hrow]) h.contacts

theorem SameFor.messages_filter (h : SameFor user n n') {p : Row → Bool}
    (hp : ∀ row, p row = true → othersMessage n.users user row = false) :
    n'.messages.entries.filter p = n.messages.entries.filter p :=
  filter_of_view (fun row hrow => by simp [hp row hrow]) h.messages

/-- A message in view is there in both. -/
theorem SameFor.get? (h : SameFor user n n') {id : String} {m : Message}
    (hm : n.messages.get? id = some m) (hown : othersMessage n.users user (id, m) = false) :
    n'.messages.get? id = some m := by
  have hmem : (id, m) ∈ n.messages.entries.filter fun e => !othersMessage n.users user e :=
    List.mem_filter.mpr ⟨Dict.mem_entries_iff.mpr hm, by simp [hown]⟩
  rw [← h.messages] at hmem
  exact Dict.mem_entries_iff.mp (List.mem_filter.mp hmem).1

/-- A user who is alone sees everything. -/
theorem SameFor.eq_of_alone (h : SameFor user n n') (halone : Alone user n) : n' = n := by
  have hother : ∀ onion, ¬ IsOther n.users user onion := by
    rintro onion ⟨v, hv, hne, hv'⟩
    cases hv'.symm.trans (halone v hv hne)
  have hcontacts : n'.contacts = n.contacts := by
    have hsame := h.contacts
    simp only [othersContact, hother, decide_false, Bool.not_false, List.filter_true] at hsame
    exact Dict.ext hsame
  have hmessages : n'.messages = n.messages := by
    have hsame := h.messages
    simp only [othersMessage, hother, or_self, false_and, decide_false, Bool.not_false,
      List.filter_true] at hsame
    exact Dict.ext hsame
  rw [h.rest, hcontacts, hmessages]

theorem sameFor_setContact {id : ℕ} {c : Contact} (hnew : n.contacts.get? id = none)
    (hc : othersContact n.users user (id, c) = true) : SameFor user n (n.setContact id c) where
  contacts := by
    refine Dict.filter_insert (by simp [hc]) fun c' hc' => ?_
    cases hnew.symm.trans hc'
  messages := rfl
  rest     := rfl

theorem sameFor_setMessage {id : String} {m : Message}
    (hold : ∀ m', n.messages.get? id = some m' → othersMessage n.users user (id, m') = true)
    (hm : othersMessage n.users user (id, m) = true) : SameFor user n (n.setMessage id m) where
  contacts := rfl
  messages := Dict.filter_insert (by simp [hm]) fun m' hm' => by simp [hold m' hm']
  rest     := rfl

theorem sameFor_eraseMessage {id : String}
    (hold : ∀ m', n.messages.get? id = some m' → othersMessage n.users user (id, m') = true) :
    SameFor user n { n with messages := n.messages.erase id } where
  contacts := rfl
  messages := Dict.filter_erase fun m' hm' => by simp [hold m' hm']
  rest     := rfl

/-- A new contact under an address and a profile that are there. -/
theorem WellFormed.setContact (hn : WellFormed n) {c : Contact}
    (howner : ∃ u ∈ n.users, u.onionAddress = some c.ownerOnion) (hprofile : c.profileId ∈ n.profiles) :
    WellFormed (n.setContact n.nextId c) where
  owned := by
    intro e he
    rw [Node.setContact_contacts, Dict.entries_insert_of_new get?_nextId] at he
    rcases List.mem_append.mp he with he | he
    · exact hn.owned e he
    · obtain rfl := List.mem_singleton.mp he
      exact howner
  profiled := by
    intro e he
    rw [Node.setContact_contacts, Dict.entries_insert_of_new get?_nextId] at he
    rcases List.mem_append.mp he with he | he
    · exact hn.profiled e he
    · obtain rfl := List.mem_singleton.mp he
      exact hprofile
  distinct  := hn.distinct
  usernames := hn.usernames
  addresses := hn.addresses

theorem WellFormed.setMessage (hn : WellFormed n) (id : String) (m : Message) :
    WellFormed (n.setMessage id m) :=
  ⟨hn.owned, hn.profiled, hn.distinct, hn.usernames, hn.addresses⟩

theorem WellFormed.eraseMessage (hn : WellFormed n) (id : String) :
    WellFormed { n with messages := n.messages.erase id } :=
  ⟨hn.owned, hn.profiled, hn.distinct, hn.usernames, hn.addresses⟩

end

/-! ## Answers -/

section

variable {R : Runtime} {scan : Scan} {timestamp : DateTime → ℤ} {username : String} {user : User}
  {n n' : Node}

theorem run_listContacts (hsigned : SignedIn username user n) (profileId : String) :
    (Read.listContacts profileId).run R scan timestamp username n =
      .ok (.contacts ((n.contacts.entries.filter fun e =>
        (e.2.ownerOnion = user.owner ∨ e.2.ownerOnion = user.username) ∧
          e.2.profileId = profileId).map ContactResponse.modelValidate)) n := by
  rw [Read.run, apply_bind, P2p.listContacts, apply_bind, hsigned.getCurrentUser]
  rfl

theorem run_legacyGetContacts (hsigned : SignedIn username user n) (profileId : String) :
    (Read.legacyGetContacts profileId).run R scan timestamp username n =
      .ok (.legacyContacts ((n.contacts.values.filter fun c =>
        c.profileId = profileId).map LegacyContact.ofContact)) n := by
  rw [Read.run, apply_bind, P2p.legacyGetContacts, apply_bind, hsigned.verifyAuth]
  rfl

theorem run_messageHistory (hsigned : SignedIn username user n) (peerOnion : String) {limit : ℤ}
    (hlimit : 1 ≤ limit ∧ limit ≤ 200) (before cursor : Option String) :
    (Read.messageHistory peerOnion limit before cursor).run R scan timestamp username n =
      match cursorSentAt R n before cursor with
      | .error e => .error e n
      | .ok below =>
        let page := historyPage (scan.visit n.messages.entries) user.onionAddress peerOnion
          limit.toNat below
        .ok (.history page (page.getLast?.map fun oldest =>
          encodeCursor oldest.2.sentAt oldest.1)) n := by
  rw [Read.run, apply_bind]
  rcases hcursor : cursorSentAt R n before cursor with e | below
  · have hrun : P2p.messageHistory R scan.visit (session username "default") peerOnion limit before
        cursor n = .error e n := by
      unfold P2p.messageHistory
      rw [if_neg (not_not_intro hlimit)]
      show (P2p.getCurrentUser _ >>= _) n = _
      rw [apply_bind, hsigned.getCurrentUser]
      dsimp only
      rw [apply_bind, apply_get]
      dsimp only
      rw [apply_bind, apply_ofExcept, hcursor]
    rw [hrun]
  · rw [messageHistory_apply scan.visit hlimit (hsigned.getCurrentUser "default") hcursor]
    rfl

theorem run_messageHistory_refused (peerOnion : String) {limit : ℤ}
    (hlimit : ¬ (1 ≤ limit ∧ limit ≤ 200)) (before cursor : Option String) :
    (Read.messageHistory peerOnion limit before cursor).run R scan timestamp username n =
      .error .validation n := by
  rw [Read.run, apply_bind, P2p.messageHistory, if_pos hlimit]
  rfl

theorem run_legacyGetMessages (hsigned : SignedIn username user n) (onionAddress : Option String) :
    (Read.legacyGetMessages onionAddress).run R scan timestamp username n =
      match truthy onionAddress with
      | none => .error (.http 400 "Missing onion_address") n
      | some peerOnion =>
        .ok (.legacyMessages ((orderAsc ((scan.visit n.messages.entries).filter fun row =>
          row.2.senderOnion = R.lower (strip peerOnion) ∨
            row.2.recipientOnion = R.lower (strip peerOnion))).map
              (LegacyMessage.ofRow timestamp))) n := by
  rw [Read.run, apply_bind, P2p.legacyGetMessages, apply_bind, hsigned.verifyAuth]
  dsimp only
  rcases truthy onionAddress with _ | peerOnion <;> rfl

/-- Reading changes nothing. -/
theorem state_run (hsigned : SignedIn username user n) (k : Read) :
    (k.run R scan timestamp username n).state = n := by
  rcases k with profileId | profileId | ⟨peerOnion, limit, before, cursor⟩ | onionAddress
  case listContacts => rw [run_listContacts hsigned, Result.state_ok]
  case legacyGetContacts => rw [run_legacyGetContacts hsigned, Result.state_ok]
  case messageHistory =>
    by_cases hlimit : 1 ≤ limit ∧ limit ≤ 200
    · rw [run_messageHistory hsigned peerOnion hlimit]
      rcases cursorSentAt R n before cursor with e | below <;> rfl
    · rw [run_messageHistory_refused peerOnion hlimit, Result.state_error]
  case legacyGetMessages =>
    rw [run_legacyGetMessages hsigned]
    rcases truthy onionAddress with _ | peerOnion <;> rfl

theorem answers_eq_map (hsigned : SignedIn username user n) (reads : List Read) :
    answers R scan timestamp username reads n =
      reads.map fun k => (k.run R scan timestamp username n).toExcept := by
  induction reads with
  | nil => rfl
  | cons k reads ih => rw [answers, state_run hsigned, ih, List.map_cons]

/-! ## Requests that stay with the user -/

/-- The page starts at the same time in both databases. -/
theorem cursorSentAt_same (h : SameFor user n n') {before cursor : Option String}
    (hscoped : truthy cursor ≠ none ∨ ∀ id ∈ truthy before,
      ∃ m ∈ n.messages.get? id, othersMessage n.users user (id, m) = false) :
    cursorSentAt R n' before cursor = cursorSentAt R n before cursor := by
  unfold cursorSentAt
  rcases hcursor : truthy cursor with _ | cursor
  · rcases hbefore : truthy before with _ | id
    · rfl
    · obtain ⟨m, hm, hown⟩ := (hscoped.resolve_left fun h => h hcursor) id hbefore
      dsimp only
      rw [hm, h.get? hm hown]
  · rfl

/-- The page below a time is the same in both databases. -/
theorem historyPage_same (h : SameFor user n n') (peerOnion : String) (limit : ℕ)
    (below : Option DateTime) :
    historyPage (scan.visit n'.messages.entries) user.onionAddress peerOnion limit below =
      historyPage (scan.visit n.messages.entries) user.onionAddress peerOnion limit below := by
  unfold historyPage
  rw [scan.filter, scan.filter, h.messages_filter]
  intro row hrow
  exact not_othersMessage_of_inConversation (Bool.and_eq_true_iff.mp hrow).1

/-- The answer to a request for a page below a given time. -/
theorem history_same (hsigned : SignedIn username user n) (h : SameFor user n n')
    {peerOnion : String} {limit : ℤ} (hlimit : 1 ≤ limit ∧ limit ≤ 200) {before cursor : Option String}
    (below : Option DateTime) (hcursor : cursorSentAt R n' before cursor = .ok below) :
    ((Read.messageHistory peerOnion limit before cursor).run R scan timestamp username n').toExcept =
      let page := historyPage (scan.visit n.messages.entries) user.onionAddress peerOnion
        limit.toNat below
      .ok (.history page (page.getLast?.map fun oldest =>
        encodeCursor oldest.2.sentAt oldest.1)) := by
  rw [run_messageHistory (h.signedIn hsigned) peerOnion hlimit, hcursor]
  dsimp only
  rw [historyPage_same h]
  rfl

/-- A page is empty when it is below every message of the conversation. -/
theorem historyPage_eq_nil {peerOnion : String} {limit : ℕ} {below : Option DateTime}
    (hbelow : ∀ row ∈ n.messages.entries, inConversation user.onionAddress peerOnion row = true →
      ∃ sentAt ∈ below, ¬ row.2.sentAt < sentAt) :
    historyPage (scan.visit n.messages.entries) user.onionAddress peerOnion limit below = [] := by
  have hnone : ((scan.visit n.messages.entries).filter fun row =>
      inConversation user.onionAddress peerOnion row &&
        below.all fun sentAt => row.2.sentAt < sentAt) = [] := by
    rw [List.filter_eq_nil_iff]
    intro row hrow hp
    obtain ⟨hconversation, hall⟩ := Bool.and_eq_true_iff.mp hp
    obtain ⟨sentAt, hsentAt, hnot⟩ := hbelow row ((scan.perm _).mem_iff.mp hrow) hconversation
    rw [Option.mem_def.mp hsentAt, Option.all_some] at hall
    exact hnot (of_decide_eq_true hall)
  unfold historyPage
  rw [hnone]
  exact List.take_nil

/-- A scoped request gets the same answer in both databases. -/
theorem run_of_scoped (hn : WellFormed n) (hsigned : SignedIn username user n)
    (hn' : WellFormed n') (h : SameFor user n n') {k : Read} (hscoped : k.Scoped R user n) :
    (k.run R scan timestamp username n').toExcept = (k.run R scan timestamp username n).toExcept := by
  have hsigned' := h.signedIn hsigned
  rcases k with profileId | profileId | ⟨peerOnion, limit, before, cursor⟩ | onionAddress
  case listContacts =>
    rw [run_listContacts hsigned, run_listContacts hsigned', h.contacts_filter]
    · rfl
    · intro row hrow
      exact not_othersContact hn hsigned.mem (of_decide_eq_true hrow).1
  case legacyGetContacts =>
    -- nobody has contacts in a profile that is not there
    have hnone : ∀ s : Node, WellFormed s → s.profiles = n.profiles →
        (s.contacts.values.filter fun c => c.profileId = profileId) = [] := by
      intro s hs hprofiles
      rw [List.filter_eq_nil_iff]
      rintro c hc hprofile
      obtain ⟨e, he, rfl⟩ := List.mem_map.mp hc
      have hmem := hs.profiled e he
      rw [of_decide_eq_true hprofile, hprofiles] at hmem
      exact hscoped hmem
    rw [run_legacyGetContacts hsigned, run_legacyGetContacts hsigned', hnone n hn rfl,
      hnone n' hn' (by rw [h.rest])]
    rfl
  case messageHistory =>
    by_cases hlimit : 1 ≤ limit ∧ limit ≤ 200
    · rw [run_messageHistory hsigned peerOnion hlimit, run_messageHistory hsigned' peerOnion hlimit]
      by_cases hstart : truthy cursor ≠ none ∨ ∀ id ∈ truthy before,
          ∃ m ∈ n.messages.get? id, othersMessage n.users user (id, m) = false
      · rw [cursorSentAt_same h hstart]
        rcases cursorSentAt R n before cursor with e | below
        · rfl
        · dsimp only
          rw [historyPage_same h]
          rfl
      · -- there is nothing to be found below any time
        obtain ⟨hcursor, hbefore⟩ := not_or.mp hstart
        have hempty := ((hscoped.resolve_left (not_not_intro hlimit)).resolve_left hcursor).resolve_left
          hbefore
        have hpage : ∀ below, historyPage (scan.visit n.messages.entries) user.onionAddress peerOnion
            limit.toNat below = [] := by
          intro below
          refine historyPage_eq_nil fun row hrow hconversation => ?_
          rw [hempty row hrow] at hconversation
          cases hconversation
        unfold cursorSentAt
        rw [not_not.mp hcursor]
        rcases truthy before with _ | id
        · simp only [hpage, historyPage_same h, Result.toExcept]
        · simp only [hpage, historyPage_same h, Result.toExcept]
    · rw [run_messageHistory_refused peerOnion hlimit, run_messageHistory_refused peerOnion hlimit]
      rfl
  case legacyGetMessages =>
    rw [run_legacyGetMessages hsigned, run_legacyGetMessages hsigned']
    rcases hpeer : truthy onionAddress with _ | peerOnion
    · rfl
    dsimp only
    rw [scan.filter, scan.filter, h.messages_filter]
    · rfl
    · intro row hrow
      refine not_othersMessage ?_
      rw [hscoped peerOnion hpeer]
      exact (of_decide_eq_true hrow).imp (congrArg some) (congrArg some)

/-! ## Requests that reach other users -/

/-- Somebody else has an address. -/
theorem exists_other (hnot : ¬ Alone user n) : ∃ onion, IsOther n.users user onion := by
  unfold Alone at hnot
  push Not at hnot
  obtain ⟨v, hv, hne, haddress⟩ := hnot
  obtain ⟨onion, honion⟩ := Option.ne_none_iff_exists'.mp haddress
  exact ⟨onion, v, hv, hne, honion⟩

/-- There is a message id that is not in use. -/
theorem exists_fresh (n : Node) : ∃ id, n.messages.get? id = none := by
  obtain ⟨id, hid⟩ := Infinite.exists_notMem_finset n.messages.keys.toFinset
  exact ⟨id, Dict.get?_eq_none_iff_notMem_keys.mpr fun h => hid (List.mem_toFinset.mpr h)⟩

/-- How many contacts or messages an answer shows. -/
def shown : Except Failure Answer → ℕ
  | .ok (.contacts contacts) => contacts.length
  | .ok (.legacyContacts contacts) => contacts.length
  | .ok (.history page _) => page.length
  | .ok (.legacyMessages messages) => messages.length
  | .error _ => 0

/-- A message between other users. -/
def othersRow (sender recipient : String) (sentAt : DateTime) : Message where
  senderOnion    := sender
  recipientOnion := recipient
  ciphertextB64  := ""
  ivB64          := ""
  sequenceNumber := 0
  sentAt         := sentAt
  delivered      := false
  disappearsAt   := none
  isDeleted      := false
  sealedSender   := none

theorem othersMessage_othersRow (hn : WellFormed n) (huser : user ∈ n.users) {onion peer : String}
    (hother : IsOther n.users user onion) (hpeer : user.onionAddress ≠ some peer) (id : String)
    (sentAt : DateTime) : othersMessage n.users user (id, othersRow onion peer sentAt) = true := by
  refine decide_eq_true ⟨.inl hother, ?_⟩
  rintro (hsender | hrecipient)
  · exact hother.ne hn huser hsender.symm
  · exact hpeer hrecipient.symm

/-- A page of a conversation that has messages where it starts. -/
theorem historyPage_ne_nil {peerOnion : String} {limit : ℕ} (hlimit : 0 < limit)
    {below : Option DateTime} {row : Row} (hrow : row ∈ n.messages.entries)
    (hconversation : inConversation user.onionAddress peerOnion row = true)
    (hbelow : ∀ sentAt ∈ below, row.2.sentAt < sentAt) :
    historyPage (scan.visit n.messages.entries) user.onionAddress peerOnion limit below ≠ [] := by
  have hall : (below.all fun sentAt => row.2.sentAt < sentAt) = true := by
    rcases below with _ | sentAt
    · rfl
    · rw [Option.all_some]
      exact decide_eq_true (hbelow sentAt rfl)
  have hmem : row ∈ (scan.visit n.messages.entries).filter fun row =>
      inConversation user.onionAddress peerOnion row &&
        below.all fun sentAt => row.2.sentAt < sentAt := by
    rw [List.mem_filter, hconversation, hall]
    exact ⟨(scan.perm _).mem_iff.mpr hrow, rfl⟩
  have hpos := List.length_pos_of_mem hmem
  rw [← List.length_pos_iff]
  unfold historyPage orderDesc
  rw [List.length_take, List.length_insertionSort]
  omega

/-- The earliest message of a conversation that has messages. -/
theorem exists_earliest {peerOnion : String}
    (hsome : ∃ row ∈ n.messages.entries, inConversation user.onionAddress peerOnion row = true) :
    ∃ sentAt : DateTime, ∀ row ∈ n.messages.entries,
      inConversation user.onionAddress peerOnion row = true → ¬ row.2.sentAt < sentAt := by
  obtain ⟨row, hrow, hconversation⟩ := hsome
  obtain ⟨first, -, hfirst⟩ := Finset.exists_min_image
    (n.messages.entries.filter (inConversation user.onionAddress peerOnion)).toFinset
    (fun row => row.2.sentAt.rank)
    ⟨row, List.mem_toFinset.mpr (List.mem_filter.mpr ⟨hrow, hconversation⟩)⟩
  refine ⟨first.2.sentAt, fun row hrow hconversation hlt => ?_⟩
  have hle := hfirst row (List.mem_toFinset.mpr (List.mem_filter.mpr ⟨hrow, hconversation⟩))
  exact absurd hlt (Nat.not_lt.mpr hle)

/-- A request that is not scoped gets another answer in some database. -/
theorem exists_of_not_scoped (hn : WellFormed n) (hsigned : SignedIn username user n) {k : Read}
    (hnot : ¬ Alone user n) (hscoped : ¬ k.Scoped R user n) :
    ∃ n', WellFormed n' ∧ SameFor user n n' ∧
      (k.run R scan timestamp username n').toExcept ≠
        (k.run R scan timestamp username n).toExcept := by
  obtain ⟨onion, hother⟩ := exists_other hnot
  rcases k with profileId | profileId | ⟨peerOnion, limit, before, cursor⟩ | onionAddress
  case listContacts => exact absurd trivial hscoped
  case legacyGetContacts =>
    -- one more contact of the other user
    let c : Contact := ⟨onion, onion, none, none, none, .accepted, false, profileId, none, true, none⟩
    obtain ⟨v, hv, hne, hv'⟩ := hother
    have hsame : SameFor user n (n.setContact n.nextId c) :=
      sameFor_setContact get?_nextId (decide_eq_true ⟨v, hv, hne, hv'⟩)
    have hprofile : profileId ∈ n.profiles := not_not.mp hscoped
    refine ⟨_, hn.setContact ⟨v, hv, hv'⟩ hprofile, hsame, ?_⟩
    rw [run_legacyGetContacts hsigned, run_legacyGetContacts (hsame.signedIn hsigned)]
    intro heq
    have hlength := congrArg shown heq
    simp [Result.toExcept, shown, Dict.values, Dict.entries_insert_of_new get?_nextId, c] at hlength
  case messageHistory =>
    simp only [Read.Scoped, not_or, not_not, not_forall] at hscoped
    obtain ⟨hlimit, hcursor, ⟨id, hid, hothers⟩, row, hrow, hconversation⟩ := hscoped
    have hconversation := (Bool.not_eq_false _).mp hconversation
    have hold : ∀ m, n.messages.get? id = some m → othersMessage n.users user (id, m) = true := by
      intro m hm
      rw [← Bool.not_eq_false]
      exact fun h => hothers ⟨m, hm, h⟩
    -- the message that `before` names is gone, or is the earliest of all
    obtain ⟨first, hfirst⟩ := exists_earliest ⟨row, hrow, hconversation⟩
    have hgone := sameFor_eraseMessage hold
    have hearly := sameFor_setMessage hold
      (othersMessage_othersRow hn hsigned.mem hother (hother.ne hn hsigned.mem) id first)
    by_contra hall
    push Not at hall
    have h := (hall _ (hn.eraseMessage id) hgone).trans (hall _ (hn.setMessage id _) hearly).symm
    rw [history_same hsigned hgone hlimit none, history_same hsigned hearly hlimit (some first)] at h
    · have hpages : historyPage (scan.visit n.messages.entries) user.onionAddress peerOnion
          limit.toNat none = [] := by
        rw [(Answer.history.inj (Except.ok.inj h)).1]
        exact historyPage_eq_nil fun row hrow hconversation =>
          ⟨first, rfl, hfirst row hrow hconversation⟩
      exact historyPage_ne_nil (by omega) hrow hconversation
        (fun d hd => absurd hd (Option.not_mem_none d)) hpages
    · simp [cursorSentAt, hcursor, Option.mem_def.mp hid, Dict.get?_insert, othersRow]
    · simp [cursorSentAt, hcursor, Option.mem_def.mp hid, Dict.get?_erase]
  case legacyGetMessages =>
    simp only [Read.Scoped, not_forall] at hscoped
    obtain ⟨peerOnion, hpeerOnion, hpeer⟩ := hscoped
    obtain ⟨id, hid⟩ := exists_fresh n
    have hsame := sameFor_setMessage (m := othersRow onion (R.lower (strip peerOnion))
        ⟨1, 1, 1, 0, 0, 0, 0, by decide, by decide⟩)
      (fun m hm => absurd (hid.symm.trans hm) (Option.some_ne_none m).symm)
      (othersMessage_othersRow hn hsigned.mem hother hpeer id _)
    refine ⟨_, hn.setMessage id _, hsame, ?_⟩
    rw [run_legacyGetMessages hsigned, run_legacyGetMessages (hsame.signedIn hsigned),
      Option.mem_def.mp hpeerOnion]
    intro heq
    have hlength := congrArg shown heq
    simp only [Result.toExcept, shown, List.length_map, orderAsc, List.length_insertionSort] at hlength
    rw [((scan.perm _).filter _).length_eq, ((scan.perm _).filter _).length_eq] at hlength
    simp [Dict.entries_insert_of_new hid, othersRow] at hlength

/-! ## Requests that change rows -/

/-- A contact is rewritten for the same owner: this is seen when it is another user's and differs. -/
theorem contacts_kept_iff (user : User) {id : ℕ} {c : Contact} (c' : Contact) (hc : n.contacts.get? id = some c)
    (howner : c'.ownerOnion = c.ownerOnion) :
    (n.contacts.insert id c').entries.filter (othersContact n.users user) =
        n.contacts.entries.filter (othersContact n.users user) ↔
      (othersContact n.users user (id, c) = true → c' = c) := by
  have hothers : othersContact n.users user (id, c') = othersContact n.users user (id, c) := by
    unfold othersContact
    rw [howner]
  constructor
  · intro hkept hother
    have hmem : (id, c') ∈ (n.contacts.insert id c').entries.filter (othersContact n.users user) :=
      List.mem_filter.mpr ⟨Dict.mem_entries_iff.mpr (by rw [Dict.get?_insert, if_pos rfl]),
        hothers.trans hother⟩
    rw [hkept] at hmem
    have hc' := Dict.mem_entries_iff.mp (List.mem_filter.mp hmem).1
    exact Option.some.inj (hc'.symm.trans hc)
  · intro hsame
    rcases hother : othersContact n.users user (id, c) with _ | _
    · refine Dict.filter_insert (hothers.trans hother) fun c₀ hc₀ => ?_
      obtain rfl := Option.some.inj (hc.symm.trans hc₀)
      exact hother
    · rw [hsame hother, Dict.insert_of_get? hc]

/-- A message is rewritten: this is seen when it differs, and is another user's before or after. -/
theorem messages_kept_iff (user : User) {id : String} {m : Message} (m' : Message) (hm : n.messages.get? id = some m) :
    (n.messages.insert id m').entries.filter (othersMessage n.users user) =
        n.messages.entries.filter (othersMessage n.users user) ↔
      (m' ≠ m → othersMessage n.users user (id, m) = false ∧
        othersMessage n.users user (id, m') = false) := by
  constructor
  · intro hkept hne
    constructor
    · rw [← Bool.not_eq_true]
      intro hother
      have hmem : (id, m) ∈ n.messages.entries.filter (othersMessage n.users user) :=
        List.mem_filter.mpr ⟨Dict.mem_entries_iff.mpr hm, hother⟩
      rw [← hkept] at hmem
      have hm' := Dict.mem_entries_iff.mp (List.mem_filter.mp hmem).1
      rw [Dict.get?_insert, if_pos rfl] at hm'
      exact hne (Option.some.inj hm')
    · rw [← Bool.not_eq_true]
      intro hother
      have hmem : (id, m') ∈ (n.messages.insert id m').entries.filter (othersMessage n.users user) :=
        List.mem_filter.mpr ⟨Dict.mem_entries_iff.mpr (by rw [Dict.get?_insert, if_pos rfl]), hother⟩
      rw [hkept] at hmem
      have hm' := Dict.mem_entries_iff.mp (List.mem_filter.mp hmem).1
      exact hne (Option.some.inj (hm'.symm.trans hm))
  · intro hunseen
    by_cases hsame : m' = m
    · rw [hsame, Dict.insert_of_get? hm]
    · obtain ⟨hold, hnew⟩ := hunseen hsame
      refine Dict.filter_insert hnew fun m₀ hm₀ => ?_
      obtain rfl := Option.some.inj (hm.symm.trans hm₀)
      exact hold

/-- A message is erased: this is seen when it is another user's. -/
theorem erase_kept_iff {id : String} {m : Message} (hm : n.messages.get? id = some m) :
    (n.messages.erase id).entries.filter (othersMessage n.users user) =
        n.messages.entries.filter (othersMessage n.users user) ↔
      othersMessage n.users user (id, m) = false := by
  constructor
  · intro hkept
    rw [← Bool.not_eq_true]
    intro hother
    have hmem : (id, m) ∈ n.messages.entries.filter (othersMessage n.users user) :=
      List.mem_filter.mpr ⟨Dict.mem_entries_iff.mpr hm, hother⟩
    rw [← hkept] at hmem
    have hm' := Dict.mem_entries_iff.mp (List.mem_filter.mp hmem).1
    rw [Dict.get?_erase, if_pos rfl] at hm'
    cases hm'
  · intro hold
    refine Dict.filter_erase fun m₀ hm₀ => ?_
    obtain rfl := Option.some.inj (hm.symm.trans hm₀)
    exact hold

/-- What the user changes in the contacts of the profile. -/
theorem updateReceipts_kept_iff (hsigned : SignedIn username user n) (profileId : String)
    (data : Json) :
    KeepsOthers R username user (.legacyUpdateReceipts profileId data) n ↔
      (Update.legacyUpdateReceipts profileId data).Contained R user n := by
  have hstate : ((Update.legacyUpdateReceipts profileId data).run R username n).state =
      (receiptsUpdate R data).elim n fun request =>
        (n.anyContact? request.1 profileId).elim n fun e =>
          n.setContact e.1 { e.2 with sendReceipts := request.2 } := by
    show (P2p.legacyUpdateReceipts R (session username profileId) data n).state = _
    unfold P2p.legacyUpdateReceipts
    rw [apply_bind, hsigned.verifyAuth]
    dsimp only
    rcases receiptsUpdate R data with _ | ⟨onion, sendReceipts⟩
    · rfl
    dsimp only
    rw [apply_bind, apply_get]
    dsimp only [session]
    rw [Option.elim_some]
    dsimp only
    rcases n.anyContact? onion profileId with _ | ⟨id, contact⟩ <;> rfl
  -- without a contact to change, nothing changes
  rcases hdata : receiptsUpdate R data with _ | ⟨onion, sendReceipts⟩
  · rw [hdata, Option.elim_none] at hstate
    refine iff_of_true ⟨by rw [hstate], by rw [hstate]⟩ ?_
    rintro request hrequest
    cases hdata.symm.trans hrequest
  rcases hfound : n.anyContact? onion profileId with _ | ⟨id, contact⟩
  · simp only [hdata, hfound, Option.elim_some, Option.elim_none] at hstate
    refine iff_of_true ⟨by rw [hstate], by rw [hstate]⟩ ?_
    rintro request hrequest e he
    obtain rfl := Option.some.inj (hdata.symm.trans hrequest)
    cases hfound.symm.trans he
  simp only [hdata, hfound, Option.elim_some] at hstate
  have hcontact : n.contacts.get? id = some contact :=
    Dict.mem_entries_iff.mp (List.mem_of_find?_eq_some hfound)
  have hkept := contacts_kept_iff user { contact with sendReceipts := sendReceipts } hcontact rfl
  constructor
  · rintro ⟨hcontacts, -⟩ request hrequest e he hother
    obtain rfl := Option.some.inj (hdata.symm.trans hrequest)
    obtain rfl := Option.some.inj (hfound.symm.trans he)
    rw [hstate] at hcontacts
    exact (congrArg Contact.sendReceipts (hkept.mp hcontacts hother)).symm
  · intro hcontained
    constructor
    · rw [hstate]
      refine hkept.mpr fun hother => ?_
      -- a contact of another user has the setting already
      have hsame : contact.sendReceipts = sendReceipts := hcontained _ hdata _ hfound hother
      rw [← hsame]
    · rw [hstate]
      rfl

/-- Removing a contact of the user. -/
theorem removeContact_kept (hn : WellFormed n) (hsigned : SignedIn username user n) (contactId : ℤ) :
    KeepsOthers R username user (.removeContact contactId) n := by
  have hstate : ((Update.removeContact contactId).run R username n).state =
      (n.ownedContact? user.onionAddress contactId).elim n fun e =>
        { n with contacts := n.contacts.erase e.1 } := by
    show (P2p.removeContact (session username "default") contactId n).state = _
    unfold P2p.removeContact
    rw [apply_bind, hsigned.getCurrentUser]
    dsimp only
    rw [apply_bind, apply_get]
    dsimp only
    rcases n.ownedContact? user.onionAddress contactId with _ | ⟨id, _⟩ <;> rfl
  rcases hfound : n.ownedContact? user.onionAddress contactId with _ | ⟨id, contact⟩
  · rw [hfound, Option.elim_none] at hstate
    exact ⟨by rw [hstate], by rw [hstate]⟩
  rw [hfound, Option.elim_some] at hstate
  refine ⟨?_, by rw [hstate]⟩
  have hcontact : n.contacts.get? id = some contact :=
    Dict.mem_entries_iff.mp (List.mem_of_find?_eq_some hfound)
  have howner := List.find?_some hfound
  obtain ⟨howner, -⟩ := of_decide_eq_true howner
  rw [hstate]
  refine Dict.filter_erase fun c hc => decide_eq_false fun hother => ?_
  obtain rfl := Option.some.inj (hcontact.symm.trans hc)
  exact hother.ne hn hsigned.mem howner.symm

/-- Marking a message of the user as deleted. -/
theorem deleteMessage_kept (hsigned : SignedIn username user n) (messageId : String) :
    KeepsOthers R username user (.deleteMessage messageId) n := by
  have hstate : ((Update.deleteMessage messageId).run R username n).state =
      (n.messages.get? messageId).elim n fun msg =>
        if some msg.senderOnion = user.onionAddress then
          n.setMessage messageId { msg with isDeleted := true } else n := by
    show (P2p.deleteMessage (session username "default") messageId n).state = _
    unfold P2p.deleteMessage
    rw [apply_bind, hsigned.getCurrentUser]
    dsimp only
    rw [apply_bind, apply_get]
    dsimp only
    rcases n.messages.get? messageId with _ | msg
    · rfl
    · rw [Option.elim_some]
      dsimp only
      split_ifs <;> rfl
  rcases hmsg : n.messages.get? messageId with _ | msg
  · rw [hmsg, Option.elim_none] at hstate
    exact ⟨by rw [hstate], by rw [hstate]⟩
  simp only [hmsg, Option.elim_some] at hstate
  split_ifs at hstate with hsender
  · refine ⟨by rw [hstate]; rfl, ?_⟩
    rw [hstate]
    exact (messages_kept_iff user _ hmsg).mpr fun _ =>
      ⟨not_othersMessage (.inl hsender), not_othersMessage (.inl hsender)⟩
  · exact ⟨by rw [hstate], by rw [hstate]⟩

/-- Naming the sender of a message writes it, or deletes the message. -/
theorem resolveSender_cases (hsigned : SignedIn username user n) {messageId : String} {msg : Message}
    (hmsg : n.messages.get? messageId = some msg) (body : ResolveSenderRequest) :
    let sender := R.lower (strip body.senderOnion)
    (Resolves user n messageId msg sender ∧
      P2p.resolveSender R (session username "default") messageId body n =
        .ok (messageId, sender) (n.setMessage messageId { msg with senderOnion := sender })) ∨
    (¬ Resolves user n messageId msg sender ∧ ∃ e,
      P2p.resolveSender R (session username "default") messageId body n =
        .error e { n with messages := n.messages.erase messageId }) := by
  intro sender
  unfold P2p.resolveSender
  rw [apply_bind, hsigned.getCurrentUser]
  dsimp only
  rw [apply_bind, apply_get]
  dsimp only
  rw [hmsg]
  dsimp only
  split_ifs with haccepted habove
  · right
    refine ⟨?_, _, rfl⟩
    rintro ⟨⟨e, he, hstatus⟩, -⟩
    exact haccepted e he hstatus
  · right
    refine ⟨?_, _, rfl⟩
    rintro ⟨-, hbelow⟩
    obtain ⟨lastSeq, hlast, hle⟩ := habove
    exact absurd (hbelow lastSeq hlast) (by omega)
  · left
    push Not at haccepted habove
    exact ⟨⟨haccepted, habove⟩, rfl⟩

/-- There is no such message to name the sender of. -/
theorem resolveSender_missing (hsigned : SignedIn username user n) {messageId : String}
    (hmsg : n.messages.get? messageId = none) (body : ResolveSenderRequest) :
    P2p.resolveSender R (session username "default") messageId body n =
      .error (.http 404 "Message not found") n := by
  unfold P2p.resolveSender
  rw [apply_bind, hsigned.getCurrentUser]
  dsimp only
  rw [apply_bind, apply_get]
  dsimp only
  rw [hmsg]
  rfl

/-- What the user makes of a message by naming its sender. -/
theorem resolveSender_kept_iff (hsigned : SignedIn username user n) (messageId : String)
    (body : Json) :
    KeepsOthers R username user (.resolveSender messageId body) n ↔
      (Update.resolveSender messageId body).Contained R user n := by
  have hparsed := state_parsed (ResolveSenderRequest.read R body)
    (P2p.resolveSender R (session username "default") messageId) n
  rcases hread : ResolveSenderRequest.read R body with _ | request
  · rw [hread] at hparsed
    have hstate : ((Update.resolveSender messageId body).run R username n).state = n := by
      rw [Update.run, hread]
      exact hparsed
    refine iff_of_true ⟨by rw [hstate], by rw [hstate]⟩ ?_
    intro request hrequest
    cases hread.symm.trans hrequest
  rw [hread] at hparsed
  have hstate : ((Update.resolveSender messageId body).run R username n).state =
      (P2p.resolveSender R (session username "default") messageId request n).state := by
    rw [Update.run, hread]
    exact hparsed
  rcases hmsg : n.messages.get? messageId with _ | msg
  · rw [resolveSender_missing hsigned hmsg, Result.state_error] at hstate
    refine iff_of_true ⟨by rw [hstate], by rw [hstate]⟩ ?_
    intro request hrequest msg hm
    cases hmsg.symm.trans hm
  have hcontained : (Update.resolveSender messageId body).Contained R user n ↔
      let sender := R.lower (strip request.senderOnion)
      (Resolves user n messageId msg sender → msg.senderOnion ≠ sender →
        othersMessage n.users user (messageId, msg) = false ∧
          othersMessage n.users user (messageId, { msg with senderOnion := sender }) = false) ∧
      (¬ Resolves user n messageId msg sender →
        othersMessage n.users user (messageId, msg) = false) := by
    constructor
    · intro h
      exact h request hread msg hmsg
    · intro h request' hrequest' msg' hmsg'
      obtain rfl := Option.some.inj (hread.symm.trans hrequest')
      obtain rfl := Option.some.inj (hmsg.symm.trans hmsg')
      exact h
  rw [hcontained]
  rcases @resolveSender_cases R username user n hsigned messageId msg hmsg request with
    ⟨hresolves, hset⟩ | ⟨hnot, e, herase⟩
  · -- the sender is written
    rw [hset, Result.state_ok] at hstate
    have hkept := messages_kept_iff user
      { msg with senderOnion := R.lower (strip request.senderOnion) } hmsg
    have hne : { msg with senderOnion := R.lower (strip request.senderOnion) } ≠ msg ↔
        msg.senderOnion ≠ R.lower (strip request.senderOnion) := by
      rw [ne_eq, ne_eq, not_iff_not]
      constructor
      · intro h
        exact (congrArg Message.senderOnion h).symm
      · intro h
        rw [← h]
    constructor
    · rintro ⟨-, hmessages⟩
      rw [hstate] at hmessages
      exact ⟨fun _ h => hkept.mp hmessages (hne.mpr h), fun hnot => absurd hresolves hnot⟩
    · rintro ⟨hwritten, -⟩
      refine ⟨by rw [hstate]; rfl, ?_⟩
      rw [hstate]
      exact hkept.mpr fun h => hwritten hresolves (hne.mp h)
  · -- the message is deleted
    rw [herase, Result.state_error] at hstate
    constructor
    · rintro ⟨-, hmessages⟩
      rw [hstate] at hmessages
      exact ⟨fun hresolves => absurd hresolves hnot, fun _ => (erase_kept_iff hmsg).mp hmessages⟩
    · rintro ⟨-, hold⟩
      refine ⟨by rw [hstate], ?_⟩
      rw [hstate]
      exact (erase_kept_iff hmsg).mpr (hold hnot)

/-! ## Isolation -/

/-- The requests of a user are isolated, in a node where others have addresses, exactly when each
of them is scoped; and a change leaves the rows of others alone exactly when it is contained. -/
theorem users_isolated_iff (R : Runtime) (scan : Scan) (timestamp : DateTime → ℤ) {username : String}
    {user : User} {n : Node} (hn : WellFormed n) (hsigned : SignedIn username user n) :
    (∀ reads, Isolated R scan timestamp username user reads n ↔
      Alone user n ∨ ∀ k ∈ reads, k.Scoped R user n) ∧
    ∀ k : Update, KeepsOthers R username user k n ↔ k.Contained R user n := by
  constructor
  · intro reads
    constructor
    · intro hisolated
      by_contra hnot
      obtain ⟨halone, hsome⟩ := not_or.mp hnot
      push Not at hsome
      obtain ⟨k, hk, hscoped⟩ := hsome
      obtain ⟨n', hn', hsame, hne⟩ :=
        @exists_of_not_scoped R scan timestamp username user n hn hsigned k halone hscoped
      have hanswers := hisolated n' hn' hsame
      rw [answers_eq_map hsigned, answers_eq_map (hsame.signedIn hsigned)] at hanswers
      exact hne (List.map_inj_left.mp hanswers k hk)
    · rintro (halone | hscoped) n' hn' hsame
      · rw [hsame.eq_of_alone halone]
      · rw [answers_eq_map hsigned, answers_eq_map (hsame.signedIn hsigned)]
        exact List.map_inj_left.mpr fun k hk => run_of_scoped hn hsigned hn' hsame (hscoped k hk)
  · intro k
    rcases k with ⟨profileId, data⟩ | contactId | messageId | ⟨messageId, body⟩
    case legacyUpdateReceipts => exact updateReceipts_kept_iff hsigned profileId data
    case removeContact => exact iff_of_true (removeContact_kept hn hsigned contactId) trivial
    case deleteMessage => exact iff_of_true (deleteMessage_kept hsigned messageId) trivial
    case resolveSender => exact resolveSender_kept_iff hsigned messageId body

end

/-! ## Two users -/

def alice : User := ⟨"alice", some "aaaaaaaaaaaaaaaa.onion"⟩

def bob : User := ⟨"bob", some "bbbbbbbbbbbbbbbb.onion"⟩

/-- Alice has no contacts, Bob those that are given. -/
def sharedNode (contacts : Dict ℕ Contact) : Node where
  users    := [alice, bob]
  profiles := ["default"]
  contacts := contacts
  messages := .empty
  bundles  := .empty
  notices  := []
  tasks    := []

def bobsContact : Contact :=
  ⟨"bbbbbbbbbbbbbbbb.onion", "cccccccccccccccc.onion", some "Carol", none, none, .accepted, false,
    "default", none, true, none⟩

def insertionOrder : Scan := ⟨id, fun _ => .refl _, fun _ _ => rfl⟩

theorem wellFormed_sharedNode (contacts : Dict ℕ Contact)
    (hcontacts : ∀ e ∈ contacts.entries, e.2 = bobsContact) : WellFormed (sharedNode contacts) where
  owned := by
    intro e he
    rw [hcontacts e he]
    exact ⟨bob, by simp [sharedNode], rfl⟩
  profiled := by
    intro e he
    rw [hcontacts e he]
    exact List.mem_singleton_self _
  distinct := by
    show ∀ u ∈ [alice, bob], ∀ v ∈ [alice, bob], u.onionAddress ≠ none →
      u.onionAddress = v.onionAddress → u = v
    decide
  usernames := by
    show ∀ u ∈ [alice, bob], '.' ∉ u.username.toList
    decide
  addresses := by
    show ∀ u ∈ [alice, bob], ∀ onion ∈ u.onionAddress, isOnion onion = true
    decide

theorem signedIn_alice (contacts : Dict ℕ Contact) : SignedIn "alice" alice (sharedNode contacts) :=
  ⟨by decide, by rfl⟩

/-- The contacts that Alice lists do not depend on Bob's, and she cannot remove them. -/
theorem alice_lists_own :
    Isolated asciiRuntime insertionOrder (fun _ => 0) "alice" alice [.listContacts "default"]
      (sharedNode (.insert .empty 1 bobsContact)) ∧
    KeepsOthers asciiRuntime "alice" alice (.removeContact 1)
      (sharedNode (.insert .empty 1 bobsContact)) := by
  obtain ⟨hreads, hupdates⟩ := users_isolated_iff asciiRuntime insertionOrder (fun _ => 0)
    (wellFormed_sharedNode (.insert .empty 1 bobsContact) (by decide)) (signedIn_alice _)
  refine ⟨(hreads _).mpr (.inr ?_), (hupdates _).mpr trivial⟩
  intro k hk
  obtain rfl := List.mem_singleton.mp hk
  trivial

/-- The old client shows Bob's contact to Alice, and lets her change its receipts. -/
theorem alice_meets_carol :
    ¬ Isolated asciiRuntime insertionOrder (fun _ => 0) "alice" alice [.legacyGetContacts "default"]
      (sharedNode .empty) ∧
    ¬ KeepsOthers asciiRuntime "alice" alice
      (.legacyUpdateReceipts "default" (.obj [("onion_address", .str "cccccccccccccccc.onion")]))
      (sharedNode (.insert .empty 1 bobsContact)) := by
  constructor
  · intro hisolated
    have hanswers := hisolated (sharedNode (.insert .empty 1 bobsContact))
      (wellFormed_sharedNode _ (by decide)) (sameFor_setContact rfl (by decide))
    revert hanswers
    decide +kernel
  · rintro ⟨hcontacts, -⟩
    revert hcontacts
    decide +kernel

end AnonyMus.P2p.Isolation
