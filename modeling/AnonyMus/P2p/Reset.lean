import AnonyMus.P2p.Ledger

/-!
# P2P node — reset

What is left of an account after `reset_data`, whatever has been requested before. Messages are
addressed by what the account was called when they came: its onion address, or
`sealed_recipient` while it had none. The wipe asks for the present address only.

* `Wiped` — nothing of the user is left;
* `Filed` — the messages of the user name its present address;
* `Orderly` — the requests that keep it so;
* `reset_wiped_iff` — a reset wipes exactly what is filed;
* `sealed_left` — a sealed message from before the address was known.
-/

namespace AnonyMus.P2p.Reset

open EStateM
open Relay (strip)

/-! ## What a reset should do -/

/-- The user lists no contact in any profile, and no message that it has sent or received is left. -/
structure Wiped (username : String) (l : Ledger) : Prop where
  contacts : ∀ profileId, listContacts ⟨some username, profileId⟩ l.node = .ok [] l.node
  messages : ∀ id m, l.node.messages.get? id = some m → l.parties.get? id ≠ some username

/-- The message is to or from the present address of the user. -/
def Names (n : Node) (username : String) (m : Message) : Prop :=
  ∃ user onion, n.user? username = some user ∧ user.onionAddress = some onion ∧
    (m.senderOnion = onion ∨ m.recipientOnion = onion)

def Filed (username : String) (l : Ledger) : Prop :=
  ∀ id m, l.node.messages.get? id = some m → l.parties.get? id = some username →
    Names l.node username m

/-- A peer seals a message that is kept only when the first account has its address; and the sender
is resolved of messages that were received. -/
def Orderly (R : Runtime) : Event → Ledger → Prop
  | .request (.message body _), l =>
    ∀ user ∈ l.node.users.head?, ∀ request ∈ P2PMessageRequest.read R body,
      user.onionAddress = none → request.ephemeral = true ∨ truthy request.sender ≠ none
  | .resolve _ messageId _, l =>
    ∀ m, l.node.messages.get? messageId = some m →
      ∀ username, l.parties.get? messageId = some username →
        ∃ user ∈ l.node.user? username, some m.recipientOnion = user.onionAddress
  | _, _ => True

/-! ## One reset -/

section Reset

variable {R : Runtime} {n n' : Node} {l : Ledger} {user : User}

/-- An account is found under its name whatever else is written to it. -/
theorem user?_map {g : User → User} (hg : ∀ u, (g u).username = u.username)
    (husers : n'.users = n.users.map g) (username : String) :
    n'.user? username = (n.user? username).map g := by
  unfold Node.user?
  rw [husers, List.find?_map]
  congr 2
  funext u
  simp [hg]

theorem reset_username (username : String) (u : User) :
    (User.reset username u).username = u.username := by
  unfold User.reset
  split <;> rfl

theorem renamed_username (username onion : String) (u : User) :
    (User.renamed username onion u).username = u.username := by
  unfold User.renamed
  split <;> rfl

theorem user?_wipe (hfound : n.user? user.username = some user) :
    (wipe user n).user? user.username = some { user with onionAddress := none } := by
  have hmap : (wipe user n).user? user.username = _ :=
    user?_map (reset_username user.username) rfl user.username
  rw [hmap, hfound]
  simp [User.reset]

/-- The contacts of an account without an address would be owned by a name. -/
theorem listContacts_wipe (h : Sound n) (hfound : n.user? user.username = some user)
    (hname : user.username ≠ "") (profileId : String) :
    listContacts ⟨some user.username, profileId⟩ (wipe user n) = .ok [] (wipe user n) := by
  have hdot := h.usernames user (List.mem_of_find?_eq_some hfound)
  have hnone : (wipe user n).contacts.entries.filter (fun e =>
      (e.2.ownerOnion = (User.owner { user with onionAddress := none }) ∨
        e.2.ownerOnion = user.username) ∧ e.2.profileId = profileId) = [] := by
    refine List.filter_eq_nil_iff.mpr ?_
    rintro ⟨id, c⟩ he hlisted
    -- the owner is an address, and neither the local name of the account nor its name is one
    have honion := (h.wipe user).owners id c (Dict.mem_entries_iff.mp he)
    rcases (of_decide_eq_true hlisted).1 with howner | howner
    · rw [howner] at honion
      exact absurd honion (by simp [User.owner, truthy, Isolation.isOnion_ne_local hdot])
    · rw [howner] at honion
      exact absurd honion (by simp [Isolation.isOnion_ne_username hdot])
  unfold listContacts getCurrentUser
  rw [truthy_of_ne hname, apply_bind]
  dsimp only
  rw [apply_bind, apply_get]
  dsimp only
  rw [user?_wipe hfound]
  dsimp only [apply_pure]
  rw [apply_bind, apply_get]
  dsimp only
  rw [hnone]
  rfl

/-- A reset that succeeds wipes for the account of its session. -/
theorem wipe_of_reset {username confirm : String} {l' : Ledger}
    (hreset : act R (.reset (some username) confirm) l = .ok ⟨⟩ l') :
    ∃ user, l.node.user? user.username = some user ∧ user.username ≠ "" ∧
      user.username = username ∧ ⟨wipe user l.node, l.parties⟩ = l' := by
  unfold act at hreset
  dsimp only [Event.run] at hreset
  rcases resetData_cases (some username) confirm l.node with
    ⟨e, hrun⟩ | ⟨user, hfound, hname, hrun⟩ <;> rw [hrun] at hreset
  · cases hreset
  cases hreset
  have hsame := Option.eq_some_of_filter_eq_some hname
  exact ⟨user, hfound, ne_of_truthy hname, (Option.some.inj hsame).symm, rfl⟩

/-- A reset leaves nothing of the user exactly when what is there names its address. -/
theorem wiped_iff (h : Sound l.node) (hfound : l.node.user? user.username = some user)
    (hname : user.username ≠ "") :
    Wiped user.username ⟨wipe user l.node, l.parties⟩ ↔ Filed user.username l := by
  -- what the wipe asks for, in terms of the account
  have hnames : ∀ m, Names l.node user.username m ↔
      some m.senderOnion = user.onionAddress ∨ some m.recipientOnion = user.onionAddress := by
    intro m
    constructor
    · rintro ⟨user', onion, hfound', honion, hkeys⟩
      obtain rfl := Option.some.inj (hfound.symm.trans hfound')
      rw [honion]
      exact hkeys.imp (congrArg some) (congrArg some)
    · rintro (hsender | hrecipient)
      · exact ⟨user, m.senderOnion, hfound, hsender.symm, .inl rfl⟩
      · exact ⟨user, m.recipientOnion, hfound, hrecipient.symm, .inr rfl⟩
  constructor
  · intro hwiped id m hm hparty
    by_contra hnot
    refine hwiped.messages id m (Dict.get?_filter.mpr ⟨hm, ?_⟩) hparty
    simpa using (hnames m).not.mp hnot
  · intro hfiled
    refine ⟨listContacts_wipe h hfound hname, fun id m hm hparty => ?_⟩
    obtain ⟨hm, hkept⟩ := Dict.get?_filter.mp hm
    exact absurd ((hnames m).mp (hfiled id m hm hparty)) (of_decide_eq_true hkept)

end Reset

/-! ## Orderly runs -/

section Orderly

variable {R : Runtime} {n n' : Node} {l : Ledger}

/-- The messages of every user name its present address. -/
def AllFiled (l : Ledger) : Prop := ∀ username, Filed username l

theorem note_get? {id : String} {m : Message} (hm : l.node.messages.get? id = some m)
    (files : Option (String × (Node → Option User))) :
    (l.note files).get? id = l.parties.get? id := by
  unfold Ledger.note
  rcases files with _ | ⟨id', user?⟩
  · rfl
  dsimp only
  rcases user? l.node with _ | user
  · rfl
  dsimp only
  split_ifs with hfresh
  · rw [Dict.get?_insert, if_neg]
    rintro rfl
    rw [hm] at hfresh
    cases hfresh
  · rfl

theorem Names.congr {username : String} {m m' : Message} (h : Names n username m)
    (husers : n'.users = n.users) (hsender : m'.senderOnion = m.senderOnion)
    (hrecipient : m'.recipientOnion = m.recipientOnion) : Names n' username m' := by
  obtain ⟨user, onion, hfound, honion, hkeys⟩ := h
  refine ⟨user, onion, ?_, honion, by rwa [hsender, hrecipient]⟩
  unfold Node.user?
  rw [husers]
  exact hfound

/-- The accounts are written to, but not the address that the message names. -/
theorem Names.map {username : String} {m : Message} {g : User → User} (h : Names n username m)
    (hg : ∀ u, (g u).username = u.username) (husers : n'.users = n.users.map g)
    (hkept : ∀ user onion, n.user? username = some user → user.onionAddress = some onion →
      m.senderOnion = onion ∨ m.recipientOnion = onion → (g user).onionAddress = some onion) :
    Names n' username m := by
  obtain ⟨user, onion, hfound, honion, hkeys⟩ := h
  refine ⟨g user, onion, ?_, hkept user onion hfound honion hkeys, hkeys⟩
  rw [user?_map hg husers, hfound]
  rfl

/-- What is there was there, between the same addresses. -/
def Rows (n n' : Node) : Prop :=
  ∀ id m', n'.messages.get? id = some m' → ∃ m, n.messages.get? id = some m ∧
    m'.senderOnion = m.senderOnion ∧ m'.recipientOnion = m.recipientOnion

theorem Rows.of_eq (h : n'.messages = n.messages) : Rows n n' :=
  fun _ m' hm' => ⟨m', h ▸ hm', rfl, rfl⟩

theorem Rows.mark {id : String} {m : Message} (hm : n.messages.get? id = some m)
    (h : n'.messages = n.messages.insert id { m with isDeleted := true }) : Rows n n' := by
  intro id' m' hm'
  rw [h, Dict.get?_insert] at hm'
  split_ifs at hm' with hid
  · cases hm'
    exact ⟨m, hid ▸ hm, rfl, rfl⟩
  · exact ⟨m', hm', rfl, rfl⟩

theorem Rows.erase {id : String} (h : n'.messages = n.messages.erase id) : Rows n n' := by
  intro _ m' hm'
  rw [h, Dict.get?_erase] at hm'
  split_ifs at hm'
  exact ⟨m', hm', rfl, rfl⟩

/-- No message is new, and no account is changed. -/
theorem AllFiled.rows (h : AllFiled l) (hrows : Rows l.node n') (husers : n'.users = l.node.users)
    (files : Option (String × (Node → Option User))) : AllFiled ⟨n', l.note files⟩ := by
  intro username id m' hm' hparty
  obtain ⟨m, hm, hsender, hrecipient⟩ := hrows id m' hm'
  rw [note_get? hm] at hparty
  exact (h username id m hm hparty).congr husers hsender hrecipient

/-- A new message of an account that has an address. -/
theorem AllFiled.file (h : AllFiled l) {uuid : String} {user? : Node → Option User} {user : User}
    {m : Message} (hfresh : l.node.messages.get? uuid = none)
    (huser : user? l.node = some user) (hnames : Names l.node user.username m)
    (husers : n'.users = l.node.users) (hmessages : n'.messages = l.node.messages.insert uuid m) :
    AllFiled ⟨n', l.note (some (uuid, user?))⟩ := by
  intro username id m' hm' hparty
  dsimp only at hm' hparty
  rw [hmessages, Dict.get?_insert] at hm'
  split_ifs at hm' with hid
  · -- the new message, which has been noted for the account
    subst hid
    cases hm'
    unfold Ledger.note at hparty
    dsimp only at hparty
    rw [huser] at hparty
    dsimp only at hparty
    rw [if_pos hfresh, Dict.get?_insert, if_pos rfl] at hparty
    cases hparty
    exact hnames.congr husers rfl rfl
  · rw [note_get? hm'] at hparty
    exact (h username id m' hm' hparty).congr husers rfl rfl

theorem user?_head {user : User} (h : n.users.head? = some user) :
    n.user? user.username = some user := by
  unfold Node.user?
  rcases husers : n.users with _ | ⟨first, rest⟩
  · rw [husers] at h
    cases h
  · rw [husers] at h
    cases h
    simp

theorem user?_session {caller : Caller} {user : User} (h : n.sessionUser? caller = some user) :
    n.user? user.username = some user := by
  obtain ⟨username, -, hfound⟩ := Option.bind_eq_some_iff.mp h
  obtain rfl := username_of_user? hfound
  exact hfound

/-- An address counts as true. -/
theorem truthy_of_isOnion {onion : String} (h : isOnion onion = true) :
    truthy (some onion) = some onion := by
  refine truthy_of_ne ?_
  rintro rfl
  exact absurd h (by decide)

/-- Sending files the message under the address of the session's account. -/
theorem sendMessage_files (caller : Caller) (body : SendMessageRequest) (uuid : String)
    (sentAt : DateTime) (timestamp : ℤ) (s : Node) :
    (sendMessage caller body uuid sentAt timestamp s).state = s ∨
      ∃ user onion, s.sessionUser? caller = some user ∧ user.onionAddress = some onion ∧
        s.messages.get? uuid = none ∧
        (sendMessage caller body uuid sentAt timestamp s).state.messages =
          s.messages.insert uuid (sentRow onion body sentAt) ∧
        (sendMessage caller body uuid sentAt timestamp s).state.users = s.users := by
  unfold sendMessage
  rw [apply_bind]
  rcases huser : getCurrentUser caller s with ⟨user, s'⟩ | ⟨e, s'⟩
  · have hsession := sessionUser?_of_getCurrentUser huser
    rw [getCurrentUser_of_sessionUser? hsession] at huser
    cases huser
    dsimp only
    rcases honion : truthy user.onionAddress with _ | onion
    · exact .inl rfl
    dsimp only
    rw [apply_bind, insertMessage_apply]
    split_ifs with hstorable
    · exact .inr ⟨user, onion, hsession, Option.eq_some_of_filter_eq_some honion, hstorable.1,
        rfl, rfl⟩
    · exact .inl rfl
  · have hstate := getCurrentUser_state caller s
    rw [huser] at hstate
    exact .inl hstate

/-- What an orderly peer sends is refused, or not kept, or filed under the address of the first
account. -/
theorem p2pMessage_files (h : Sound n) {body : Json} {request : P2PMessageRequest} {uuid : String}
    (hread : P2PMessageRequest.read R body = some request)
    (horderly : Orderly R (.request (.message body uuid)) ⟨n, l.parties⟩) :
    ((p2pMessage R request uuid n).state.messages = n.messages ∨
      ∃ user m, n.users.head? = some user ∧ Names n user.username m ∧
        n.messages.get? uuid = none ∧
        (p2pMessage R request uuid n).state.messages = n.messages.insert uuid m) ∧
      (p2pMessage R request uuid n).state.users = n.users := by
  rcases p2pMessage_cases (R := R) n request uuid with
    ⟨e, hrun, -⟩ | ⟨user, sender, s', hrun, hpasses, hmessages, -, husers⟩ <;> rw [hrun]
  · exact ⟨.inl rfl, rfl⟩
  refine ⟨?_, husers⟩
  rcases hmessages with ⟨hmessages, -⟩ | ⟨sentAt, hmessages, hkept, hstorable, -⟩
  · exact .inl hmessages
  have hhead := hpasses.localUser
  have hmem : user ∈ n.users := List.mem_of_mem_head? hhead
  refine .inr ⟨user, _, hhead, ?_, hstorable.1, hmessages⟩
  rcases honion : user.onionAddress with _ | onion
  · -- a sender who is named is no contact of an account without an address
    rcases horderly user hhead request hread honion with hephemeral | hnamed
    · rw [hkept] at hephemeral
      cases hephemeral
    obtain ⟨named, hsender, hfiled⟩ := hpasses.filed
    unfold namedSender at hsender
    rcases hgiven : truthy request.sender with _ | given
    · exact absurd hgiven hnamed
    rw [hgiven] at hsender
    dsimp only at hsender
    rcases hvalid : validateOnion R given with e | address
    · rw [hvalid] at hsender
      cases hsender
    rw [hvalid] at hsender
    cases hsender
    cases hfiled
    rcases (checkSender_ok_iff n user sender request.seq).mp hpasses.checks with
      hsealed | ⟨⟨⟨_, c⟩, hfound, -⟩, -⟩
    · have haddress := isOnion_of_validateOnion hvalid
      rw [hsealed] at haddress
      exact absurd haddress (by decide)
    · have howner := (contact?_eq_some hfound).2.1
      rw [honion] at howner
      cases howner
  · have hvalid := h.addresses user hmem onion honion
    refine ⟨user, onion, user?_head hhead, honion, .inr ?_⟩
    rw [messageRow, storedRecipient, honion, truthy_of_isOnion hvalid]
    rfl

/-- The accounts and the messages, which requests about contacts leave alone. -/
def tables (n : Node) : List User × Dict String Message := (n.users, n.messages)

theorem keeps_of_state {α : Type} {x : Handler α} (h : ∀ s, (x s).state = s) : Keeps tables x :=
  fun s => by rw [h s]

theorem keeps_insertContact (c : Contact) : Keeps tables (insertContact c) := by
  intro s
  rcases insertContact_cases s c with hinsert | hinsert <;> rw [hinsert] <;> rfl

theorem keeps_legacyAddContact (caller : Caller) (body : LegacyAddContactRequest) :
    Keeps tables (legacyAddContact R caller body) := by
  unfold legacyAddContact
  refine (keeps_of_state (verifiedUser_state caller)).bind fun user => Keeps.get fun s => ?_
  rcases s.profileContact? _ _ caller.activeProfileId with _ | _
  · rcases user.onionAddress with _ | owner
    · rfl
    · exact (keeps_insertContact _).bind (fun _ => Keeps.pure _) s
  · rfl

theorem keeps_legacySaveSecret (caller : Caller) (body : LegacySaveSecretRequest) :
    Keeps tables (legacySaveSecret R caller body) := by
  unfold legacySaveSecret
  refine (keeps_of_state (verifyAuth_state caller)).bind fun _ => Keeps.get fun s => ?_
  rcases s.anyContact? _ caller.activeProfileId with _ | _ <;> rfl

theorem keeps_legacyUpdateReceipts (caller : Caller) (data : Json) :
    Keeps tables (legacyUpdateReceipts R caller data) := by
  unfold legacyUpdateReceipts
  refine (keeps_of_state (verifyAuth_state caller)).bind fun _ => ?_
  rcases receiptsUpdate R data with _ | ⟨onion, sendReceipts⟩
  · exact Keeps.throw _
  refine Keeps.get fun s => ?_
  rcases s.anyContact? onion caller.activeProfileId with _ | _ <;> rfl

theorem keeps_legacyDeleteContact (caller : Caller) (body : LegacyDeleteContactRequest) :
    Keeps tables (legacyDeleteContact R caller body) := by
  unfold legacyDeleteContact
  refine (keeps_of_state (verifiedUser_state caller)).bind fun user => Keeps.get fun s => ?_
  rcases s.profileContact? _ _ caller.activeProfileId with _ | _ <;> rfl

theorem AllFiled.keep (h : AllFiled l) {x : Handler Unit} (hx : Keeps tables x)
    (files : Option (String × (Node → Option User))) :
    AllFiled ⟨(x l.node).state, l.note files⟩ := by
  obtain ⟨husers, hmessages⟩ := Prod.mk.inj (hx l.node)
  exact h.rows (.of_eq hmessages) husers files

theorem AllFiled.request (h : AllFiled l) (hsound : Sound l.node) {k : Request}
    (horderly : Orderly R (.request k) l) : AllFiled (act R (.request k) l).state := by
  rw [act_state]
  dsimp only [Event.run]
  -- only `message` and `sendMessage` store new messages; `delete` and `deleteMessage` mark them
  rcases k with body | body | ⟨body, uuid⟩ | body | ⟨caller, body⟩ | ⟨caller, contactId⟩ |
    ⟨caller, body⟩ | ⟨caller, body, uuid, sentAt, timestamp⟩ |
    ⟨scan, caller, peerOnion, limit, before, cursor⟩ | ⟨caller, messageId⟩ <;>
    rw [Request.run]
  case handshake =>
    rw [state_parsed]
    rcases HandshakeRequest.read R body with _ | request
    · exact h
    dsimp only
    rcases p2pHandshake_cases (R := R) l.node request with
      ⟨e, hrun⟩ | ⟨_, _, _, _, s', hrun, -, -, -, -, -, hmessages, husers⟩ <;> rw [hrun]
    · exact h
    · exact h.rows (.of_eq hmessages) husers none
  case accept =>
    rw [state_parsed]
    rcases AcceptRequest.read R body with _ | request
    · exact h
    dsimp only
    rcases p2pAccept_cases (R := R) l.node request with
      ⟨e, hrun⟩ | ⟨_, _, _, _, s', hrun, -, -, -, -, hmessages, husers⟩ <;> rw [hrun]
    · exact h
    · exact h.rows (.of_eq hmessages) husers none
  case message =>
    rw [state_parsed]
    rcases hread : P2PMessageRequest.read R body with _ | request
    · exact h.rows (.of_eq rfl) rfl _
    dsimp only
    obtain ⟨hmessages | ⟨user, m, hhead, hnames, hfresh, hmessages⟩, husers⟩ :=
      p2pMessage_files hsound hread horderly
    · exact h.rows (.of_eq hmessages) husers _
    · exact h.file hfresh hhead hnames husers hmessages
  case delete =>
    rw [state_parsed]
    rcases P2PDeleteRequest.read R body with _ | request
    · exact h
    dsimp only
    rcases p2pDelete_cases (R := R) l.node request with
      ⟨e, hrun⟩ | ⟨s', hrun, hmessages, -, husers⟩ <;> rw [hrun]
    · exact h
    · rcases hmessages with hmessages | ⟨m, hm, hmessages⟩
      · exact h.rows (.of_eq hmessages) husers none
      · exact h.rows (.mark hm hmessages) husers none
  case addContact =>
    rw [state_parsed]
    rcases AddContactRequest.read R body with _ | request
    · exact h
    dsimp only
    rcases addContact_cases l.node caller request with
      ⟨e, hrun⟩ | ⟨c, s', hrun, -, -, hmessages, husers⟩ <;> rw [hrun]
    · exact h
    · exact h.rows (.of_eq hmessages) husers none
  case removeContact =>
    rcases removeContact_cases l.node caller contactId with
      ⟨e, hrun⟩ | ⟨id, s', hrun, -, -, hmessages, husers⟩ <;> rw [hrun]
    · exact h
    · exact h.rows (.of_eq hmessages) husers none
  case acceptContact =>
    rw [apply_bind]
    rcases LegacyAcceptContactRequest.read R body with _ | request
    · exact h
    dsimp only [parsed, apply_pure]
    rcases legacyAcceptContact_cases (R := R) l.node caller request with
      ⟨e, hrun⟩ | ⟨id, c, s', hrun, -, -, -, hmessages, husers⟩ <;> rw [hrun]
    · exact h
    · exact h.rows (.of_eq hmessages) husers none
  case sendMessage =>
    rw [state_parsed]
    rcases SendMessageRequest.read R body with _ | request
    · exact h.rows (.of_eq rfl) rfl _
    dsimp only
    rcases sendMessage_files caller request uuid sentAt timestamp l.node with
      hstate | ⟨user, onion, hsession, honion, hfresh, hmessages, husers⟩
    · rw [hstate]
      exact h.rows (.of_eq rfl) rfl _
    · exact h.file hfresh hsession ⟨user, onion, user?_session hsession, honion, .inl rfl⟩ husers
        hmessages
  case messageHistory =>
    rw [state_discard, messageHistory_state]
    exact h
  case deleteMessage =>
    rcases deleteMessage_cases l.node caller messageId with
      ⟨e, hrun⟩ | ⟨m, s', hrun, hm, hmessages, -, husers⟩ <;> rw [hrun]
    · exact h
    · exact h.rows (.mark hm hmessages) husers none

/-- Messages stay where they are when an account gets its address: it has had none. -/
theorem AllFiled.names (h : AllFiled l) (hsound : Sound l.node) (hnames : Names? l.node n')
    (hmessages : n'.messages = l.node.messages) : AllFiled ⟨n', l.parties⟩ := by
  cases hnames with
  | same husers => exact h.rows (.of_eq hmessages) husers none
  | named user onion hfound hnone honion husers =>
    intro username id m hm hparty
    dsimp only at hm
    rw [hmessages] at hm
    refine (h username id m hm hparty).map (renamed_username user.username onion) husers
      fun other own hother hown _ => ?_
    -- the account that a message names has an address already
    have hvalid := hsound.addresses other (List.mem_of_find?_eq_some hother) own hown
    have hne : other.username ≠ user.username := by
      intro hsame
      rw [username_of_user? hother] at hsame
      subst hsame
      obtain rfl := Option.some.inj (hfound.symm.trans hother)
      rw [hown, truthy_of_isOnion hvalid] at hnone
      cases hnone
    rw [User.renamed, if_neg hne]
    exact hown

/-- A reset takes the messages that name the address it clears. -/
theorem AllFiled.wipe (h : AllFiled l) {user : User}
    (hfound : l.node.user? user.username = some user) :
    AllFiled ⟨Reset.wipe user l.node, l.parties⟩ := by
  intro username id m hm hparty
  obtain ⟨hm, hkept⟩ := Dict.get?_filter.mp hm
  refine (h username id m hm hparty).map (reset_username user.username) rfl
    fun other own hother hown hkeys => ?_
  -- a message that is left does not name the account that is reset
  have hne : other.username ≠ user.username := by
    intro hsame
    rw [username_of_user? hother] at hsame
    subst hsame
    obtain rfl := Option.some.inj (hfound.symm.trans hother)
    refine of_decide_eq_true hkept ?_
    rw [hown]
    exact hkeys.imp (congrArg some) (congrArg some)
  rw [User.reset, if_neg hne]
  exact hown

/-- A message whose sender is resolved keeps its recipient. -/
theorem AllFiled.resolve (h : AllFiled l) {caller : Caller} {messageId : String}
    {body : ResolveSenderRequest} (horderly : Orderly R (.resolve caller messageId body) l) :
    AllFiled ⟨(resolveSender R caller messageId body l.node).state, l.parties⟩ := by
  obtain ⟨messages, hstate, hmessages⟩ :=
    resolveSender_writes (R := R) caller messageId body l.node
  rw [hstate]
  rcases hmessages with rfl | rfl | ⟨msg, hmsg, rfl⟩
  · exact h.rows (.of_eq rfl) rfl none
  · have hrows : Rows l.node { l.node with messages := l.node.messages.erase messageId } := .erase rfl
    exact h.rows hrows rfl none
  intro username id m hm hparty
  rw [Dict.get?_insert] at hm
  split_ifs at hm with hid
  · subst hid
    cases hm
    -- the recipient is the user, whoever the sender is now
    obtain ⟨user, huser, hrecipient⟩ := horderly msg hmsg username hparty
    have hnames : Names l.node username { msg with
        senderOnion := R.lower (strip body.senderOnion) } :=
      ⟨user, msg.recipientOnion, huser, hrecipient.symm, .inr rfl⟩
    exact hnames.congr rfl rfl rfl
  · exact (h username id m hm hparty).congr rfl rfl rfl

/-- What an orderly event keeps. -/
theorem AllFiled.act {e : Event} (h : AllFiled l) (hsound : Sound l.node)
    (horderly : Orderly R e l) : AllFiled (act R e l).state := by
  cases e with
  | request k => exact h.request hsound horderly
  | resolve caller messageId body =>
    rw [act_state]
    dsimp only [Event.run]
    rw [state_discard]
    exact h.resolve horderly
  | updateReceipts caller data =>
    rw [act_state]
    exact h.keep (keeps_legacyUpdateReceipts caller data) none
  | legacyAdd caller body =>
    rw [act_state]
    exact h.keep (keeps_legacyAddContact caller body) none
  -- the one event besides a request that files a message
  | legacySend caller body uuid sentAt =>
    rw [act_state]
    dsimp only [Event.run]
    rw [state_discard]
    rcases legacySendMessage_cases caller body uuid sentAt l.node with
      ⟨e, hrun⟩ | ⟨user, onion, hsession, honion, hfresh, hrun⟩ <;> rw [hrun]
    · exact h.rows (.of_eq rfl) rfl _
    · exact h.file hfresh hsession ⟨user, onion, user?_session hsession, honion, .inl rfl⟩ rfl rfl
  | saveSecret caller body =>
    rw [act_state]
    exact h.keep (keeps_legacySaveSecret caller body) none
  | legacyDelete caller body =>
    rw [act_state]
    exact h.keep (keeps_legacyDeleteContact caller body) none
  | publish username body now =>
    rw [act_state]
    dsimp only [Event.run]
    rw [state_discard]
    obtain ⟨hnames, -, hmessages⟩ := publishBundle_names (R := R) username body now l.node
    exact h.names hsound hnames hmessages
  | nodeInfo username configured =>
    rw [act_state]
    dsimp only [Event.run]
    rw [state_discard]
    obtain ⟨hnames, -, hmessages⟩ := getNodeInfo_names username configured l.node
    exact h.names hsound hnames hmessages
  | reset username confirm =>
    rw [act_state]
    dsimp only [Event.run]
    -- refused it changes nothing, and otherwise the rows of the user are gone
    rcases resetData_cases username confirm l.node with
      ⟨e, hrun⟩ | ⟨user, hfound, -, hrun⟩ <;> rw [hrun]
    · exact h
    · exact h.wipe hfound

theorem Started.allFiled (h : Started l) : AllFiled l := by
  intro username id m hm
  rw [h.messages] at hm
  cases hm

/-- In an orderly run every message names the address of its user. -/
theorem allFiled_after (hstart : Started l) {events : List Event}
    (hmeet : AllMeet (act R) (Orderly R) events l) : AllFiled (after (act R) events l) := by
  -- the second invariant needs the first at each step
  have hboth := hmeet.invariant (I := fun l => Sound l.node ∧ AllFiled l)
    (fun e l' h horderly => ⟨?_, h.2.act h.1 horderly⟩) ⟨hstart.sound, hstart.allFiled⟩
  · exact hboth.2
  · rw [act_state]
    exact preserves_run e l'.node h.1

end Orderly

/-- After any requests, a reset leaves nothing of the user exactly when each of its messages that is
still there is to or from its present address. This is so in every run in which peers seal what is
kept only when the first account has its address, and the sender is resolved of messages that were
received. -/
theorem reset_wiped_iff (R : Runtime) {start : Ledger} (hstart : Started start)
    (events : List Event) {username confirm : String} {l' : Ledger}
    (hreset : act R (.reset (some username) confirm) (after (act R) events start) =
      .ok ⟨⟩ l') :
    (Wiped username l' ↔ Filed username (after (act R) events start)) ∧
      (AllMeet (act R) (Orderly R) events start → Wiped username l') := by
  have hsound := sound_after (R := R) hstart.sound events
  obtain ⟨user, hfound, hname, rfl, rfl⟩ := wipe_of_reset hreset
  have hiff := wiped_iff hsound hfound hname
  refine ⟨hiff, fun hmeet => hiff.mpr ?_⟩
  exact allFiled_after hstart hmeet user.username

/-! ## A sealed message -/

/-- A node with one account, not yet published. -/
def newNode : Ledger where
  node :=
    { users := [⟨"alice", none⟩], profiles := ["default"], contacts := .empty, messages := .empty,
      bundles := .empty, notices := [], tasks := [] }
  parties := .empty

theorem started_newNode : Started newNode where
  usernames := by decide
  addresses := by decide
  contacts  := rfl
  messages  := rfl

def sealedBody : Json :=
  .obj [("sealed_sender", .obj [("ephemeral_pub", .str "k"), ("ciphertext", .str "c"),
      ("iv", .str "v")]),
    ("iv", .str "v"), ("ciphertext", .str "c"), ("seq", .int 1), ("timestamp", .int 1700000000000)]

/-- A sealed message. -/
def sealedMessage : Event := .request (.message sealedBody "first")

/-- The account gets the address that Tor has made. -/
def getsAddress : Event := .nodeInfo (some "alice") (some ⟨"aaaaaaaaaaaaaaaa.onion", by decide⟩)

/-- What a reset by the account does after the events. -/
def resetAfter (events : List Event) : Result Failure Ledger Unit :=
  act asciiRuntime (.reset (some "alice") "RESET") (after (act asciiRuntime) events newNode)

/-- The message comes when the address is there. -/
theorem sealed_wiped :
    ∃ l, resetAfter [getsAddress, sealedMessage] = .ok ⟨⟩ l ∧ Wiped "alice" l := by
  have hmeet : AllMeet (act asciiRuntime) (Orderly asciiRuntime) [getsAddress, sealedMessage]
      newNode := by
    refine ⟨trivial, fun user huser request _ hnone => ?_, trivial⟩
    obtain rfl : ⟨"alice", some "aaaaaaaaaaaaaaaa.onion"⟩ = user := Option.some.inj huser
    cases hnone
  have hreset : resetAfter [getsAddress, sealedMessage] =
      .ok ⟨⟩ (resetAfter [getsAddress, sealedMessage]).state := rfl
  exact ⟨_, hreset, (reset_wiped_iff asciiRuntime started_newNode _ hreset).2 hmeet⟩

/-- The message comes first, and stays behind. -/
theorem sealed_left :
    ∃ l, resetAfter [sealedMessage, getsAddress] = .ok ⟨⟩ l ∧ ¬ Wiped "alice" l := by
  have hreset : resetAfter [sealedMessage, getsAddress] =
      .ok ⟨⟩ (resetAfter [sealedMessage, getsAddress]).state := rfl
  refine ⟨_, hreset, fun hwiped => ?_⟩
  have hleft : ∃ m, (resetAfter [sealedMessage, getsAddress]).state.node.messages.get? "first" =
      some m := ⟨_, rfl⟩
  obtain ⟨m, hm⟩ := hleft
  exact hwiped.messages "first" m hm rfl

end AnonyMus.P2p.Reset
