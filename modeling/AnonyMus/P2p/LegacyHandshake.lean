import AnonyMus.P2p.LegacyReplay

/-!
# P2P node — contact requests to the Flask server

`p2p_handshake` and `p2p_accept` of `transports/p2p/server.py`, down to the
single commits of `transports/p2p/database.py`: a handshake stores the key of
the peer through `update_contact_secret`, which also clears the shared secret
and accepts the contact, and takes the status back in a commit of its own.

* `HandshakeNode` — the tables, and what the request at hand has committed;
* `p2pHandshake`, `p2pAccept` — the two endpoints;
* `Undamaged` — the keys of the accepted contacts stay, and no handshake
  commits another contact as accepted;
* `Unkeyed` — a handshake that passes the checks is of an accepted contact
  without a shared secret;
* `undamaged_iff` — in every run, the one holds exactly when the other does.
-/

namespace AnonyMus.P2p.Legacy

open EStateM
open Relay (strip)

/-! ## Tables -/

/-- A row of `contacts`. -/
structure HandshakeContact where
  nickname           : String
  sharedSecret       : Option String
  peerPublicKey      : Option String
  status             : String
  myOnionAddress     : Option String
  displayName        : Option String
  profileId          : String
  preferredFileRelay : Option String

abbrev HandshakeContacts := Dict String HandshakeContact

/-- What is emitted to the browser. -/
inductive HandshakeNotice
  | incomingContactRequest (onion nickname peerPublicKey : String)
  | handshakeAccepted (onion peerPublicKey : String) (myPublicKey : Option String)

structure HandshakeNode where
  contacts : HandshakeContacts
  config   : Dict String String
  emitted  : List HandshakeNotice
  /-- The tables that the request at hand has committed so far. -/
  commits  : List HandshakeContacts

abbrev Handshaker := EStateM Failure HandshakeNode

variable (L : Library)

namespace HandshakeNode

def commit (contacts : HandshakeContacts) (n : HandshakeNode) : HandshakeNode :=
  { n with contacts, commits := n.commits ++ [contacts] }

/-- `UPDATE contacts SET … WHERE onion_address = …`, and its commit. -/
def update (onion : String) (f : HandshakeContact → HandshakeContact) (n : HandshakeNode) :
    HandshakeNode :=
  let peer := normalized L onion
  match n.contacts.get? peer with
  | some contact => n.commit (n.contacts.insert peer (f contact))
  | none => n.commit n.contacts

/-- `add_contact`: `INSERT OR IGNORE`, and its commit. -/
def addContact (onion : String) (contact : HandshakeContact) (n : HandshakeNode) : HandshakeNode :=
  let peer := normalized L onion
  match n.contacts.get? peer with
  | some _ => n.commit n.contacts
  | none => n.commit (n.contacts.insert peer contact)

/-- `update_contact_secret` without a database key. -/
def updateContactSecret (onion : String) (sharedSecret peerPublicKey : Option String) :
    HandshakeNode → HandshakeNode :=
  update L onion fun c => { c with sharedSecret, peerPublicKey, status := "accepted" }

def updateContactStatus (onion status : String) : HandshakeNode → HandshakeNode :=
  update L onion fun c => { c with status }

def updatePreferredRelay (onion url : String) : HandshakeNode → HandshakeNode :=
  update L onion fun c => { c with preferredFileRelay := some url }

def emit (notice : HandshakeNotice) (n : HandshakeNode) : HandshakeNode :=
  { n with emitted := n.emitted ++ [notice] }

/-- The addresses under which the node is known: those for the contacts of the default profile, and
its own. -/
def knownOnions (n : HandshakeNode) : List String :=
  (n.contacts.entries.filter fun e => e.2.profileId = "default").filterMap
      (fun e => truthy e.2.myOnionAddress) ++
    ((truthy (n.config.get? "my_onion_address")).map (normalized L)).toList

/-- The `Host` header is no onion address, or a known one. -/
def isKnownHost (host : String) (n : HandshakeNode) : Bool :=
  let host := String.ofList ((normalized L host).toList.takeWhile (· ≠ ':'))
  !".onion".toList.isSuffixOf host.toList || (n.knownOnions L).isEmpty ||
    (n.knownOnions L).contains host

def isBlocked (onion : String) (n : HandshakeNode) : Bool :=
  match n.contacts.get? (normalized L onion) with
  | some contact => contact.status = "blocked"
  | none => false

end HandshakeNode

/-! ## The endpoints -/

open HandshakeNode

/-- `validate_onion`. -/
def onionOf (addr : String) : Option String :=
  let addr := normalized L addr
  if isOnion addr then some addr else none

def isNicknameChar (c : Char) : Bool := c.isAlphanum || c ∈ "._- @()".toList

/-- `validate_nickname`: `^[a-zA-Z0-9._\- @()]+$`, where `$` lets a final newline pass. -/
def validateNickname (nickname : String) : Except Failure String :=
  let stripped := strip nickname
  if nickname = "" || stripped.length < 1 || 50 < stripped.length then
    .error (.http 400 "Invalid nickname")
  else if (stripped.toList.takeWhile isNicknameChar).length ≠ 0 &&
      (stripped.toList.dropWhile isNicknameChar == [] ||
        stripped.toList.dropWhile isNicknameChar == ['\n']) then
    .ok stripped
  else .error (.http 400 "Invalid nickname")

structure HandshakeRequest where
  onion     : String
  nickname  : String
  publicKey : String

/-- The public key of both requests. -/
def readPublicKey (data : Body) : Except Failure String := do
  let publicKey := strip (← getStr data "public_key")
  if !isValidBase64Like 5000 (.str publicKey) then throw (.http 400 "Invalid public key")
  return publicKey

/-- The fields of `p2p_handshake`; an address that is not valid is refused last. -/
def readHandshake (data : Body) : Except Failure HandshakeRequest := do
  validateJsonSchema L [("onion_address", .str), ("nickname", .str), ("public_key", .str)] data
  let onion := onionOf L (normalized L (← getStr data "onion_address"))
  let nickname ← validateNickname (strip (← getStr data "nickname"))
  let publicKey ← readPublicKey data
  match onion with
  | some onion => return ⟨onion, nickname, publicKey⟩
  | none => throw (.http 400 "Missing or invalid payload fields")

/-- `p2p_handshake`, up to the first write. -/
def checkHandshake (data : Body) (host : String) (n : HandshakeNode) :
    Except Failure HandshakeRequest := do
  let request ← readHandshake L data
  if !n.isKnownHost L host then throw (.http 404 "Not found")
  if n.isBlocked L request.onion then throw (.http 403 "blocked")
  return request

/-- The peer names a relay, or none. -/
def preferRelay (onion : String) (data : Body) : Handshaker Unit := do
  let relay := strip (← ofExcept (getStr data "preferred_file_relay"))
  if relay ≠ "" ∧ "http".toList <+: relay.toList then
    modify (HandshakeNode.updatePreferredRelay L onion relay)

/-- The row of a contact request. -/
def pendingIncoming (nickname displayName : String) : HandshakeContact :=
  ⟨nickname, none, none, "pending_incoming", none, some displayName, "default", none⟩

/-- `p2p_handshake`; `host` is the header, `displayName` what `token_hex` returns. -/
def p2pHandshake (data : Body) (host displayName : String) : Handshaker String := do
  let request ← ofExcept (checkHandshake L data host (← get))
  modify (HandshakeNode.addContact L request.onion (pendingIncoming request.nickname displayName))
  modify (updateContactSecret L request.onion none (some request.publicKey))
  modify (updateContactStatus L request.onion "pending_incoming")
  preferRelay L request.onion data
  modify (emit (.incomingContactRequest request.onion request.nickname request.publicKey))
  return "pending"

/-- The fields of `p2p_accept`. -/
def readAccept (data : Body) : Except Failure (String × String) := do
  validateJsonSchema L [("onion_address", .str), ("public_key", .str)] data
  let onion ← getStr data "onion_address"
  let onion ← validOnion L onion
  let publicKey ← readPublicKey data
  return (onion, publicKey)

def p2pAccept (data : Body) : Handshaker String := do
  let (onion, publicKey) ← ofExcept (readAccept L data)
  if ((← get).contacts.get? (normalized L onion)).isNone then
    throw (.http 404 "No handshake record found.")
  let myPublicKey := (← get).config.get? ("my_pubkey_for_" ++ onion)
  preferRelay L onion data
  modify (emit (.handshakeAccepted onion publicKey myPublicKey))
  return "accepted"

inductive HandshakeEvent
  | p2pHandshake (data : Body) (host displayName : String)
  | p2pAccept (data : Body)

def HandshakeEvent.handle : HandshakeEvent → Handshaker String
  | p2pHandshake data host displayName => Legacy.p2pHandshake L data host displayName
  | p2pAccept data => Legacy.p2pAccept L data

/-- A request, with its commits. -/
def HandshakeEvent.run (e : HandshakeEvent) : Handshaker String := do
  modify fun n => { n with commits := [] }
  e.handle L

/-! ## Damage -/

def IsAccepted (contacts : HandshakeContacts) (peer : String) : Prop :=
  ∃ contact, contacts.get? peer = some contact ∧ contact.status = "accepted"

/-- The secret and the key of each accepted contact with a secret are as they were. -/
def KeepsKeys (old new : HandshakeContacts) : Prop :=
  ∀ peer contact, old.get? peer = some contact → contact.status = "accepted" →
    contact.sharedSecret ≠ none →
    ∃ contact', new.get? peer = some contact' ∧ contact'.sharedSecret = contact.sharedSecret ∧
      contact'.peerPublicKey = contact.peerPublicKey

/-- Only those are accepted that the user has accepted before. -/
def AcceptsNone (old new : HandshakeContacts) : Prop :=
  ∀ peer, IsAccepted new peer → IsAccepted old peer

/-- The request keeps the keys; if it is a handshake, then each of its commits accepts nobody. -/
def Undamaged (old : HandshakeContacts) (e : HandshakeEvent) (n : HandshakeNode) : Prop :=
  KeepsKeys old (e.run L n).state.contacts ∧
    match e with
    | .p2pHandshake .. => ∀ table ∈ (e.run L n).state.commits, AcceptsNone old table
    | .p2pAccept _ => True

/-- A handshake that passes the checks is of a contact that the user has accepted, without a shared
secret. -/
def Unkeyed (old : HandshakeContacts) : HandshakeEvent → HandshakeNode → Prop
  | .p2pHandshake data host _, n =>
    ∀ request, checkHandshake L data host n = .ok request →
      ∃ contact, old.get? (normalized L request.onion) = some contact ∧
        contact.status = "accepted" ∧ contact.sharedSecret = none
  | .p2pAccept _, _ => True

/-! ## Writes -/

section

variable {L} {onion peer : String} {old : HandshakeContacts} {n : HandshakeNode}

/-- A row after the update of one row. -/
theorem get?_update (f : HandshakeContact → HandshakeContact) :
    (n.update L onion f).contacts.get? peer =
      if peer = normalized L onion then (n.contacts.get? peer).map f else n.contacts.get? peer := by
  unfold update
  dsimp only
  cases hget : n.contacts.get? (normalized L onion) with
  | none =>
    by_cases hpeer : peer = normalized L onion
    · simp only [commit, hpeer, hget, if_true, Option.map_none]
    · simp only [commit, if_neg hpeer]
  | some contact =>
    simp only [commit, Dict.get?_insert]
    by_cases hpeer : peer = normalized L onion
    · simp only [hpeer, if_true, hget, Option.map_some]
    · simp only [if_neg hpeer]

/-- An update commits its table. -/
theorem commits_update (f : HandshakeContact → HandshakeContact) :
    (n.update L onion f).commits = n.commits ++ [(n.update L onion f).contacts] := by
  unfold update
  dsimp only
  cases n.contacts.get? (normalized L onion) with
  | none => rfl
  | some contact => rfl

/-- A contact is added under a new address. -/
theorem get?_addContact (contact : HandshakeContact) :
    (n.addContact L onion contact).contacts.get? peer =
      if peer = normalized L onion then some ((n.contacts.get? peer).getD contact)
      else n.contacts.get? peer := by
  unfold HandshakeNode.addContact
  dsimp only
  cases hget : n.contacts.get? (normalized L onion) with
  | none =>
    simp only [commit, Dict.get?_insert]
    by_cases hpeer : peer = normalized L onion
    · simp only [hpeer, if_true, hget, Option.getD_none]
    · simp only [if_neg hpeer]
  | some contact' =>
    by_cases hpeer : peer = normalized L onion
    · simp only [commit, hpeer, hget, if_true, Option.getD_some]
    · simp only [commit, if_neg hpeer]

theorem commits_addContact (contact : HandshakeContact) :
    (n.addContact L onion contact).commits =
      n.commits ++ [(n.addContact L onion contact).contacts] := by
  unfold HandshakeNode.addContact
  dsimp only
  cases n.contacts.get? (normalized L onion) with
  | none => rfl
  | some contact' => rfl

/-- The table has lost no keys and gained no accepted contact, and neither has any table that the
request has committed. -/
structure Sound (old : HandshakeContacts) (n : HandshakeNode) : Prop where
  keys     : KeepsKeys old n.contacts
  statuses : AcceptsNone old n.contacts
  commits  : ∀ table ∈ n.commits, AcceptsNone old table

/-- A commit of rows that are as before, but for one that the user has accepted without a secret. -/
theorem Sound.write {n' : HandshakeNode} (h : Sound old n)
    (hcommits : n'.commits = n.commits ++ [n'.contacts])
    (hrow : ∃ contact, old.get? peer = some contact ∧ contact.status = "accepted" ∧
      contact.sharedSecret = none)
    (hother : ∀ peer', peer' ≠ peer → n'.contacts.get? peer' = n.contacts.get? peer') :
    Sound old n' := by
  obtain ⟨contact, hold, haccepted, hnone⟩ := hrow
  have hkeys : KeepsKeys old n'.contacts := by
    intro peer' contact' hget hstatus hsecret
    by_cases hpeer : peer' = peer
    · -- the contact has no secret to lose
      subst hpeer
      rw [hold] at hget
      obtain rfl := Option.some.inj hget
      exact absurd hnone hsecret
    · rw [hother peer' hpeer]
      exact h.keys peer' contact' hget hstatus hsecret
  have hstatuses : AcceptsNone old n'.contacts := by
    rintro peer' ⟨contact', hget, hstatus⟩
    by_cases hpeer : peer' = peer
    · subst hpeer
      exact ⟨contact, hold, haccepted⟩
    · rw [hother peer' hpeer] at hget
      exact h.statuses peer' ⟨contact', hget, hstatus⟩
  refine ⟨hkeys, hstatuses, ?_⟩
  rw [hcommits]
  intro table htable
  rcases List.mem_append.mp htable with htable | htable
  · exact h.commits table htable
  · rw [List.mem_singleton.mp htable]
    exact hstatuses

/-- An update of other columns. -/
theorem Sound.update {f : HandshakeContact → HandshakeContact} (h : Sound old n)
    (hsecret : ∀ c, (f c).sharedSecret = c.sharedSecret)
    (hkey : ∀ c, (f c).peerPublicKey = c.peerPublicKey) (hstatus : ∀ c, (f c).status = c.status) :
    Sound old (n.update L onion f) := by
  -- the contacts already accepted keep their keys: the update writes none of these
  -- columns
  have hkeys : KeepsKeys old (n.update L onion f).contacts := by
    intro peer contact hget haccepted hne
    obtain ⟨contact', hget', hsecret', hkey'⟩ := h.keys peer contact hget haccepted hne
    rw [get?_update, hget']
    by_cases hpeer : peer = normalized L onion
    · rw [if_pos hpeer, Option.map_some]
      exact ⟨f contact', rfl, (hsecret contact').trans hsecret', (hkey contact').trans hkey'⟩
    · rw [if_neg hpeer]
      exact ⟨contact', rfl, hsecret', hkey'⟩
  -- no contact becomes accepted, since the status is the old one
  have hstatuses : AcceptsNone old (n.update L onion f).contacts := by
    rintro peer ⟨contact, hget, haccepted⟩
    apply h.statuses
    rw [get?_update] at hget
    by_cases hpeer : peer = normalized L onion
    · rw [if_pos hpeer] at hget
      obtain ⟨contact', hget', rfl⟩ := Option.map_eq_some_iff.mp hget
      exact ⟨contact', hget', (hstatus contact').symm.trans haccepted⟩
    · rw [if_neg hpeer] at hget
      exact ⟨contact, hget, haccepted⟩
  refine ⟨hkeys, hstatuses, ?_⟩
  rw [commits_update]
  -- the table it commits is one more, and satisfies the same two facts
  intro table htable
  rcases List.mem_append.mp htable with htable | htable
  · exact h.commits table htable
  · rw [List.mem_singleton.mp htable]
    exact hstatuses

theorem preserves_preferRelay (onion : String) (data : Body) :
    Preserves (Sound old) (preferRelay L onion data) := by
  unfold preferRelay
  intro n h
  rw [apply_bind, apply_ofExcept]
  cases getStr data "preferred_file_relay" with
  | error failure => exact h
  | ok relay =>
    dsimp only
    split_ifs
    · exact h.update (fun _ => rfl) (fun _ => rfl) (fun _ => rfl)
    · exact h

theorem Sound.emit (h : Sound old n) (notice : HandshakeNotice) : Sound old (n.emit notice) :=
  ⟨h.keys, h.statuses, h.commits⟩

end

/-! ## The requests -/

section

variable {L} {data : Body} {host displayName : String} {old : HandshakeContacts}
  {n : HandshakeNode}

/-- The three writes of a handshake, all to one row. -/
theorem preserves_p2pHandshake (h : Sound old n)
    (hrow : ∀ request, checkHandshake L data host n = .ok request →
      ∃ contact, old.get? (normalized L request.onion) = some contact ∧
        contact.status = "accepted" ∧ contact.sharedSecret = none) :
    Sound old (p2pHandshake L data host displayName n).state := by
  unfold p2pHandshake
  rw [apply_bind, apply_get]
  dsimp only
  rw [apply_bind, apply_ofExcept]
  cases hcheck : checkHandshake L data host n with
  | error failure => exact h
  | ok request =>
    -- the address of the request names the row of an accepted contact without a secret
    have hrow := hrow request hcheck
    -- the three writes, in the order of the handler, are all to this row
    have hadded : Sound old (n.addContact L request.onion
        (pendingIncoming request.nickname displayName)) := by
      refine h.write (commits_addContact _) hrow ?_
      intro peer hpeer
      rw [get?_addContact, if_neg hpeer]
    have hupdated : ∀ {m : HandshakeNode} (f : HandshakeContact → HandshakeContact), Sound old m →
        Sound old (m.update L request.onion f) := by
      intro m f hm
      refine hm.write (commits_update f) hrow ?_
      intro peer hpeer
      rw [get?_update, if_neg hpeer]
    refine Preserves.bind (I := Sound old) (preserves_preferRelay request.onion data) ?_ _
      (hupdated _ (hupdated _ hadded))
    rintro ⟨⟩ m hm
    exact hm.emit _

theorem preserves_p2pAccept : Preserves (Sound old) (p2pAccept L data) := by
  unfold p2pAccept
  intro n h
  rw [apply_bind, apply_ofExcept]
  cases readAccept L data with
  | error failure => exact h
  | ok fields =>
    obtain ⟨onion, publicKey⟩ := fields
    dsimp only
    rw [apply_bind, apply_get]
    dsimp only
    split_ifs
    · exact h
    · refine Preserves.bind (I := Sound old) (preserves_preferRelay onion data) ?_ _ h
      rintro ⟨⟩ m hm
      exact hm.emit _

/-- The contact has no secret, and was accepted in a table that the request has committed. -/
structure Cleared (peer : String) (n : HandshakeNode) : Prop where
  secret   : ∃ contact, n.contacts.get? peer = some contact ∧ contact.sharedSecret = none
  accepted : ∃ table ∈ n.commits, IsAccepted table peer

theorem Cleared.update {onion peer : String} {f : HandshakeContact → HandshakeContact}
    (h : Cleared peer n) (hsecret : ∀ c, (f c).sharedSecret = c.sharedSecret) :
    Cleared peer (n.update L onion f) := by
  obtain ⟨⟨contact, hget, hnone⟩, table, htable, haccepted⟩ := h
  refine ⟨?_, table, ?_, haccepted⟩
  · rw [get?_update, hget]
    split_ifs
    · exact ⟨f contact, rfl, (hsecret contact).trans hnone⟩
    · exact ⟨contact, rfl, hnone⟩
  · rw [commits_update]
    exact List.mem_append_left _ htable

/-- Storing the key of the peer accepts a contact that is there. -/
theorem cleared_updateContactSecret {onion : String} {publicKey : Option String}
    (hthere : n.contacts.get? (normalized L onion) ≠ none) :
    Cleared (normalized L onion) (n.updateContactSecret L onion none publicKey) := by
  obtain ⟨contact, hget⟩ := Option.ne_none_iff_exists'.mp hthere
  have hrow : (n.updateContactSecret L onion none publicKey).contacts.get? (normalized L onion) =
      some { contact with
        sharedSecret := none, peerPublicKey := publicKey, status := "accepted" } := by
    rw [updateContactSecret, get?_update, if_pos rfl, hget, Option.map_some]
  refine ⟨⟨_, hrow, rfl⟩, _, ?_, _, hrow, rfl⟩
  rw [updateContactSecret, commits_update]
  exact List.mem_append_right _ (List.mem_singleton_self _)

/-- A handshake that passes the checks clears the secret, and accepts the contact on the way. -/
theorem cleared_p2pHandshake {request : HandshakeRequest}
    (hcheck : checkHandshake L data host n = .ok request) :
    Cleared (normalized L request.onion) (p2pHandshake L data host displayName n).state := by
  unfold p2pHandshake
  rw [apply_bind, apply_get]
  dsimp only
  rw [apply_bind, apply_ofExcept, hcheck]
  -- `addContact` runs first, so the update of the secret finds a row
  have hthere : (n.addContact L request.onion
      (pendingIncoming request.nickname displayName)).contacts.get?
        (normalized L request.onion) ≠ none := by
    rw [get?_addContact, if_pos rfl]
    exact Option.some_ne_none _
  have hcleared : Cleared (normalized L request.onion) ((n.addContact L request.onion
      (pendingIncoming request.nickname displayName)).updateContactSecret L request.onion none
        (some request.publicKey)) := cleared_updateContactSecret hthere
  have hprefer : Preserves (Cleared (normalized L request.onion))
      -- the relay that the peer prefers is another column of the row
      (preferRelay L request.onion data) := by
    intro m hm
    unfold preferRelay
    rw [apply_bind, apply_ofExcept]
    cases getStr data "preferred_file_relay" with
    | error failure => exact hm
    | ok relay =>
      dsimp only
      split_ifs
      · exact hm.update fun _ => rfl
      · exact hm
  refine Preserves.bind (I := Cleared (normalized L request.onion)) hprefer ?_ _
    (hcleared.update fun _ => rfl)
  rintro ⟨⟩ m ⟨hsecret, haccepted⟩
  exact ⟨hsecret, haccepted⟩

/-- What a request leaves sound, it has not damaged. -/
theorem Sound.undamaged {e : HandshakeEvent} (h : Sound old (e.run L n).state) :
    Undamaged L old e n := by
  cases e with
  | p2pHandshake => exact ⟨h.keys, h.commits⟩
  | p2pAccept => exact ⟨h.keys, trivial⟩

theorem checkHandshake_cleared :
    checkHandshake L data host { n with commits := [] } = checkHandshake L data host n := rfl

/-- The step: between requests, the table is sound. -/
theorem Sound.run {e : HandshakeEvent} (h : Sound old { n with commits := [] })
    (hunkeyed : Unkeyed L old e n) : Sound old (e.run L n).state := by
  cases e with
  | p2pHandshake data host displayName =>
    exact preserves_p2pHandshake h fun request hcheck =>
      hunkeyed request (checkHandshake_cleared.symm.trans hcheck)
  | p2pAccept data => exact preserves_p2pAccept _ h

theorem Undamaged.unkeyed {e : HandshakeEvent} (h : Undamaged L old e n) : Unkeyed L old e n := by
  cases e with
  | p2pAccept => exact trivial
  | p2pHandshake data host displayName =>
    intro request hcheck
    obtain ⟨hkeys, hcommits⟩ := h
    have hcleared : Cleared (normalized L request.onion)
        (p2pHandshake L data host displayName { n with commits := [] }).state :=
      cleared_p2pHandshake (checkHandshake_cleared.trans hcheck)
    obtain ⟨⟨contact', hget', hnone'⟩, table, htable, haccepted⟩ := hcleared
    obtain ⟨contact, hget, hstatus⟩ := hcommits table htable _ haccepted
    refine ⟨contact, hget, hstatus, ?_⟩
    by_contra hne
    -- the secret would have been kept, but it is gone
    obtain ⟨kept, hkept, hsecret, -⟩ := hkeys _ contact hget hstatus hne
    have heq := hkept.symm.trans hget'
    obtain rfl := Option.some.inj heq
    exact hne (hsecret.symm.trans hnone')

end

/-! ## Runs -/

/-- **What contact requests leave of a contact.** From every table, through every
run of handshakes and acceptances that peers send, the secrets and keys of
accepted contacts stay as they were and no handshake commits another contact
as accepted exactly when every handshake that passes the checks is of a
contact that the user has accepted, without a shared secret. -/
theorem undamaged_iff (L : Library) (events : List HandshakeEvent) (n : HandshakeNode) :
    AllMeet (HandshakeEvent.run L) (Undamaged L n.contacts) events n ↔
      AllMeet (HandshakeEvent.run L) (Unkeyed L n.contacts) events n := by
  rw [allMeet_iff]
  constructor
  · intro h
    rw [allMeet_iff]
    intro done e todo hsplit
    exact (h done e todo hsplit).unkeyed
  · intro h done e todo hsplit
    subst hsplit
    obtain ⟨hdone, hunkeyed, -⟩ := (allMeet_append _).mp h
    have hstart : Sound n.contacts { n with commits := [] } := by
      refine ⟨?_, fun _ haccepted => haccepted, fun _ hnone => absurd hnone List.not_mem_nil⟩
      intro peer contact hget _ _
      exact ⟨contact, hget, rfl, rfl⟩
    -- the commits of a request are forgotten when the next one comes
    have hsound := AllMeet.invariant (I := fun m => Sound n.contacts { m with commits := [] })
      (fun e m hm hunkeyed => by
        obtain ⟨hkeys, hstatuses, -⟩ := hm.run hunkeyed
        exact ⟨hkeys, hstatuses, fun _ hnone => absurd hnone List.not_mem_nil⟩) hdone hstart
    exact (hsound.run hunkeyed).undamaged

/-- Carol is accepted, and a secret is shared with her. -/
def carolKeyed : HandshakeNode where
  contacts := Dict.empty.insert carolOnion
    ⟨"carol", some "secret", some "key", "accepted", none, none, "default", none⟩
  config := Dict.empty
  emitted := []
  commits := []

/-- Anybody sends a handshake under her address. -/
def namesCarol : HandshakeEvent :=
  .p2pHandshake [("onion_address", .str carolOnion), ("nickname", .str "carol"),
    ("public_key", .str "other")] "" "00112233"

/-- The secret is gone. -/
theorem namesCarol_damages :
    ¬ AllMeet (HandshakeEvent.run plainLibrary) (Undamaged plainLibrary carolKeyed.contacts)
      [namesCarol] carolKeyed := by
  rintro ⟨⟨hkeys, -⟩, -⟩
  obtain ⟨contact, hget, hsecret, -⟩ := hkeys carolOnion _ rfl rfl (Option.some_ne_none _)
  have hnone : ((namesCarol.run plainLibrary carolKeyed).state.contacts.get? carolOnion).bind
      (·.sharedSecret) = none := by decide +kernel
  rw [hget, Option.bind_some, hsecret] at hnone
  cases hnone

end AnonyMus.P2p.Legacy
