import AnonyMus.P2p.Node

/-!
# P2P node — the local user's contacts

`list_contacts`, `add_contact` and `remove_contact` of
`transports/p2p/routers/contacts.py`, and the endpoint of
`transports/p2p/routers/compat.py` by which the user accepts a contact.

* `listContacts`, `addContact`, `removeContact`, `legacyAcceptContact` — the code;
* `addContact_cases`, … — all that each of them can do.
-/

namespace AnonyMus.P2p

open Relay (strip)

/-! ## Request models -/

structure AddContactRequest where
  onionAddress : String
  nickname     : Option String

structure LegacyAcceptContactRequest where
  onionAddress : String
  myPublicKey  : String
  sharedSecret : String

section

variable (R : Runtime)

def AddContactRequest.read (body : Json) : Option AddContactRequest := do
  let members ← body.members?
  let onionAddress ← Json.required R.str members "onion_address"
  guard (16 ≤ onionAddress.length ∧ onionAddress.length ≤ 128)
  let nickname ← Json.optional R.str members "nickname"
  guard (∀ name ∈ nickname, name.length ≤ 64)
  return { onionAddress, nickname }

def LegacyAcceptContactRequest.read (body : Json) : Option LegacyAcceptContactRequest := do
  let members ← body.members?
  let onionAddress ← Json.required R.str members "onion_address"
  let myPublicKey ← Json.required R.str members "my_public_key"
  let sharedSecret ← Json.required R.str members "shared_secret"
  return { onionAddress, myPublicKey, sharedSecret }

end

/-- The first contact of `owner` with this address in the profile. -/
def Node.profileContact? (n : Node) (owner : Option String) (onion profileId : String) :
    Option (ℕ × Contact) :=
  n.contacts.entries.find? fun e =>
    some e.2.ownerOnion = owner ∧ e.2.onionAddress = onion ∧ e.2.profileId = profileId

/-- The contact of `owner` with this id. -/
def Node.ownedContact? (n : Node) (owner : Option String) (contactId : ℤ) :
    Option (ℕ × Contact) :=
  n.contacts.entries.find? fun e => some e.2.ownerOnion = owner ∧ (e.1 : ℤ) = contactId

/-! ## Endpoints -/

/-- What is shown of a contact. -/
structure ContactResponse where
  id              : ℕ
  ownerOnion      : String
  onionAddress    : String
  nickname        : Option String
  verified        : Bool
  publicKeyB64    : Option String
  sharedSecretB64 : Option String
  status          : Status
deriving DecidableEq

def ContactResponse.modelValidate (row : ℕ × Contact) : ContactResponse where
  id              := row.1
  ownerOnion      := row.2.ownerOnion
  onionAddress    := row.2.onionAddress
  nickname        := row.2.nickname
  verified        := row.2.verified
  publicKeyB64    := row.2.publicKeyB64
  sharedSecretB64 := row.2.sharedSecretB64
  status          := row.2.status

/-- The name under which a user owns contacts: `onion_address or f"{username}.local.onion"`. -/
def User.owner (user : User) : String :=
  (truthy user.onionAddress).getD (user.username ++ ".local.onion")

def listContacts (caller : Caller) : Handler (List ContactResponse) := do
  let user ← getCurrentUser caller
  let contacts := (← get).contacts.entries.filter fun e =>
    (e.2.ownerOnion = user.owner ∨ e.2.ownerOnion = user.username) ∧
      e.2.profileId = caller.activeProfileId
  return contacts.map ContactResponse.modelValidate

def nullable : Option String → Json
  | none => .null
  | some s => .str s

/-- The new contact and its id. -/
def addContact (caller : Caller) (body : AddContactRequest) : Handler (ℕ × Contact) := do
  let user ← getCurrentUser caller
  let owner := (truthy user.onionAddress).getD (user.username ++ ".local.onion")
  let n ← get
  match n.profileContact? (some owner) body.onionAddress caller.activeProfileId with
  | some _ => throw (.http 409 "Contact already exists")
  | none =>
    let bundle := (truthy user.onionAddress).bind n.bundles.get?
    let myPubKey := (bundle.map PreKeyBundle.identityKey).getD "bootstrap_key_placeholder"
    let contact : Contact := {
      ownerOnion := owner, onionAddress := body.onionAddress, nickname := body.nickname,
      publicKeyB64 := none, sharedSecretB64 := none, status := .pendingOutgoing,
      verified := false, profileId := caller.activeProfileId }
    let id ← insertContact contact
    match truthy user.onionAddress with
    | none => return (id, contact)
    | some onion =>
      addTask (.transmitHandshake body.onionAddress (.obj [("onion_address", .str onion),
        ("nickname", .str user.username), ("public_key", .str myPubKey)]))
      return (id, contact)

def removeContact (caller : Caller) (contactId : ℤ) : Handler Unit := do
  let user ← getCurrentUser caller
  match (← get).ownedContact? user.onionAddress contactId with
  | none => throw (.http 404 "Contact not found")
  | some (id, _) => modify fun n => { n with contacts := n.contacts.erase id }

/-- `_verify_auth`, and the user it names; a missing user raises at its first use. -/
def verifiedUser (caller : Caller) : Handler User := do
  match truthy caller.username with
  | none => throw (.http 401 "Unauthorized")
  | some username =>
    match (← get).user? username with
    | none => throw .internal
    | some user => return user

def legacyAcceptContact (R : Runtime) (caller : Caller) (body : LegacyAcceptContactRequest) :
    Handler Unit := do
  let user ← verifiedUser caller
  let onion := R.lower (strip body.onionAddress)
  match (← get).profileContact? user.onionAddress onion caller.activeProfileId with
  | none => throw (.http 404 "Contact not found")
  | some (id, contact) =>
    modify fun n => n.setContact id { contact with
      sharedSecretB64 := some body.sharedSecret, status := .accepted }
    addTask (.notifyAccepted onion (.obj [
      ("onion_address", nullable user.onionAddress), ("public_key", .str body.myPublicKey)]))

/-! ## What the endpoints do -/

section

variable {R : Runtime} (s : Node) (caller : Caller)

/-- Adding is refused, or there is one more contact, pending. -/
theorem addContact_cases (body : AddContactRequest) :
    (∃ e, addContact caller body s = .error e s) ∨
    ∃ contact s', addContact caller body s = .ok (s.nextId, contact) s' ∧
      contact.status = .pendingOutgoing ∧ s'.contacts = s.contacts.insert s.nextId contact ∧
      s'.messages = s.messages ∧ s'.users = s.users := by
  unfold addContact
  rw [EStateM.apply_bind]
  rcases getCurrentUser_cases s caller with ⟨e, huser⟩ | ⟨user, -, huser⟩
  · rw [huser]
    exact .inl ⟨e, rfl⟩
  rw [huser]
  dsimp only
  rw [EStateM.apply_bind, EStateM.apply_get]
  dsimp only
  rcases s.profileContact? _ body.onionAddress caller.activeProfileId with _ | _
  · dsimp only
    rw [EStateM.apply_bind]
    rcases insertContact_cases s _ with hinsert | hinsert
    · rw [hinsert]
      exact .inl ⟨_, rfl⟩
    rw [hinsert]
    -- the handshake is queued when the user has an address
    rcases truthy user.onionAddress with _ | onion
    · exact .inr ⟨_, _, rfl, rfl, rfl, rfl, rfl⟩
    · exact .inr ⟨_, _, rfl, rfl, rfl, rfl, rfl⟩
  · exact .inl ⟨_, rfl⟩

/-- Removing is refused, or one contact is gone. -/
theorem removeContact_cases (contactId : ℤ) :
    (∃ e, removeContact caller contactId s = .error e s) ∨
    ∃ (id : ℕ) (s' : Node), removeContact caller contactId s = .ok ⟨⟩ s' ∧ (id : ℤ) = contactId ∧
      s'.contacts = s.contacts.erase id ∧ s'.messages = s.messages ∧ s'.users = s.users := by
  unfold removeContact
  rw [EStateM.apply_bind]
  rcases getCurrentUser_cases s caller with ⟨e, huser⟩ | ⟨user, -, huser⟩
  · rw [huser]
    exact .inl ⟨e, rfl⟩
  rw [huser]
  dsimp only
  rw [EStateM.apply_bind, EStateM.apply_get]
  dsimp only
  rcases hfound : s.ownedContact? user.onionAddress contactId with _ | ⟨id, _⟩
  · exact .inl ⟨_, rfl⟩
  · have hid := List.find?_some hfound
    exact .inr ⟨id, _, rfl, (of_decide_eq_true hid).2, rfl, rfl, rfl⟩

/-- Accepting is refused, or it makes a contact that is there accepted. -/
theorem legacyAcceptContact_cases (body : LegacyAcceptContactRequest) :
    (∃ e, legacyAcceptContact R caller body s = .error e s) ∨
    ∃ id contact s', legacyAcceptContact R caller body s = .ok ⟨⟩ s' ∧
      contact.status = .accepted ∧ s'.contacts = s.contacts.insert id contact ∧
      (∃ found, (id, found) ∈ s.contacts.entries ∧ contact.publicKeyB64 = found.publicKeyB64) ∧
      s'.messages = s.messages ∧ s'.users = s.users := by
  unfold legacyAcceptContact verifiedUser
  rw [EStateM.apply_bind]
  rcases truthy caller.username with _ | username
  · exact .inl ⟨_, rfl⟩
  dsimp only
  rw [EStateM.apply_bind, EStateM.apply_get]
  dsimp only
  rcases s.user? username with _ | user
  · exact .inl ⟨_, rfl⟩
  dsimp only [EStateM.apply_pure]
  rw [EStateM.apply_bind, EStateM.apply_get]
  dsimp only
  rcases hfound : s.profileContact? user.onionAddress _ caller.activeProfileId with _ | ⟨id, contact⟩
  · exact .inl ⟨_, rfl⟩
  · exact .inr ⟨_, _, _, rfl, rfl, rfl, ⟨contact, List.mem_of_find?_eq_some hfound, rfl⟩, rfl, rfl⟩

end

end AnonyMus.P2p
