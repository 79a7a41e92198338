import AnonyMus.P2p.Consent
import AnonyMus.P2p.Keys

/-!
# P2P node — reaching a contact

Runs of `routers/contacts.py`, of the publication of `routers/keys.py`, by which
an account gets its address, and of what peers send to `routers/p2p.py`. A
contact is stored under an owner and an address that each statement works out
for itself: `list_contacts` and `add_contact` fall back on a local name, the
others do not, and only the requests of peers have their address stripped and
lowered.

* `publishBundle` — the publication, with the account it may name;
* `Reachable` — a contact is listed, can be removed, and is what a request of
  its peer finds;
* `Moves`, `act_moves` — all that an event can do to accounts and to the places of
  contacts;
* `Addressed`, `reachable_iff` — contacts stay reachable exactly when each is added
  under an address in the form that peers give, new to the first account.
-/

namespace AnonyMus.P2p

open Keys (PreKeyBundlePublish owns)
open EStateM (after AllMeet)

/-! ## Publication -/

/-- The account once `username` has the address. -/
def User.renamed (username onion : String) (u : User) : User :=
  if u.username = username then { u with onionAddress := some onion } else u

/-- The UPDATE of the address of an account; none if another account has it, or if a contact belongs
to the old one. -/
def Node.setAddress? (n : Node) (username onion : String) : Option Node :=
  if (∃ u ∈ n.users, u.username ≠ username ∧ u.onionAddress = some onion) ∨
      ∃ u ∈ n.users, u.username = username ∧ u.onionAddress ≠ some onion ∧
        ∃ e ∈ n.contacts.entries, some e.2.ownerOnion = u.onionAddress
  then none
  else some { n with users := n.users.map (User.renamed username onion) }

/-- The write to the account: an address is set where there is none. -/
def Node.bootstrap? (n : Node) (user : User) (onion : String) : Option Node :=
  match truthy user.onionAddress with
  | some _ => some n
  | none => n.setAddress? user.username onion

/-- `get_current_user` of the auth router. -/
def authUser (username : Option String) : Handler User := do
  match truthy username with
  | none => throw (.http 401 "Not authenticated")
  | some username =>
    match (← get).user? username with
    | none => throw (.http 401 "User not found")
    | some user => return user

/-- `publish_bundle`; `now` is the time. -/
def publishBundle (R : Runtime) (username : Option String) (body : PreKeyBundlePublish)
    (now : DateTime) : Handler ℕ := do
  let user ← authUser username
  let onion ← ofExcept (validateOnion R body.onionAddress)
  if ¬ owns R user onion then
    throw (.http 403 "Cannot publish pre-key bundle for a different onion address")
  let n ← get
  match n.bootstrap? user onion with
  | none => throw .internal
  | some n =>
    set { n with bundles := n.bundles.insert onion (body.bundle now) }
    return body.oneTimePrekeys.length

/-! ## Runs -/

/-- A contact that has been added: by which session, and the address given. -/
structure Added where
  caller       : Caller
  onionAddress : String
deriving DecidableEq

/-- The node, and for the proofs which contacts were added and not removed. -/
structure Tracked where
  node  : Node
  added : Dict ℕ Added

inductive Event
  | add (caller : Caller) (body : Json)
  | list (caller : Caller)
  | remove (caller : Caller) (contactId : ℤ)
  | publish (username : Option String) (body : PreKeyBundlePublish) (now : DateTime)
  | handshake (body : Json)
  | accept (body : Json)
  | message (body : Json) (uuid : String)
  | delete (body : Json)

/-- Handle a request, and note what it has come to. -/
def tracked {α : Type} (handle : Handler α) (note : α → Dict ℕ Added → Dict ℕ Added) :
    EStateM Failure Tracked Unit := fun t =>
  match handle t.node with
  | .ok a n => .ok ⟨⟩ ⟨n, note a t.added⟩
  | .error e n => .error e ⟨n, t.added⟩

section

variable (R : Runtime)

/-- A contact is added with its id and the address given. -/
def addGiven (caller : Caller) (body : Json) : Handler (ℕ × String) := do
  let request ← parsed (AddContactRequest.read R body)
  let (id, _) ← addContact caller request
  return (id, request.onionAddress)

def act : Event → EStateM Failure Tracked Unit
  | .add caller body =>
    tracked (addGiven R caller body) fun out added => added.insert out.1 ⟨caller, out.2⟩
  | .list caller => tracked (listContacts caller) fun _ added => added
  | .remove caller contactId =>
    tracked (removeContact caller contactId) fun _ added => added.erase contactId.toNat
  | .publish username body now => tracked (publishBundle R username body now) fun _ added => added
  | .handshake body => tracked ((Request.handshake body).run R) fun _ added => added
  | .accept body => tracked ((Request.accept body).run R) fun _ added => added
  | .message body uuid => tracked ((Request.message body uuid).run R) fun _ added => added
  | .delete body => tracked ((Request.delete body).run R) fun _ added => added

/-- What `/p2p` finds for a peer that gives this address. -/
def Node.peerContact? (n : Node) (address : String) : Option (ℕ × Contact) := do
  let onion ← (validateOnion R address).toOption
  let user ← n.users.head?
  n.contact? user.onionAddress onion

/-- The session that has added a contact lists it, and can remove it; and whatever address its
peer gives that comes to the one given, `/p2p` finds the contact. -/
structure Reachable (n : Node) (id : ℕ) (a : Added) : Prop where
  listed    : ∃ rows, listContacts a.caller n = .ok rows n ∧ id ∈ rows.map ContactResponse.id
  removable : ∃ n', removeContact a.caller id n = .ok ⟨⟩ n'
  matched   : ∀ address onion, validateOnion R address = .ok onion →
    validateOnion R a.onionAddress = .ok onion →
    (n.peerContact? R address).map Prod.fst = some id

/-- The account of a session. -/
def Node.sessionUser? (n : Node) (caller : Caller) : Option User :=
  (truthy caller.username).bind n.user?

/-- `add_contact` is not refused. -/
structure Insertable (n : Node) (user : User) (profileId onion : String) : Prop where
  fresh    : n.profileContact? (some user.owner) onion profileId = none
  owned    : ∃ u ∈ n.users, u.onionAddress = some user.owner
  profiled : profileId ∈ n.profiles

/-- The account has an address; and if `onion` can be the address of a peer, then it is in the form
that peers give, the account is the first of the node, and has no contact with it in any profile. -/
structure Addressed (n : Node) (user : User) (onion : String) : Prop where
  configured : (truthy user.onionAddress).isSome
  plain      : ∀ peer, validateOnion R onion = .ok peer → onion = peer ∧
    n.users.head?.map User.onionAddress = some user.onionAddress ∧
    n.contact? user.onionAddress onion = none

/-- A contact that is added is `Addressed`. -/
def WellAdded : Event → Tracked → Prop
  | .add caller body, t => ∀ request, AddContactRequest.read R body = some request →
    ∀ user, t.node.sessionUser? caller = some user →
      Insertable t.node user caller.activeProfileId request.onionAddress →
      Addressed R t.node user request.onionAddress
  | _, _ => True

end

/-! ## Places -/

/-- What a contact is looked up by. -/
structure Place where
  ownerOnion   : String
  onionAddress : String
  profileId    : String

def Contact.place (c : Contact) : Place := ⟨c.ownerOnion, c.onionAddress, c.profileId⟩

def Node.places (n : Node) : List (ℕ × Place) := n.contacts.entries.map fun e => (e.1, e.2.place)

/-- The id of the first contact of `owner` with this address. -/
def firstAt (places : List (ℕ × Place)) (owner : Option String) (onion : String) : Option ℕ :=
  (places.find? fun p => some p.2.ownerOnion = owner ∧ p.2.onionAddress = onion).map Prod.fst

section

variable {R : Runtime} {n n' : Node}

theorem contact?_map_fst (owner : Option String) (onion : String) :
    (n.contact? owner onion).map Prod.fst = firstAt n.places owner onion := by
  unfold Node.contact? firstAt Node.places
  rw [List.find?_map, Option.map_map]
  rfl

theorem mem_places {id : ℕ} {p : Place} :
    (id, p) ∈ n.places ↔ ∃ c, n.contacts.get? id = some c ∧ c.place = p := by
  unfold Node.places
  rw [List.mem_map]
  constructor
  · rintro ⟨⟨id', c⟩, hmem, heq⟩
    obtain ⟨rfl, rfl⟩ := Prod.mk.inj heq
    exact ⟨c, Dict.mem_entries_iff.mp hmem, rfl⟩
  · rintro ⟨c, hc, rfl⟩
    exact ⟨(id, c), Dict.mem_entries_iff.mpr hc, rfl⟩

theorem getCurrentUser_of_sessionUser? {caller : Caller} {user : User}
    (h : n.sessionUser? caller = some user) : getCurrentUser caller n = .ok user n := by
  obtain ⟨username, hname, huser⟩ := Option.bind_eq_some_iff.mp h
  unfold getCurrentUser
  rw [hname]
  dsimp only
  rw [EStateM.apply_bind, EStateM.apply_get]
  dsimp only
  rw [huser]
  rfl

theorem sessionUser?_of_getCurrentUser {caller : Caller} {user : User} {n' : Node}
    (h : getCurrentUser caller n = .ok user n') : n.sessionUser? caller = some user := by
  unfold getCurrentUser at h
  unfold Node.sessionUser?
  rcases hname : truthy caller.username with _ | username
  · rw [hname] at h
    cases h
  rw [hname] at h
  dsimp only at h
  rw [EStateM.apply_bind, EStateM.apply_get] at h
  dsimp only at h
  rw [Option.bind_some]
  rcases huser : n.user? username with _ | found
  · rw [huser] at h
    cases h
  · rw [huser] at h
    obtain ⟨rfl, -⟩ := EStateM.Result.ok.inj h
    rfl

/-- `Reachable`, of the accounts and the places alone. -/
structure Located (R : Runtime) (n : Node) (id : ℕ) (a : Added) : Prop where
  owner   : ∃ user p, n.sessionUser? a.caller = some user ∧ (id, p) ∈ n.places ∧
    some p.ownerOnion = user.onionAddress ∧
    (p.ownerOnion = user.owner ∨ p.ownerOnion = user.username) ∧
    p.profileId = a.caller.activeProfileId
  matched : ∀ onion, validateOnion R a.onionAddress = .ok onion →
    ∃ user, n.users.head? = some user ∧ firstAt n.places user.onionAddress onion = some id

theorem listContacts_of_sessionUser? {caller : Caller} {user : User}
    (h : n.sessionUser? caller = some user) :
    listContacts caller n = .ok ((n.contacts.entries.filter fun e =>
      (e.2.ownerOnion = user.owner ∨ e.2.ownerOnion = user.username) ∧
        e.2.profileId = caller.activeProfileId).map ContactResponse.modelValidate) n := by
  unfold listContacts
  rw [EStateM.apply_bind, getCurrentUser_of_sessionUser? h]
  rfl

theorem listed_iff {caller : Caller} {id : ℕ} :
    (∃ rows, listContacts caller n = .ok rows n ∧ id ∈ rows.map ContactResponse.id) ↔
      ∃ user c, n.sessionUser? caller = some user ∧ n.contacts.get? id = some c ∧
        (c.ownerOnion = user.owner ∨ c.ownerOnion = user.username) ∧
        c.profileId = caller.activeProfileId := by
  constructor
  · rintro ⟨rows, hrun, hid⟩
    obtain ⟨user, n₁, huser, -⟩ := EStateM.ok_of_bind hrun
    have hsession := sessionUser?_of_getCurrentUser huser
    rw [listContacts_of_sessionUser? hsession] at hrun
    obtain ⟨rfl, -⟩ := EStateM.Result.ok.inj hrun
    rw [List.map_map, List.mem_map] at hid
    obtain ⟨⟨id', c⟩, hmem, rfl⟩ := hid
    obtain ⟨hentry, hshown⟩ := List.mem_filter.mp hmem
    obtain ⟨howner, hprofile⟩ := of_decide_eq_true hshown
    exact ⟨user, c, hsession, Dict.mem_entries_iff.mp hentry, howner, hprofile⟩
  · rintro ⟨user, c, hsession, hc, howner, hprofile⟩
    refine ⟨_, listContacts_of_sessionUser? hsession, ?_⟩
    rw [List.map_map, List.mem_map]
    exact ⟨(id, c), List.mem_filter.mpr ⟨Dict.mem_entries_iff.mpr hc,
      decide_eq_true ⟨howner, hprofile⟩⟩, rfl⟩

theorem removable_iff {caller : Caller} {id : ℕ} :
    (∃ n', removeContact caller id n = .ok ⟨⟩ n') ↔
      ∃ user c, n.sessionUser? caller = some user ∧ n.contacts.get? id = some c ∧
        some c.ownerOnion = user.onionAddress := by
  unfold removeContact
  constructor
  · rintro ⟨n', hrun⟩
    obtain ⟨user, n₁, huser, hrun⟩ := EStateM.ok_of_bind hrun
    have hsession := sessionUser?_of_getCurrentUser huser
    rw [getCurrentUser_of_sessionUser? hsession] at huser
    obtain ⟨-, rfl⟩ := EStateM.Result.ok.inj huser
    rw [EStateM.apply_bind, EStateM.apply_get] at hrun
    dsimp only at hrun
    rcases hfound : n.ownedContact? user.onionAddress id with _ | ⟨id', c⟩
    · rw [hfound] at hrun
      cases hrun
    · have hmatch := List.find?_some hfound
      obtain ⟨howner, hid⟩ := of_decide_eq_true hmatch
      obtain rfl : id' = id := by exact_mod_cast hid
      exact ⟨user, c, hsession, Dict.mem_entries_iff.mp (List.mem_of_find?_eq_some hfound), howner⟩
  · rintro ⟨user, c, hsession, hc, howner⟩
    rw [EStateM.apply_bind, getCurrentUser_of_sessionUser? hsession]
    dsimp only
    rw [EStateM.apply_bind, EStateM.apply_get]
    dsimp only
    rcases hfound : n.ownedContact? user.onionAddress id with _ | ⟨id', c'⟩
    · -- the contact itself would have been found
      have hnone := List.find?_eq_none.mp hfound (id, c) (Dict.mem_entries_iff.mpr hc)
      exact absurd (decide_eq_true ⟨howner, rfl⟩) hnone
    · exact ⟨_, rfl⟩

theorem peerContact?_eq {address onion : String} (h : validateOnion R address = .ok onion) :
    (n.peerContact? R address).map Prod.fst =
      n.users.head?.bind fun user => firstAt n.places user.onionAddress onion := by
  unfold Node.peerContact?
  rw [h]
  rcases n.users.head? with _ | user
  · rfl
  · exact contact?_map_fst user.onionAddress onion

theorem reachable_iff_located {id : ℕ} {a : Added} : Reachable R n id a ↔ Located R n id a := by
  constructor
  · rintro ⟨hlisted, hremovable, hmatched⟩
    obtain ⟨user, c, huser, hc, howner, hprofile⟩ := listed_iff.mp hlisted
    obtain ⟨user', c', huser', hc', haddress⟩ := removable_iff.mp hremovable
    obtain rfl := Option.some.inj (huser.symm.trans huser')
    obtain rfl := Option.some.inj (hc.symm.trans hc')
    refine ⟨⟨user, c.place, huser, mem_places.mpr ⟨c, hc, rfl⟩, haddress, howner, hprofile⟩, ?_⟩
    intro onion honion
    have hfound := hmatched a.onionAddress onion honion honion
    rw [peerContact?_eq honion] at hfound
    exact Option.bind_eq_some_iff.mp hfound
  · rintro ⟨⟨user, p, huser, hp, haddress, howner, hprofile⟩, hmatched⟩
    obtain ⟨c, hc, rfl⟩ := mem_places.mp hp
    refine ⟨listed_iff.mpr ⟨user, c, huser, hc, howner, hprofile⟩,
      removable_iff.mpr ⟨user, c, huser, hc, haddress⟩, ?_⟩
    intro address onion haddress' honion
    rw [peerContact?_eq haddress']
    exact Option.bind_eq_some_iff.mpr (hmatched onion honion)

/-! ## Lookups after a write -/

theorem firstAt_cons (q : ℕ × Place) (rest : List (ℕ × Place)) (owner : Option String)
    (onion : String) : firstAt (q :: rest) owner onion =
      if some q.2.ownerOnion = owner ∧ q.2.onionAddress = onion then some q.1
      else firstAt rest owner onion := by
  unfold firstAt
  rw [List.find?_cons]
  split_ifs with h
  · rw [decide_eq_true h]
    rfl
  · rw [decide_eq_false h]

theorem mem_of_firstAt {places : List (ℕ × Place)} {owner : Option String} {onion : String} {id : ℕ}
    (h : firstAt places owner onion = some id) :
    ∃ p, (id, p) ∈ places ∧ some p.ownerOnion = owner := by
  obtain ⟨⟨id', p⟩, hfound, rfl⟩ := Option.map_eq_some_iff.mp h
  have hmatch := List.find?_some hfound
  exact ⟨p, List.mem_of_find?_eq_some hfound, (of_decide_eq_true hmatch).1⟩

/-- What is found is found whatever comes after it. -/
theorem firstAt_append {places : List (ℕ × Place)} {owner : Option String} {onion : String} {id : ℕ}
    (h : firstAt places owner onion = some id) (more : List (ℕ × Place)) :
    firstAt (places ++ more) owner onion = some id := by
  induction places with
  | nil => cases h
  | cons q rest ih =>
    rw [firstAt_cons] at h
    rw [List.cons_append, firstAt_cons]
    split_ifs with hq
    · rwa [if_pos hq] at h
    · exact ih (by rwa [if_neg hq] at h)

/-- A new place is found where nothing was. -/
theorem firstAt_append_new_iff {places : List (ℕ × Place)} {owner : Option String} {onion : String}
    {id : ℕ} {p : Place} (hnew : ∀ q ∈ places, q.1 ≠ id) :
    firstAt (places ++ [(id, p)]) owner onion = some id ↔
      firstAt places owner onion = none ∧ some p.ownerOnion = owner ∧ p.onionAddress = onion := by
  induction places with
  | nil =>
    rw [List.nil_append, firstAt_cons]
    split_ifs with hp
    · exact iff_of_true rfl ⟨rfl, hp⟩
    · exact iff_of_false (by rintro ⟨⟩) fun h => hp h.2
  | cons q rest ih =>
    obtain ⟨hq, hrest⟩ := List.forall_mem_cons.mp hnew
    rw [List.cons_append, firstAt_cons, firstAt_cons]
    split_ifs with hmatch
    · exact iff_of_false (fun h => hq (Option.some.inj h)) fun h => by cases h.1
    · exact ih hrest

/-- What is found is found without the others. -/
theorem firstAt_filter {places : List (ℕ × Place)} {owner : Option String} {onion : String}
    {id id' : ℕ} (h : firstAt places owner onion = some id) (hne : id ≠ id') :
    firstAt (places.filter fun q => q.1 ≠ id') owner onion = some id := by
  induction places with
  | nil => cases h
  | cons q rest ih =>
    rw [firstAt_cons] at h
    by_cases hmatch : some q.2.ownerOnion = owner ∧ q.2.onionAddress = onion
    · rw [if_pos hmatch] at h
      obtain rfl := Option.some.inj h
      rw [List.filter_cons, if_pos (decide_eq_true hne), firstAt_cons, if_pos hmatch]
    · rw [if_neg hmatch] at h
      rw [List.filter_cons]
      split_ifs
      · rw [firstAt_cons, if_neg hmatch, ih h]
      · exact ih h

/-! ## Places after a write -/

theorem ne_nextId_of_mem_places {q : ℕ × Place} (h : q ∈ n.places) : q.1 ≠ n.nextId := by
  obtain ⟨c, hc, -⟩ := mem_places.mp h
  intro heq
  rw [heq, get?_nextId] at hc
  cases hc

theorem places_insert_nextId {c : Contact} (h : n'.contacts = n.contacts.insert n.nextId c) :
    n'.places = n.places ++ [(n.nextId, c.place)] := by
  unfold Node.places
  rw [h, Dict.entries_insert_of_new get?_nextId, List.map_append]
  rfl

theorem places_insert {id : ℕ} {c c' : Contact} (h : n'.contacts = n.contacts.insert id c')
    (hold : n.contacts.get? id = some c) (hplace : c'.place = c.place) : n'.places = n.places := by
  unfold Node.places
  rw [h, Dict.map_entries_insert Contact.place hold hplace]

theorem places_erase {id : ℕ} (h : n'.contacts = n.contacts.erase id) :
    n'.places = n.places.filter fun q => q.1 ≠ id := by
  unfold Node.places
  rw [h, List.filter_map]
  rfl

theorem places_congr (h : n'.contacts = n.contacts) : n'.places = n.places := by
  unfold Node.places
  rw [h]

/-! ## What a write keeps -/

theorem sessionUser?_congr (h : n'.users = n.users) (caller : Caller) :
    n'.sessionUser? caller = n.sessionUser? caller := by
  unfold Node.sessionUser? Node.user?
  rw [h]

theorem Located.append {id : ℕ} {a : Added} (h : Located R n id a) (more : List (ℕ × Place))
    (husers : n'.users = n.users) (hplaces : n'.places = n.places ++ more) : Located R n' id a := by
  obtain ⟨⟨user, p, huser, hp, hrest⟩, hmatched⟩ := h
  refine ⟨⟨user, p, ?_, ?_, hrest⟩, ?_⟩
  · rw [sessionUser?_congr husers, huser]
  · rw [hplaces]
    exact List.mem_append_left more hp
  · intro onion honion
    obtain ⟨first, hfirst, hfound⟩ := hmatched onion honion
    rw [husers, hplaces]
    exact ⟨first, hfirst, firstAt_append hfound more⟩

theorem Located.drop {id id' : ℕ} {a : Added} (h : Located R n id a) (hne : id ≠ id')
    (husers : n'.users = n.users) (hplaces : n'.places = n.places.filter fun q => q.1 ≠ id') :
    Located R n' id a := by
  obtain ⟨⟨user, p, huser, hp, hrest⟩, hmatched⟩ := h
  refine ⟨⟨user, p, ?_, ?_, hrest⟩, ?_⟩
  · rw [sessionUser?_congr husers, huser]
  · rw [hplaces]
    exact List.mem_filter.mpr ⟨hp, decide_eq_true hne⟩
  · intro onion honion
    obtain ⟨first, hfirst, hfound⟩ := hmatched onion honion
    rw [husers, hplaces]
    exact ⟨first, hfirst, firstAt_filter hfound hne⟩

/-- An account that owns a contact keeps its address. -/
theorem Located.rename {id : ℕ} {a : Added} (h : Located R n id a) {username onion : String}
    (hfree : ∀ u ∈ n.users, u.username = username → u.onionAddress ≠ some onion →
      ∀ q ∈ n.places, some q.2.ownerOnion ≠ u.onionAddress)
    (husers : n'.users = n.users.map (User.renamed username onion))
    (hplaces : n'.places = n.places) : Located R n' id a := by
  have hkept : ∀ u ∈ n.users, (∃ q ∈ n.places, some q.2.ownerOnion = u.onionAddress) →
      u.renamed username onion = u := by
    rintro u hu ⟨q, hq, howner⟩
    unfold User.renamed
    split_ifs with hname
    · by_cases haddress : u.onionAddress = some onion
      · rw [← haddress]
      · exact absurd howner (hfree u hu hname haddress q hq)
    · rfl
  obtain ⟨⟨user, p, huser, hp, howner, hrest⟩, hmatched⟩ := h
  rw [← hplaces] at hp
  refine ⟨⟨user, p, ?_, hp, howner, hrest⟩, ?_⟩
  · obtain ⟨name, hname, hfound⟩ := Option.bind_eq_some_iff.mp huser
    -- names stay, so that the same account is found
    have hsame : ((fun u : User => decide (u.username = name)) ∘ User.renamed username onion) =
        fun u => decide (u.username = name) := by
      funext u
      unfold User.renamed
      dsimp only [Function.comp]
      split_ifs <;> rfl
    unfold Node.sessionUser? Node.user?
    rw [hname, Option.bind_some, husers, List.find?_map, hsame]
    unfold Node.user? at hfound
    rw [hfound, Option.map_some,
      hkept user (List.mem_of_find?_eq_some hfound) ⟨(id, p), hplaces ▸ hp, howner⟩]
  · intro onion' honion
    obtain ⟨first, hfirst, hfound⟩ := hmatched onion' honion
    obtain ⟨q, hq, hqowner⟩ := mem_of_firstAt hfound
    have hmem : first ∈ n.users := List.mem_of_mem_head? hfirst
    refine ⟨first, ?_, by rw [hplaces]; exact hfound⟩
    rw [husers, List.head?_map, hfirst, Option.map_some, hkept first hmem ⟨_, hq, hqowner⟩]

/-! ## What an event does -/

theorem addContact_of_insertable {caller : Caller} {request : AddContactRequest} {user : User}
    (huser : n.sessionUser? caller = some user)
    (h : Insertable n user caller.activeProfileId request.onionAddress) :
    ∃ c n', addContact caller request n = .ok (n.nextId, c) n' ∧
      c.place = ⟨user.owner, request.onionAddress, caller.activeProfileId⟩ ∧
      n'.contacts = n.contacts.insert n.nextId c ∧ n'.users = n.users := by
  have hfresh : n.profileContact? (some ((truthy user.onionAddress).getD
      (user.username ++ ".local.onion"))) request.onionAddress caller.activeProfileId = none :=
    h.fresh
  have howned := h.owned
  unfold User.owner at howned ⊢
  unfold addContact
  rw [EStateM.apply_bind, getCurrentUser_of_sessionUser? huser]
  dsimp only
  rw [EStateM.apply_bind, EStateM.apply_get]
  dsimp only
  rw [hfresh]
  dsimp only
  unfold insertContact
  rw [EStateM.apply_bind, EStateM.apply_bind, EStateM.apply_get]
  dsimp only
  rw [if_pos ⟨howned, h.profiled⟩]
  rcases truthy user.onionAddress with _ | onion
  · exact ⟨_, _, rfl, rfl, rfl, rfl⟩
  · exact ⟨_, _, rfl, rfl, rfl, rfl⟩

theorem addContact_refused {caller : Caller} {request : AddContactRequest}
    (h : ∀ user, n.sessionUser? caller = some user →
      ¬ Insertable n user caller.activeProfileId request.onionAddress) :
    ∃ e, addContact caller request n = .error e n := by
  unfold addContact
  rw [EStateM.apply_bind]
  rcases getCurrentUser_cases n caller with ⟨e, hnone⟩ | ⟨user, -, hsome⟩
  · rw [hnone]
    exact ⟨e, rfl⟩
  rw [hsome]
  dsimp only
  rw [EStateM.apply_bind, EStateM.apply_get]
  dsimp only
  rcases hfresh : n.profileContact? (some ((truthy user.onionAddress).getD
      (user.username ++ ".local.onion"))) request.onionAddress caller.activeProfileId with _ | _
  · dsimp only
    unfold insertContact
    rw [EStateM.apply_bind, EStateM.apply_bind, EStateM.apply_get]
    dsimp only
    split_ifs with hkeys
    · exact absurd ⟨hfresh, hkeys.1, hkeys.2⟩ (h user (sessionUser?_of_getCurrentUser hsome))
    · exact ⟨_, rfl⟩
  · exact ⟨_, rfl⟩

/-- A handshake leaves the places as they are, or adds one. -/
theorem p2pHandshake_places (body : HandshakeRequest) :
    (p2pHandshake R body n).state.users = n.users ∧
      ((p2pHandshake R body n).state.places = n.places ∨
        ∃ p, (p2pHandshake R body n).state.places = n.places ++ [(n.nextId, p)]) := by
  unfold p2pHandshake
  rw [EStateM.apply_bind, EStateM.apply_ofExcept]
  rcases validateOnion R body.onionAddress with e | onion
  · exact ⟨rfl, .inl rfl⟩
  dsimp only
  rw [EStateM.apply_bind, localUser_apply]
  rcases n.users.head? with _ | user
  · exact ⟨rfl, .inl rfl⟩
  dsimp only
  rw [EStateM.apply_bind, EStateM.apply_get]
  dsimp only
  rcases hfound : n.contact? user.onionAddress onion with _ | ⟨id, existing⟩
  · rcases user.onionAddress with _ | owner
    · exact ⟨rfl, .inl rfl⟩
    dsimp only
    rw [EStateM.apply_bind]
    rcases insertContact_cases n _ with hinsert | hinsert
    · rw [hinsert]
      exact ⟨rfl, .inl rfl⟩
    · rw [hinsert]
      exact ⟨rfl, .inr ⟨_, places_insert_nextId rfl⟩⟩
  · dsimp only
    by_cases hblocked : existing.status = .blocked
    · rw [if_pos hblocked]
      exact ⟨rfl, .inl rfl⟩
    · -- the contact is changed where it stands
      rw [if_neg hblocked]
      have hold := Dict.mem_entries_iff.mp (contact?_eq_some hfound).1
      exact ⟨rfl, .inl (places_insert rfl hold rfl)⟩

theorem username_of_user? {username : String} {user : User} (h : n.user? username = some user) :
    user.username = username := by
  simpa using List.find?_some h

/-- The session of the auth router names an account, or none. -/
theorem authUser_cases (username : Option String) (s : Node) :
    (∃ e, authUser username s = .error e s) ∨
      ∃ user, s.user? user.username = some user ∧ truthy username = some user.username ∧
        authUser username s = .ok user s := by
  unfold authUser
  rcases truthy username with _ | name
  · exact .inl ⟨_, rfl⟩
  dsimp only
  rw [EStateM.apply_bind, EStateM.apply_get]
  dsimp only
  rcases huser : s.user? name with _ | user
  · exact .inl ⟨_, rfl⟩
  · obtain rfl := username_of_user? huser
    exact .inr ⟨user, huser, rfl, rfl⟩

/-- An UPDATE that is taken frees no contact. -/
theorem setAddress?_eq_some {username onion : String}
    (h : n.setAddress? username onion = some n') :
    n' = { n with users := n.users.map (User.renamed username onion) } ∧
      ∀ u ∈ n.users, u.username = username → u.onionAddress ≠ some onion →
        ∀ e ∈ n.contacts.entries, some e.2.ownerOnion ≠ u.onionAddress := by
  unfold Node.setAddress? at h
  split_ifs at h with htaken
  refine ⟨(Option.some.inj h).symm, fun u hu hname haddress e he howner => ?_⟩
  exact htaken (.inr ⟨u, hu, hname, haddress, e, he, howner⟩)

theorem bootstrap?_eq_some {user : User} {onion : String} (h : n.bootstrap? user onion = some n') :
    n' = n ∨ truthy user.onionAddress = none ∧ n.setAddress? user.username onion = some n' := by
  unfold Node.bootstrap? at h
  split at h
  · exact .inl (Option.some.inj h).symm
  · exact .inr ⟨‹_›, h⟩

theorem isOnion_of_validateOnion {address onion : String}
    (h : validateOnion R address = .ok onion) : isOnion onion = true := by
  unfold validateOnion at h
  dsimp only at h
  split_ifs at h with honion
  cases h
  exact honion

/-- A publication is refused, or files a bundle once its account has an address. -/
theorem publishBundle_cases (username : Option String) (body : PreKeyBundlePublish)
    (now : DateTime) (s : Node) :
    (∃ e, publishBundle R username body now s = .error e s) ∨
      ∃ user onion s', s.user? user.username = some user ∧ isOnion onion = true ∧
        s.bootstrap? user onion = some s' ∧
        publishBundle R username body now s = .ok body.oneTimePrekeys.length
          { s' with bundles := s'.bundles.insert onion (body.bundle now) } := by
  unfold publishBundle
  rw [EStateM.apply_bind]
  rcases authUser_cases username s with ⟨e, huser⟩ | ⟨user, hfound, -, huser⟩ <;> rw [huser]
  · exact .inl ⟨e, rfl⟩
  dsimp only
  rw [EStateM.apply_bind, EStateM.apply_ofExcept]
  rcases hvalid : validateOnion R body.onionAddress with e | onion
  · exact .inl ⟨e, rfl⟩
  dsimp only
  by_cases howns : ¬ owns R user onion
  · rw [if_pos howns]
    exact .inl ⟨_, rfl⟩
  rw [if_neg howns, EStateM.apply_bind, EStateM.apply_get]
  dsimp only
  rcases hset : s.bootstrap? user onion with _ | s'
  · exact .inl ⟨_, rfl⟩
  · exact .inr ⟨user, onion, s', hfound, isOnion_of_validateOnion hvalid, hset, rfl⟩

/-- A publication at most gives its account an address that frees no contact. -/
theorem publishBundle_places (username : Option String) (body : PreKeyBundlePublish)
    (now : DateTime) :
    ((publishBundle R username body now n).state.users = n.users ∨
      ∃ name onion, (publishBundle R username body now n).state.users =
          n.users.map (User.renamed name onion) ∧
        ∀ u ∈ n.users, u.username = name → u.onionAddress ≠ some onion →
          ∀ q ∈ n.places, some q.2.ownerOnion ≠ u.onionAddress) ∧
      (publishBundle R username body now n).state.places = n.places := by
  rcases publishBundle_cases (R := R) username body now n with
    ⟨e, hrun⟩ | ⟨user, onion, n', -, -, hset, hrun⟩ <;> rw [hrun]
  · exact ⟨.inl rfl, rfl⟩
  rcases bootstrap?_eq_some hset with rfl | ⟨-, hset⟩
  · exact ⟨.inl rfl, rfl⟩
  · obtain ⟨rfl, hfree⟩ := setAddress?_eq_some hset
    refine ⟨.inr ⟨user.username, onion, rfl, ?_⟩, rfl⟩
    rintro u hu hname haddress ⟨id, p⟩ hq
    obtain ⟨c, hc, rfl⟩ := mem_places.mp hq
    exact hfree u hu hname haddress (id, c) (Dict.mem_entries_iff.mpr hc)

/-- All that an event can make of accounts, places and what is noted. -/
inductive Moves (R : Runtime) (t t' : Tracked) : Event → Prop
  | stay {event} (husers : t'.node.users = t.node.users) (hplaces : t'.node.places = t.node.places)
      (hadded : t'.added = t.added) : Moves R t t' event
  | add {caller body} (request : AddContactRequest) (user : User)
      (hread : AddContactRequest.read R body = some request)
      (huser : t.node.sessionUser? caller = some user)
      (hinsertable : Insertable t.node user caller.activeProfileId request.onionAddress)
      (husers : t'.node.users = t.node.users)
      (hplaces : t'.node.places = t.node.places ++
        [(t.node.nextId, ⟨user.owner, request.onionAddress, caller.activeProfileId⟩)])
      (hadded : t'.added = t.added.insert t.node.nextId ⟨caller, request.onionAddress⟩) :
      Moves R t t' (.add caller body)
  | handshake {body} (p : Place) (husers : t'.node.users = t.node.users)
      (hplaces : t'.node.places = t.node.places ++ [(t.node.nextId, p)])
      (hadded : t'.added = t.added) : Moves R t t' (.handshake body)
  | remove {caller contactId} (id : ℕ) (husers : t'.node.users = t.node.users)
      (hplaces : t'.node.places = t.node.places.filter fun q => q.1 ≠ id)
      (hadded : t'.added = t.added.erase id) : Moves R t t' (.remove caller contactId)
  | publish {username body now} (name onion : String)
      (hfree : ∀ u ∈ t.node.users, u.username = name → u.onionAddress ≠ some onion →
        ∀ q ∈ t.node.places, some q.2.ownerOnion ≠ u.onionAddress)
      (husers : t'.node.users = t.node.users.map (User.renamed name onion))
      (hplaces : t'.node.places = t.node.places)
      (hadded : t'.added = t.added) : Moves R t t' (.publish username body now)

theorem tracked_of_ok {α : Type} {handle : Handler α} {t : Tracked} {a : α} {n' : Node}
    (h : handle t.node = .ok a n') (note : α → Dict ℕ Added → Dict ℕ Added) :
    (tracked handle note t).state = ⟨n', note a t.added⟩ := by
  unfold tracked
  rw [h]
  rfl

theorem tracked_of_error {α : Type} {handle : Handler α} {t : Tracked} {e : Failure}
    (h : handle t.node = .error e t.node) (note : α → Dict ℕ Added → Dict ℕ Added) :
    (tracked handle note t).state = t := by
  unfold tracked
  rw [h]
  rfl

/-- A request that is not noted. -/
theorem tracked_state {α : Type} (handle : Handler α) (t : Tracked) :
    (tracked handle (fun _ added => added) t).state = ⟨(handle t.node).state, t.added⟩ := by
  unfold tracked
  rcases handle t.node with ⟨a, n⟩ | ⟨e, n⟩ <;> rfl

theorem act_add {t : Tracked} {caller : Caller} {body : Json} {request : AddContactRequest}
    {user : User} (hread : AddContactRequest.read R body = some request)
    (huser : t.node.sessionUser? caller = some user)
    (h : Insertable t.node user caller.activeProfileId request.onionAddress) :
    ∃ n', (act R (.add caller body) t).state =
        ⟨n', t.added.insert t.node.nextId ⟨caller, request.onionAddress⟩⟩ ∧
      n'.users = t.node.users ∧ n'.places = t.node.places ++
        [(t.node.nextId, ⟨user.owner, request.onionAddress, caller.activeProfileId⟩)] := by
  obtain ⟨c, n', hrun, hplace, hcontacts, husers⟩ := addContact_of_insertable huser h
  have hadd : addGiven R caller body t.node = .ok (t.node.nextId, request.onionAddress) n' := by
    unfold addGiven
    rw [hread, EStateM.apply_bind]
    dsimp only [parsed, EStateM.apply_pure]
    rw [EStateM.apply_bind, hrun]
    rfl
  unfold act
  rw [tracked_of_ok hadd]
  refine ⟨n', rfl, husers, ?_⟩
  rw [places_insert_nextId hcontacts, hplace]

theorem act_moves (event : Event) (t : Tracked) : Moves R t (act R event t).state event := by
  rcases event with ⟨caller, body⟩ | caller | ⟨caller, contactId⟩ | ⟨username, body, now⟩ | body |
    body | ⟨body, uuid⟩ | body
  case add =>
    rcases hread : AddContactRequest.read R body with _ | request
    · have hrefused : addGiven R caller body t.node = .error .validation t.node := by
        unfold addGiven
        rw [hread]
        rfl
      unfold act
      rw [tracked_of_error hrefused]
      exact .stay rfl rfl rfl
    -- an entry is made only for a user who is signed in and has room for it
    by_cases hadds : ∃ user, t.node.sessionUser? caller = some user ∧
        Insertable t.node user caller.activeProfileId request.onionAddress
    · obtain ⟨user, huser, h⟩ := hadds
      obtain ⟨n', hstate, husers, hplaces⟩ := act_add hread huser h
      rw [hstate]
      exact .add request user hread huser h husers hplaces rfl
    · obtain ⟨e, hrun⟩ := addContact_refused fun user huser h => hadds ⟨user, huser, h⟩
      have hrefused : addGiven R caller body t.node = .error e t.node := by
        unfold addGiven
        rw [hread, EStateM.apply_bind]
        dsimp only [parsed, EStateM.apply_pure]
        rw [EStateM.apply_bind, hrun]
      unfold act
      rw [tracked_of_error hrefused]
      exact .stay rfl rfl rfl
  case list =>
    have hstate : (listContacts caller t.node).state = t.node := by
      unfold listContacts
      rw [EStateM.apply_bind]
      rcases getCurrentUser_cases t.node caller with ⟨e, hrun⟩ | ⟨user, -, hrun⟩
      · rw [hrun]
        rfl
      · rw [hrun]
        rfl
    unfold act
    rw [tracked_state, hstate]
    exact .stay rfl rfl rfl
  case remove =>
    rcases removeContact_cases t.node caller contactId with
      ⟨e, hrun⟩ | ⟨id, n', hrun, hid, hcontacts, -, husers⟩
    · unfold act
      rw [tracked_of_error hrun]
      exact .stay rfl rfl rfl
    · obtain rfl := hid
      unfold act
      rw [tracked_of_ok hrun]
      exact .remove id husers (places_erase hcontacts) rfl
  case publish =>
    obtain ⟨husers, hplaces⟩ := publishBundle_places (n := t.node) (R := R) username body now
    unfold act
    rw [tracked_state]
    rcases husers with husers | ⟨name, onion, husers, hfree⟩
    · exact .stay husers hplaces rfl
    · exact .publish name onion hfree husers hplaces rfl
  case handshake =>
    unfold act Request.run
    rw [tracked_state, state_parsed]
    rcases HandshakeRequest.read R body with _ | request
    · exact .stay rfl rfl rfl
    obtain ⟨husers, hplaces | ⟨p, hplaces⟩⟩ := p2pHandshake_places (n := t.node) (R := R) request
    · exact .stay husers hplaces rfl
    · exact .handshake p husers hplaces rfl
  case accept =>
    unfold act Request.run
    rw [tracked_state, state_parsed]
    rcases AcceptRequest.read R body with _ | request
    · exact .stay rfl rfl rfl
    dsimp only
    rcases p2pAccept_cases (R := R) t.node request with
      ⟨e, hrun⟩ | ⟨onion, user, id, c, n', hrun, -, -, hfound, hcontacts, -, husers⟩ <;> rw [hrun]
    · exact .stay rfl rfl rfl
    · -- the contact that is accepted keeps its place
      have hold := Dict.mem_entries_iff.mp (contact?_eq_some hfound).1
      exact .stay husers (places_insert hcontacts hold rfl) rfl
  case message =>
    unfold act Request.run
    rw [tracked_state, state_parsed]
    rcases P2PMessageRequest.read R body with _ | request
    · exact .stay rfl rfl rfl
    dsimp only
    rcases p2pMessage_cases (R := R) t.node request uuid with
      ⟨e, hrun, -⟩ | ⟨_, _, n', hrun, -, -, hcontacts, husers⟩ <;> rw [hrun]
    · exact .stay rfl rfl rfl
    · exact .stay husers (places_congr hcontacts) rfl
  case delete =>
    unfold act Request.run
    rw [tracked_state, state_parsed]
    rcases P2PDeleteRequest.read R body with _ | request
    · exact .stay rfl rfl rfl
    dsimp only
    rcases p2pDelete_cases (R := R) t.node request with
      ⟨e, hrun⟩ | ⟨n', hrun, -, hcontacts, husers⟩ <;> rw [hrun]
    · exact .stay rfl rfl rfl
    · exact .stay husers (places_congr hcontacts) rfl

/-! ## Runs -/

/-- A contact that has just been added is reachable exactly when it was `Addressed`. -/
theorem located_iff_addressed {caller : Caller} {user : User} {onion : String}
    (huser : n.sessionUser? caller = some user) (husers : n'.users = n.users)
    (hplaces : n'.places = n.places ++ [(n.nextId, ⟨user.owner, onion, caller.activeProfileId⟩)]) :
    Located R n' n.nextId ⟨caller, onion⟩ ↔ Addressed R n user onion := by
  have huser' := huser
  rw [← sessionUser?_congr husers] at huser'
  have hnew : ∀ q ∈ n.places, q.1 ≠ n.nextId := fun q hq => ne_nextId_of_mem_places hq
  constructor
  · rintro ⟨⟨found, p, hfound, hp, howner, -, -⟩, hmatched⟩
    obtain rfl := Option.some.inj (huser'.symm.trans hfound)
    -- the new row is the only one with its id
    have howned : some user.owner = user.onionAddress := by
      rw [hplaces] at hp
      rcases List.mem_append.mp hp with hold | hlast
      · exact absurd rfl (hnew _ hold)
      · obtain ⟨-, rfl⟩ := Prod.mk.inj (List.mem_singleton.mp hlast)
        exact howner
    refine ⟨?_, ?_⟩
    · rcases htruthy : truthy user.onionAddress with _ | address
      · have hlocal : user.owner = user.username ++ ".local.onion" := by
          rw [User.owner, htruthy]
          rfl
        have hne : user.owner ≠ "" := by
          rw [hlocal]
          simp
        rw [← howned, truthy_of_ne hne] at htruthy
        cases htruthy
      · rfl
    · intro peer hpeer
      obtain ⟨first, hfirst, hat⟩ := hmatched peer hpeer
      rw [hplaces, firstAt_append_new_iff hnew] at hat
      obtain ⟨hnone, hsame, rfl⟩ := hat
      rw [husers] at hfirst
      rw [hfirst, ← howned, hsame]
      refine ⟨rfl, rfl, ?_⟩
      rw [← contact?_map_fst] at hnone
      exact Option.map_eq_none_iff.mp hnone
  · rintro ⟨hconfigured, hplain⟩
    obtain ⟨address, haddress⟩ := Option.isSome_iff_exists.mp hconfigured
    have howned : some user.owner = user.onionAddress := by
      rw [User.owner, haddress, Option.getD_some, (Option.filter_eq_some_iff.mp haddress).1]
    refine ⟨⟨user, ⟨user.owner, onion, caller.activeProfileId⟩, huser', ?_, howned, .inl rfl, rfl⟩,
      ?_⟩
    · rw [hplaces]
      exact List.mem_append_right _ (List.mem_singleton.mpr rfl)
    · intro peer hpeer
      obtain ⟨rfl, hhead, hfree⟩ := hplain peer hpeer
      obtain ⟨first, hfirst, hsame⟩ := Option.map_eq_some_iff.mp hhead
      refine ⟨first, by rw [husers, hfirst], ?_⟩
      rw [hplaces, firstAt_append_new_iff hnew, hsame, ← contact?_map_fst, hfree]
      exact ⟨rfl, howned, rfl⟩

/-- What was added and not removed is located. -/
def AllLocated (R : Runtime) (t : Tracked) : Prop :=
  ∀ id a, t.added.get? id = some a → Located R t.node id a

theorem allLocated_act {event : Event} {t : Tracked} (h : AllLocated R t)
    (hadded : WellAdded R event t) : AllLocated R (act R event t).state := by
  intro id a ha
  rcases act_moves (R := R) event t with ⟨husers, hplaces, hsame⟩ |
    ⟨request, user, hread, huser, hinsertable, husers, hplaces, hnoted⟩ |
    ⟨p, husers, hplaces, hsame⟩ | ⟨id', husers, hplaces, hnoted⟩ |
    ⟨name, onion, hfree, husers, hplaces, hsame⟩
  case stay =>
    rw [hsame] at ha
    exact (h id a ha).append [] husers (by rw [hplaces, List.append_nil])
  case add =>
    rw [hnoted, Dict.get?_insert] at ha
    split_ifs at ha with hid
    · obtain rfl := hid
      obtain rfl := Option.some.inj ha
      exact (located_iff_addressed huser husers hplaces).mpr
        (hadded request hread user huser hinsertable)
    · exact (h id a ha).append _ husers hplaces
  case handshake =>
    rw [hsame] at ha
    exact (h id a ha).append _ husers hplaces
  case remove =>
    rw [hnoted, Dict.get?_erase] at ha
    split_ifs at ha with hid
    exact (h id a ha).drop hid husers hplaces
  case publish =>
    rw [hsame] at ha
    exact (h id a ha).rename hfree husers hplaces

end

/-- After every part of the run each contact that was added and not removed is reachable. -/
def KeepsReachable (R : Runtime) (events : List Event) (n : Node) : Prop :=
  ∀ done todo, events = done ++ todo →
    ∀ id a, (after (act R) done ⟨n, .empty⟩).added.get? id = some a →
      Reachable R (after (act R) done ⟨n, .empty⟩).node id a

/-- Contacts stay reachable exactly when each one that is added is `Addressed`. -/
theorem keepsReachable_iff (R : Runtime) (events : List Event) (n : Node) :
    KeepsReachable R events n ↔ AllMeet (act R) (WellAdded R) events ⟨n, .empty⟩ := by
  constructor
  · rw [EStateM.allMeet_iff]
    rintro hkeeps done event todo rfl
    rcases event with ⟨caller, body⟩ | _ | _ | _ | _ | _ | _ | _ <;> try exact trivial
    intro request hread user huser hinsertable
    obtain ⟨n', hstate, husers, hplaces⟩ := act_add hread huser hinsertable
    have hreachable := hkeeps (done ++ [.add caller body]) todo (by simp)
    rw [EStateM.after_append, EStateM.after_cons, EStateM.after_nil, hstate] at hreachable
    have hlast := hreachable _ _ (by rw [Dict.get?_insert, if_pos rfl])
    exact (located_iff_addressed huser husers hplaces).mp (reachable_iff_located.mp hlast)
  · rintro hmeet done todo rfl id a ha
    have hdone := (EStateM.allMeet_append _ |>.mp hmeet).1
    have hlocated : AllLocated R (after (act R) done ⟨n, .empty⟩) :=
      hdone.invariant (fun _ _ => allLocated_act) (by rintro _ _ ⟨⟩)
    exact reachable_iff_located.mpr (hlocated id a ha)

/-! ## An address with a capital letter -/

def capitalOnion : String := "Aaaaaaaaaaaaaaaa.onion"

def capitalAdded : List Event :=
  [.add ⟨some "alice", "default"⟩ (.obj [("onion_address", .str capitalOnion)])]

/-- The contact is stored as it was written, and its peer is looked up in small letters. -/
theorem capital_not_reachable : ¬ KeepsReachable asciiRuntime capitalAdded freshNode := by
  intro h
  have hadded : (after (act asciiRuntime) capitalAdded ⟨freshNode, .empty⟩).added.get? 1 =
      some ⟨⟨some "alice", "default"⟩, capitalOnion⟩ := by decide +kernel
  have hvalid : validateOnion asciiRuntime capitalOnion = .ok "aaaaaaaaaaaaaaaa.onion" := by
    decide +kernel
  have hnone : ((after (act asciiRuntime) capitalAdded ⟨freshNode, .empty⟩).node.peerContact?
      asciiRuntime capitalOnion).map Prod.fst = none := by decide +kernel
  have hmatched := (h capitalAdded [] (by simp) 1 _ hadded).matched _ _ hvalid hvalid
  rw [hnone] at hmatched
  cases hmatched

end AnonyMus.P2p
