import AnonyMus.P2p.Consent

/-!
# P2P node — the keys of accepted contacts

Once a contact is accepted, its public key is what the user talks to. Two
requests that anyone can send write it: `p2p_handshake`, which also makes the
contact pending again, and `p2p_accept`. Neither looks at the status or the key
it overwrites, except that a blocked contact is refused a handshake.

* `Pinned` — an accepted contact stays accepted, with its key, until the local
  user removes it;
* `contact_run` — what a request makes of a contact;
* `pinned_iff` — contacts are pinned in a run exactly when no handshake finds an
  accepted contact, and no acceptance finds one with another key.
-/

namespace AnonyMus.P2p

open EStateM

section

variable (R : Runtime)

/-- The contact that a handshake is about. -/
def greeted (body : Json) (s : Node) : Option (ℕ × Contact) := do
  let request ← HandshakeRequest.read R body
  let onion ← (validateOnion R request.onionAddress).toOption
  let user ← s.users.head?
  s.contact? user.onionAddress onion

/-- An accepted contact keeps its key and its status through every part of the run in which the
local user does not remove it. -/
def Pinned (ks : List Request) (s : Node) : Prop :=
  ∀ done part todo, ks = done ++ part ++ todo → ∀ (id : ℕ) (c : Contact),
    (∀ caller, .removeContact caller id ∉ part) →
    (after (Request.run R) done s).contacts.get? id = some c → c.status = .accepted →
      ∃ c', (after (Request.run R) (done ++ part) s).contacts.get? id = some c' ∧
        c'.publicKeyB64 = c.publicKeyB64 ∧ c'.status = .accepted

/-- The request finds no accepted contact to greet, and none to accept under another key. -/
def Spares : Request → Node → Prop
  | .handshake body, s => ∀ found ∈ greeted R body s, found.2.status ≠ .accepted
  | .accept body, s => ∀ request ∈ AcceptRequest.read R body, ∀ found ∈ answered R body s,
    found.2.status = .accepted → found.2.publicKeyB64 = some request.publicKey
  | _, _ => True

end

/-! ## One request -/

variable {R : Runtime} {s : Node} {k : Request} {id : ℕ} {c : Contact}

theorem greeted_mem {body : Json} (h : greeted R body s = some (id, c)) :
    s.contacts.get? id = some c := by
  unfold greeted at h
  simp only [Option.bind_eq_bind, Option.bind_eq_some_iff] at h
  obtain ⟨request, -, onion, -, user, -, hfound⟩ := h
  exact Dict.mem_entries_iff.mp (contact?_eq_some hfound).1

/-- What a handshake makes of the contacts: it leaves them, adds one, or rewrites the one it is
about. -/
theorem contacts_handshake (body : Json) :
    let s' := (Request.run R (.handshake body) s).state
    s'.contacts = s.contacts ∨ ∃ id c', s'.contacts = s.contacts.insert id c' ∧
      (id = s.nextId ∨ ∃ existing, greeted R body s = some (id, existing)) := by
  rw [Request.run, state_parsed]
  rcases hread : HandshakeRequest.read R body with _ | request
  · exact .inl rfl
  dsimp only
  rcases p2pHandshake_cases (R := R) s request with
    ⟨e, hrun⟩ | ⟨onion, user, id, c', s', hrun, honion, huser, -, hid, hcontacts, -, -⟩ <;> rw [hrun]
  · exact .inl rfl
  · refine .inr ⟨id, c', hcontacts, hid.imp_right ?_⟩
    rintro ⟨existing, hfound, -⟩
    exact ⟨existing, by simp [greeted, hread, honion, huser, hfound, Except.toOption]⟩

/-- What an acceptance makes of the contacts: it leaves them, or gives the one it is about the key
it carries. -/
theorem contacts_accept (body : Json) :
    let s' := (Request.run R (.accept body) s).state
    s'.contacts = s.contacts ∨ ∃ request id found, AcceptRequest.read R body = some request ∧
      answered R body s = some (id, found) ∧ s'.contacts = s.contacts.insert id { found with
        publicKeyB64 := some request.publicKey, status := .accepted } := by
  rw [Request.run, state_parsed]
  rcases hread : AcceptRequest.read R body with _ | request
  · exact .inl rfl
  dsimp only
  rcases p2pAccept_cases (R := R) s request with
    ⟨e, hrun⟩ | ⟨onion, user, id, found, s', hrun, honion, huser, hfound, hcontacts, -, -⟩
    <;> rw [hrun]
  · exact .inl rfl
  · refine .inr ⟨request, id, found, rfl, ?_, hcontacts⟩
    simp [answered, hread, honion, huser, hfound, Except.toOption]

/-- A handshake makes an accepted contact pending. -/
theorem run_handshake {body : Json} (h : greeted R body s = some (id, c))
    (haccepted : c.status = .accepted) :
    ∃ c', c'.status = .pendingIncoming ∧
      (Request.run R (.handshake body) s).state.contacts = s.contacts.insert id c' := by
  unfold greeted at h
  simp only [Option.bind_eq_bind, Option.bind_eq_some_iff] at h
  obtain ⟨request, hread, onion, honion, user, huser, hfound⟩ := h
  rw [Request.run, state_parsed, hread]
  dsimp only
  unfold p2pHandshake
  rw [apply_bind, apply_ofExcept]
  rcases hvalid : validateOnion R request.onionAddress with e | onion'
  · rw [hvalid] at honion
    cases honion
  rw [hvalid] at honion
  obtain rfl := Option.some.inj honion
  dsimp only
  rw [apply_bind, localUser_apply, huser]
  dsimp only
  rw [apply_bind, apply_get]
  dsimp only
  rw [hfound]
  dsimp only
  rw [if_neg (by rw [haccepted]; decide)]
  exact ⟨_, rfl, rfl⟩

/-- An accepted contact that the request spares and the user does not remove. -/
theorem pinned_step (hk : Spares R k s) (hkeep : ∀ caller, k ≠ .removeContact caller id)
    (hc : s.contacts.get? id = some c) (haccepted : c.status = .accepted) :
    ∃ c', (k.run R s).state.contacts.get? id = some c' ∧ c'.publicKeyB64 = c.publicKeyB64 ∧
      c'.status = .accepted := by
  -- most requests leave the contact, or write another one
  have hsame : (k.run R s).state.contacts = s.contacts →
      ∃ c', (k.run R s).state.contacts.get? id = some c' ∧ c'.publicKeyB64 = c.publicKeyB64 ∧
        c'.status = .accepted := by
    intro h
    exact ⟨c, by rw [h, hc], rfl, haccepted⟩
  have hother : ∀ id' c', id' ≠ id → (k.run R s).state.contacts = s.contacts.insert id' c' →
      ∃ c', (k.run R s).state.contacts.get? id = some c' ∧ c'.publicKeyB64 = c.publicKeyB64 ∧
        c'.status = .accepted := by
    intro id' c' hne h
    exact ⟨c, by rw [h, Dict.get?_insert, if_neg hne.symm, hc], rfl, haccepted⟩
  have hnew : s.nextId ≠ id := by
    rintro rfl
    rw [get?_nextId] at hc
    cases hc
  have hchange := (run_change (R := R) k s).1
  rcases k with body | body | ⟨body, uuid⟩ | body | ⟨caller, body⟩ | ⟨caller, contactId⟩ |
    ⟨caller, body⟩ | ⟨caller, body, uuid, sentAt, timestamp⟩ |
    ⟨scan, caller, peerOnion, limit, before, cursor⟩ | ⟨caller, messageId⟩
  case handshake =>
    rcases contacts_handshake (R := R) (s := s) body with h | ⟨id', c', h, rfl | ⟨found, hfound⟩⟩
    · exact hsame h
    · exact hother _ c' hnew h
    · refine hother id' c' ?_ h
      rintro rfl
      obtain rfl := Option.some.inj ((greeted_mem hfound).symm.trans hc)
      exact hk _ hfound haccepted
  case accept =>
    rcases contacts_accept (R := R) (s := s) body with h | ⟨request, id', found, hread, hfound, h⟩
    · exact hsame h
    · by_cases hid : id' = id
      · subst hid
        obtain rfl := Option.some.inj ((answered_mem hfound).symm.trans hc)
        exact ⟨_, by rw [h, Dict.get?_insert, if_pos rfl],
          (hk request hread _ hfound haccepted).symm, rfl⟩
      · exact hother id' _ hid h
  case addContact =>
    cases hchange with
    | none _ h _ => exact hsame h
    | add _ h _ => exact hother _ _ hnew h
    | file _ h _ => exact hsame h
    | mark _ h _ => exact hsame h
  case removeContact =>
    rcases removeContact_cases s caller contactId with ⟨e, hrun⟩ | ⟨id', s', hrun, hid, h, -⟩
    · exact hsame (by rw [Request.run, hrun]; rfl)
    · have hne : id ≠ id' := by
        rintro rfl
        exact hkeep caller (by rw [hid])
      refine ⟨c, ?_, rfl, haccepted⟩
      rw [Request.run, hrun, Result.state_ok, h, Dict.get?_erase, if_neg hne, hc]
  case acceptContact =>
    rcases hread : LegacyAcceptContactRequest.read R body with _ | request
    · exact hsame (by rw [Request.run, apply_bind, hread]; rfl)
    have hrun : (Request.run R (.acceptContact caller body) s).state =
        (legacyAcceptContact R caller request s).state := by
      rw [Request.run, apply_bind, hread]
      rfl
    rcases legacyAcceptContact_cases (R := R) s caller request with
      ⟨e, hfail⟩ | ⟨id', c', s', hok, hstatus, h, ⟨found, hfound, hkey⟩, -⟩
    · exact hsame (by rw [hrun, hfail]; rfl)
    · rw [hok, Result.state_ok] at hrun
      by_cases hid : id' = id
      · -- the user accepts the contact once more
        subst hid
        obtain rfl := Option.some.inj ((Dict.mem_entries_iff.mp hfound).symm.trans hc)
        exact ⟨c', by rw [hrun, h, Dict.get?_insert, if_pos rfl], hkey, hstatus⟩
      · exact hother id' c' hid (by rw [hrun, h])
  case message | delete | sendMessage | messageHistory | deleteMessage =>
    cases hchange with
    | none _ h _ => exact hsame h
    | file _ h _ => exact hsame h
    | mark _ h _ => exact hsame h

/-! ## Runs -/

theorem pinned_after {ks : List Request} (hmeet : AllMeet (Request.run R) (Spares R) ks s)
    (hkeep : ∀ caller, .removeContact caller id ∉ ks) (hc : s.contacts.get? id = some c)
    (haccepted : c.status = .accepted) :
    ∃ c', (after (Request.run R) ks s).contacts.get? id = some c' ∧
      c'.publicKeyB64 = c.publicKeyB64 ∧ c'.status = .accepted := by
  induction ks generalizing s c with
  | nil => exact ⟨c, hc, rfl, haccepted⟩
  | cons k ks ih =>
    obtain ⟨c₁, hc₁, hkey₁, haccepted₁⟩ := pinned_step hmeet.1
      (fun caller h => hkeep caller (h ▸ List.mem_cons_self)) hc haccepted
    obtain ⟨c₂, hc₂, hkey₂, haccepted₂⟩ := ih hmeet.2
      (fun caller h => hkeep caller (List.mem_cons_of_mem k h)) hc₁ haccepted₁
    exact ⟨c₂, hc₂, hkey₂.trans hkey₁, haccepted₂⟩

/-- Accepted contacts are pinned in a run exactly when no handshake in it finds an accepted
contact, and no acceptance finds one with another key. -/
theorem pinned_iff (R : Runtime) (ks : List Request) (s : Node) :
    Pinned R ks s ↔ AllMeet (Request.run R) (Spares R) ks s := by
  constructor
  · intro hpinned
    rw [allMeet_iff]
    rintro done (body | body | _ | _ | _ | _ | _ | _ | _ | _) todo hks
    case handshake =>
      rintro ⟨id, c⟩ hfound haccepted
      -- the handshake would demote the contact
      obtain ⟨c₁, hpending, hcontacts⟩ := run_handshake hfound haccepted
      obtain ⟨c', hc', -, hstatus⟩ := hpinned done [.handshake body] todo (by rw [hks]; simp) id c
        (by simp) (greeted_mem hfound) haccepted
      rw [after_append, after_cons, after_nil, hcontacts, Dict.get?_insert, if_pos rfl] at hc'
      obtain rfl := Option.some.inj hc'
      cases hpending.symm.trans hstatus
    case accept =>
      rintro request hread ⟨id, c⟩ hfound haccepted
      -- the acceptance writes its key
      obtain ⟨request', c₁, hread', hkey, -, hcontacts⟩ := run_accept hfound
      obtain rfl := Option.some.inj (hread.symm.trans hread')
      obtain ⟨c', hc', hkept, -⟩ := hpinned done [.accept body] todo (by rw [hks]; simp) id c
        (by simp) (answered_mem hfound) haccepted
      rw [after_append, after_cons, after_nil, hcontacts, Dict.get?_insert, if_pos rfl] at hc'
      obtain rfl := Option.some.inj hc'
      exact hkept.symm.trans hkey
    all_goals exact trivial
  · rintro hmeet done part todo rfl id c hkeep hc haccepted
    have hpart := (allMeet_append _ |>.mp (allMeet_append _ |>.mp hmeet).1).2
    rw [after_append]
    exact pinned_after hpart hkeep hc haccepted

/-! ## A contact that is taken over -/

/-- A node whose only contact is accepted, with a key. -/
def keyedNode : Node where
  users    := [⟨"alice", some "bbbbbbbbbbbbbbbb.onion"⟩]
  profiles := ["default"]
  contacts := Dict.empty.insert 1 ⟨"bbbbbbbbbbbbbbbb.onion", strangerOnion, none, some "key", none,
    .accepted, true, "default", none, true, none⟩
  messages := .empty
  bundles  := .empty
  notices  := []
  tasks    := []

/-- Anyone can replace the key of an accepted contact, and it stays accepted and verified. -/
theorem key_replaced :
    ¬ Pinned asciiRuntime
      [.accept (.obj [("onion_address", .str strangerOnion), ("public_key", .str "other key")])]
      keyedNode := by
  intro hpinned
  obtain ⟨c', hc', hkey, -⟩ := hpinned [] _ [] (List.append_nil _).symm 1 _ (by simp)
    (show keyedNode.contacts.get? 1 = some _ from rfl) rfl
  have hother : (after (Request.run asciiRuntime) [.accept (.obj [("onion_address",
      .str strangerOnion), ("public_key", .str "other key")])] keyedNode).contacts.get? 1 |>.any
        fun c => c.publicKeyB64 = some "other key" := by
    decide +kernel
  rw [List.nil_append] at hc'
  rw [hc', Option.any_some, decide_eq_true_eq, hkey] at hother
  exact absurd hother (by decide)

end AnonyMus.P2p
