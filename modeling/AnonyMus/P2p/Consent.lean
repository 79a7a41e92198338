import Mathlib.Data.Set.Defs
import AnonyMus.P2p.Requests

/-!
# P2P node — contact consent

A contact may become accepted when the local user has added it or accepted it.
`p2p_accept` does not look at the status of the contact it finds, so a peer
whose request is pending, or who is blocked, can accept itself.

* `consent` — the contacts that the local user has added or accepted;
* `ConsentKept` — no contact is accepted without it, and blocked stays blocked;
* `consentKept_iff` — this is so exactly when every acceptance that arrives is
  about a contact that is neither pending nor blocked.
-/

namespace AnonyMus.P2p

open EStateM

/-! ## Consent -/

/-- The status that a request of the local user gives to the contact it is about. -/
def Request.grants : Request → Option Status
  | .addContact _ _ => some .pendingOutgoing
  | .acceptContact _ _ => some .accepted
  | _ => none

/-- The local user has asked for the contact, or it is accepted. -/
def Willing (status : Status) : Prop := status = .pendingOutgoing ∨ status = .accepted

/-- The contacts a node is willing to talk to. -/
def willing (s : Node) : Set ℕ :=
  { id | ∃ c, s.contacts.get? id = some c ∧ Willing c.status }

section

variable (R : Runtime)

/-- Consent after one more request: it lasts as long as the contact, and a new status that the
local user gives counts. -/
def consentStep (k : Request) (s : Node) (ids : Set ℕ) : Set ℕ :=
  { id | ∃ c, (k.run R s).state.contacts.get? id = some c ∧
    (id ∈ ids ∨ k.grants = some c.status ∧ s.contacts.get? id ≠ some c) }

/-- The contacts that the local user has added or accepted and not removed. -/
def consent : List Request → Node → Set ℕ → Set ℕ
  | [], _, ids => ids
  | k :: ks, s, ids => consent ks (k.run R s).state (consentStep R k s ids)

/-- Consent governs the contacts throughout the run `ks` from `s`. -/
structure ConsentKept (ks : List Request) (s : Node) : Prop where
  /-- An accepted contact was added or accepted by the local user. -/
  consented : ∀ done todo, ks = done ++ todo → ∀ id c,
    (after (Request.run R) done s).contacts.get? id = some c → c.status = .accepted →
      id ∈ consent R done s (willing s)
  /-- An acceptance from outside does not make a pending or blocked contact accepted. -/
  unanswered : ∀ done body todo, ks = done ++ .accept body :: todo → ∀ id c c',
    (after (Request.run R) done s).contacts.get? id = some c →
    c.status = .pendingIncoming ∨ c.status = .blocked →
    (after (Request.run R) (done ++ [.accept body]) s).contacts.get? id = some c' →
      c'.status ≠ .accepted
  /-- A blocked contact stays blocked whatever remote nodes ask. -/
  blocked : ∀ done remote todo, ks = done ++ remote ++ todo → (∀ k ∈ remote, k.isRemote = true) →
    ∀ id c, (after (Request.run R) done s).contacts.get? id = some c → c.status = .blocked →
      ∃ c', (after (Request.run R) (done ++ remote) s).contacts.get? id = some c' ∧
        c'.status = .blocked

/-- An acceptance is about a contact that is neither pending nor blocked. -/
def Solicited : Request → Node → Prop
  | .accept body, s =>
    ∀ found ∈ answered R body s, found.2.status ≠ .pendingIncoming ∧ found.2.status ≠ .blocked
  | _, _ => True

end

/-! ## One request -/

variable {R : Runtime} {s : Node} {k : Request} {ids : Set ℕ}

theorem answered_mem {body : Json} {id : ℕ} {c : Contact}
    (h : answered R body s = some (id, c)) : s.contacts.get? id = some c := by
  unfold answered at h
  simp only [Option.bind_eq_bind, Option.bind_eq_some_iff] at h
  obtain ⟨request, -, onion, -, user, -, hfound⟩ := h
  exact Dict.mem_entries_iff.mp (contact?_eq_some hfound).1

/-- An acceptance that finds a contact makes it accepted, with the key it carries. -/
theorem run_accept {body : Json} {id : ℕ} {c : Contact} (h : answered R body s = some (id, c)) :
    ∃ request c', AcceptRequest.read R body = some request ∧
      c'.publicKeyB64 = some request.publicKey ∧ c'.status = .accepted ∧
      (Request.run R (.accept body) s).state.contacts = s.contacts.insert id c' := by
  unfold answered at h
  simp only [Option.bind_eq_bind, Option.bind_eq_some_iff] at h
  obtain ⟨request, hread, onion, honion, user, huser, hfound⟩ := h
  rw [Request.run, state_parsed, hread]
  dsimp only
  unfold p2pAccept
  rw [apply_bind, apply_ofExcept]
  rcases hvalid : validateOnion R request.onionAddress with e | onion'
  · rw [hvalid] at honion
    cases honion
  rw [hvalid] at honion
  obtain rfl := Option.some.inj honion
  dsimp only
  rw [apply_bind, localUser_apply, huser]
  dsimp only
  rw [apply_bind, apply_get]
  dsimp only
  rw [hfound]
  exact ⟨request, _, rfl, rfl, rfl, rfl⟩

/-- Consent covers every contact the node is willing to talk to. -/
theorem consentStep_covers (hids : willing s ⊆ ids) (hk : Solicited R k s) :
    willing (k.run R s).state ⊆ consentStep R k s ids := by
  rintro id ⟨c, hc, hwilling⟩
  refine ⟨c, hc, ?_⟩
  -- a contact that the request does not touch
  have hold : s.contacts.get? id = some c → id ∈ ids := fun h => hids ⟨c, h, hwilling⟩
  rcases (run_change (R := R) k s).1 with ⟨_, hcontacts, -⟩ | ⟨hpending, -, hcontacts, -⟩ |
    ⟨hfound, -, hcontacts, -⟩ | ⟨hpending, hcontacts, -⟩ | ⟨gone, hcontacts, -⟩ |
    ⟨haccepted, hcontacts, -⟩ | ⟨-, hcontacts, -⟩ | ⟨-, hcontacts, -⟩ <;>
    rw [hcontacts] at hc
  case none => exact .inl (hold hc)
  case pend =>
    rw [Dict.get?_insert] at hc
    split_ifs at hc with hid
    · obtain rfl := Option.some.inj hc
      rcases hwilling with h | h <;> exact absurd (hpending.symm.trans h) (by decide)
    · exact .inl (hold hc)
  case answer found c' =>
    rw [Dict.get?_insert] at hc
    split_ifs at hc with hid
    · -- the contact was there, and the node was willing
      obtain ⟨hnotIncoming, hnotBlocked⟩ := hk _ hfound
      refine .inl (hids ⟨found, hid ▸ answered_mem hfound, ?_⟩)
      rcases hstatus : found.status with _ | _ | _ | _
      · exact absurd hstatus hnotIncoming
      · exact .inl rfl
      · exact .inr rfl
      · exact absurd hstatus hnotBlocked
    · exact .inl (hold hc)
  case add =>
    rw [Dict.get?_insert] at hc
    split_ifs at hc with hid
    · obtain rfl := Option.some.inj hc
      refine .inr ⟨congrArg some hpending.symm, ?_⟩
      rw [hid, get?_nextId]
      exact (Option.some_ne_none _).symm
    · exact .inl (hold hc)
  case remove =>
    rw [Dict.get?_erase] at hc
    split_ifs at hc with hid
    exact .inl (hold hc)
  case confirm given =>
    rw [Dict.get?_insert] at hc
    split_ifs at hc with hid
    · obtain rfl := Option.some.inj hc
      by_cases hsame : s.contacts.get? id = some given
      · exact .inl (hold hsame)
      · exact .inr ⟨congrArg some haccepted.symm, hsame⟩
    · exact .inl (hold hc)
  case file => exact .inl (hold hc)
  case mark => exact .inl (hold hc)

/-- No request of a remote node changes a blocked contact. -/
theorem blocked_step (hremote : k.isRemote = true) (hk : Solicited R k s) {id : ℕ} {c : Contact}
    (hc : s.contacts.get? id = some c) (hblocked : c.status = .blocked) :
    (k.run R s).state.contacts.get? id = some c := by
  rcases (run_change (R := R) k s).1 with ⟨_, hcontacts, -⟩ | ⟨-, hid, hcontacts, -⟩ |
    ⟨hfound, -, hcontacts, -⟩ | _ | _ | _ | ⟨-, hcontacts, -⟩ | ⟨-, hcontacts, -⟩
  case none => rwa [hcontacts]
  case pend id' _ =>
    rw [hcontacts, Dict.get?_insert, if_neg, hc]
    rintro rfl
    -- neither a new contact nor one that was found blocked
    rcases hid with rfl | ⟨existing, hexisting, hnot⟩
    · rw [get?_nextId] at hc
      cases hc
    · rw [Dict.mem_entries_iff, hc] at hexisting
      obtain rfl := Option.some.inj hexisting
      exact hnot hblocked
  case answer id' found _ =>
    rw [hcontacts, Dict.get?_insert, if_neg, hc]
    rintro rfl
    rw [answered_mem hfound] at hc
    obtain rfl := Option.some.inj hc
    exact (hk _ hfound).2 hblocked
  case add => cases hremote
  case remove => cases hremote
  case confirm => cases hremote
  case file => rwa [hcontacts]
  case mark => rwa [hcontacts]

/-- A contact that waits for the local user is not accepted from outside. -/
theorem unanswered_step {body : Json} (hk : Solicited R (.accept body) s) {id : ℕ} {c c' : Contact}
    (hc : s.contacts.get? id = some c)
    (hstatus : c.status = .pendingIncoming ∨ c.status = .blocked)
    (hc' : (Request.run R (.accept body) s).state.contacts.get? id = some c') :
    c'.status ≠ .accepted := by
  have hunchanged : (Request.run R (.accept body) s).state.contacts.get? id = some c := by
    cases (run_change (R := R) (.accept body) s).1 with
    | none _ hcontacts _ => rwa [hcontacts]
    | answer hfound _ hcontacts _ =>
      rw [hcontacts, Dict.get?_insert, if_neg, hc]
      rintro rfl
      -- the contact that was found is neither pending nor blocked
      rw [answered_mem hfound] at hc
      obtain rfl := Option.some.inj hc
      rcases hstatus with h | h
      · exact (hk _ hfound).1 h
      · exact (hk _ hfound).2 h
    | file _ hcontacts _ => rwa [hcontacts]
    | mark _ hcontacts _ => rwa [hcontacts]
  rw [hunchanged] at hc'
  obtain rfl := Option.some.inj hc'
  rcases hstatus with h | h <;> rw [h] <;> decide

/-! ## Runs -/

theorem consent_covers {ks : List Request} {s : Node} {ids : Set ℕ} (hids : willing s ⊆ ids)
    (hmeet : AllMeet (Request.run R) (Solicited R) ks s) :
    willing (after (Request.run R) ks s) ⊆ consent R ks s ids := by
  induction ks generalizing s ids with
  | nil => exact hids
  | cons k ks ih => exact ih (consentStep_covers hids hmeet.1) hmeet.2

theorem blocked_after {ks : List Request} {s : Node}
    (hremote : ∀ k ∈ ks, k.isRemote = true) (hmeet : AllMeet (Request.run R) (Solicited R) ks s)
    {id : ℕ} {c : Contact} (hc : s.contacts.get? id = some c) (hblocked : c.status = .blocked) :
    (after (Request.run R) ks s).contacts.get? id = some c := by
  induction ks generalizing s with
  | nil => exact hc
  | cons k ks ih =>
    refine ih (fun k' hk' => hremote k' (List.mem_cons_of_mem _ hk')) hmeet.2 ?_
    exact blocked_step (hremote k List.mem_cons_self) hmeet.1 hc hblocked

/-- Consent governs the contacts in a run exactly when no peer whose request is pending, or who
is blocked, sends an acceptance. -/
theorem consentKept_iff (R : Runtime) (ks : List Request) (s : Node) :
    ConsentKept R ks s ↔ AllMeet (Request.run R) (Solicited R) ks s := by
  constructor
  · intro hkept
    rw [allMeet_iff]
    rintro done (_ | body | _ | _ | _ | _ | _ | _ | _ | _) todo hks
    case accept =>
      rintro ⟨id, c⟩ hfound
      -- the contact found becomes accepted, so it was neither pending nor blocked
      obtain ⟨-, c', -, -, haccepted, hcontacts⟩ := run_accept hfound
      have hc' : (after (Request.run R) (done ++ [.accept body]) s).contacts.get? id = some c' := by
        rw [after_append, after_cons, after_nil, hcontacts, Dict.get?_insert, if_pos rfl]
      have hnot := fun h =>
        hkept.unanswered done body todo hks id c c' (answered_mem hfound) h hc' haccepted
      exact ⟨fun h => hnot (.inl h), fun h => hnot (.inr h)⟩
    all_goals exact trivial
  · intro hmeet
    refine ⟨?_, ?_, ?_⟩
    · rintro done todo rfl id c hc haccepted
      exact consent_covers subset_rfl (allMeet_append _ |>.mp hmeet).1 ⟨c, hc, .inr haccepted⟩
    · rintro done body todo hks id c c' hc hstatus hc'
      rw [after_append] at hc'
      exact unanswered_step ((allMeet_iff _ |>.mp hmeet) done _ todo hks) hc hstatus hc'
    · rintro done remote todo rfl hremote id c hc hblocked
      have hsegment := (allMeet_append _ |>.mp (allMeet_append _ |>.mp hmeet).1).2
      refine ⟨c, ?_, hblocked⟩
      rw [after_append]
      exact blocked_after hremote hsegment hc hblocked

/-! ## A peer that accepts itself -/

def strangerOnion : String := "aaaaaaaaaaaaaaaa.onion"

/-- A node that has just been set up. -/
def freshNode : Node where
  users    := [⟨"alice", some "bbbbbbbbbbbbbbbb.onion"⟩]
  profiles := ["default"]
  contacts := .empty
  messages := .empty
  bundles  := .empty
  notices  := []
  tasks    := []

def selfAcceptance : List Request :=
  [.handshake (.obj [("onion_address", .str strangerOnion), ("nickname", .str "mallory"),
    ("public_key", .str "k")]),
   .accept (.obj [("onion_address", .str strangerOnion), ("public_key", .str "k")])]

/-- A stranger who sends a handshake and then an acceptance is accepted, unasked. -/
theorem stranger_accepts_itself : ¬ ConsentKept asciiRuntime selfAcceptance freshNode := by
  intro hkept
  have haccepted : ∃ c, (after (Request.run asciiRuntime) selfAcceptance freshNode).contacts.get? 1 =
      some c ∧ c.status = .accepted := by
    refine ⟨⟨"bbbbbbbbbbbbbbbb.onion", strangerOnion, some "mallory", some "k", none, .accepted,
      false, "default", none, true, none⟩, ?_, rfl⟩
    decide +kernel
  obtain ⟨c, hc, hstatus⟩ := haccepted
  -- neither request is the local user's
  obtain ⟨_, -, ⟨_, -, ⟨_, hempty, -⟩ | ⟨hgrants, -⟩⟩ | ⟨hgrants, -⟩⟩ :=
    hkept.consented selfAcceptance [] rfl 1 c hc hstatus
  · cases hempty
  · cases hgrants
  · cases hgrants

end AnonyMus.P2p
