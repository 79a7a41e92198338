import AnonyMus.P2p.Isolation

/-!
# P2P node — hidden profiles

While the default profile is active, what the user reads should not depend on
what a hidden profile holds: its contacts, and the messages between these and
their owners. The list of contacts is of the active profile only, but a message
does not say to which profile it belongs, and neither endpoint for messages
looks it up among the contacts.

* `SameVisible` — two databases differ only in rows of the hidden profile;
* `Noninterfering` — the answers are then the same;
* `Settled` — two addresses have a message that is visible, so none of theirs is
  hidden;
* `Request.Guarded` — a request cannot reach a conversation that may be hidden;
* `noninterfering_iff` — requests do not depend on the hidden profile exactly
  when each of them is guarded.
-/

namespace AnonyMus.P2p.HiddenProfile

open EStateM Isolation
open Relay (strip)

/-! ## Databases -/

/-- The references that SQLite checks. -/
structure ForeignKeys (n : Node) : Prop where
  owned    : ∀ e ∈ n.contacts.entries, ∃ u ∈ n.users, u.onionAddress = some e.2.ownerOnion
  profiled : ∀ e ∈ n.contacts.entries, e.2.profileId ∈ n.profiles

/-- A message from one of the addresses to the other. -/
def Between (a b : String) (row : Row) : Prop :=
  (row.2.senderOnion = a ∧ row.2.recipientOnion = b) ∨
    (row.2.senderOnion = b ∧ row.2.recipientOnion = a)

instance (a b : String) (row : Row) : Decidable (Between a b row) :=
  inferInstanceAs (Decidable (_ ∨ _))

/-- A message between a contact of the profile and its owner. -/
def IsHidden (hidden : String) (n : Node) (row : Row) : Prop :=
  ∃ e ∈ n.contacts.entries, e.2.profileId = hidden ∧ Between e.2.ownerOnion e.2.onionAddress row

instance (hidden : String) (n : Node) (row : Row) : Decidable (IsHidden hidden n row) :=
  inferInstanceAs (Decidable (∃ e ∈ n.contacts.entries, _))

/-- The messages that are not of the profile. -/
def visible (hidden : String) (n : Node) : List Row :=
  n.messages.entries.filter fun row => ¬ IsHidden hidden n row

/-- The databases differ only in rows of the profile. -/
structure SameVisible (hidden : String) (n n' : Node) : Prop where
  contacts : n'.contacts.entries.filter (fun e => e.2.profileId ≠ hidden) =
    n.contacts.entries.filter fun e => e.2.profileId ≠ hidden
  messages : visible hidden n' = visible hidden n
  rest     : n' = { n with contacts := n'.contacts, messages := n'.messages }

/-! ## Requests -/

/-- A request while the default profile is active. -/
inductive Request
  | listContacts
  | messageHistory (peerOnion : String) (limit : ℤ) (before cursor : Option String)
  | legacyGetMessages (onionAddress : Option String)

def Request.read : Request → Read
  | listContacts => .listContacts "default"
  | messageHistory peerOnion limit before cursor => .messageHistory peerOnion limit before cursor
  | legacyGetMessages onionAddress => .legacyGetMessages onionAddress

section

variable (R : Runtime) (scan : Scan) (timestamp : DateTime → ℤ) (username : String) (user : User)
  (hidden : String)

/-- In every database that differs from `n` in rows of the profile only, the answers are the
same. -/
def Noninterfering (requests : List Request) (n : Node) : Prop :=
  ∀ n', ForeignKeys n' → SameVisible hidden n n' →
    answers R scan timestamp username (requests.map Request.read) n' =
      answers R scan timestamp username (requests.map Request.read) n

/-- The addresses have a visible message; so neither is a hidden contact of the other. -/
def Settled (n : Node) (a b : String) : Prop := ∃ row ∈ visible hidden n, Between a b row

/-- No message can have been sent before this time. -/
def Earliest (d : DateTime) : Prop := ∀ d' : DateTime, ¬ d' < d

/-- The page of a settled conversation, or one that is below all messages; a `before` that names no
visible message is harmless if the conversation has nothing to show. -/
def GuardedHistory (n : Node) (onion peerOnion : String) (before cursor : Option String) : Prop :=
  match truthy cursor, truthy before with
  | some cursor, _ =>
    Settled hidden n onion peerOnion ∨ ∀ stamp ∈ decodeCursor R cursor, Earliest stamp.wall
  | none, some id =>
    Settled hidden n onion peerOnion ∧
        (∀ row ∈ n.messages.entries, inConversation (some onion) peerOnion row = false) ∨
      ∃ m, n.messages.get? id = some m ∧ ¬ IsHidden hidden n (id, m) ∧
        (Settled hidden n onion peerOnion ∨ Earliest m.sentAt)
  | none, none => Settled hidden n onion peerOnion

/-- The request does not reach a conversation that may be hidden: it asks for the contacts, it is
refused, or all conversations that it looks at are settled. -/
def Request.Guarded (n : Node) : Request → Prop
  | listContacts => True
  | messageHistory peerOnion limit before cursor =>
    1 ≤ limit ∧ limit ≤ 200 → ∀ onion ∈ user.onionAddress,
      GuardedHistory R hidden n onion peerOnion before cursor
  | legacyGetMessages onionAddress =>
    ∀ peerOnion ∈ truthy onionAddress, ∀ v ∈ n.users, ∀ onion ∈ v.onionAddress,
      onion ≠ R.lower (strip peerOnion) ∧ Settled hidden n onion (R.lower (strip peerOnion))

end

/-! ## What is visible -/

section

variable {hidden a b : String} {n n' : Node} {row row' : Row}

/-- Two messages between the same addresses are between the same others. -/
theorem Between.congr {c d : String} (h : Between a b row) (h' : Between a b row')
    (hcd : Between c d row) : Between c d row' := by
  obtain ⟨rfl, rfl⟩ | ⟨rfl, rfl⟩ := h
  · rcases h' with ⟨hs, hr⟩ | ⟨hs, hr⟩
    · rwa [Between, hs, hr]
    · rw [Between, hs, hr]
      exact hcd.symm.imp And.symm And.symm
  · rcases h' with ⟨hs, hr⟩ | ⟨hs, hr⟩
    · rw [Between, hs, hr]
      exact hcd.symm.imp And.symm And.symm
    · rwa [Between, hs, hr]

theorem mem_visible :
    row ∈ visible hidden n ↔ row ∈ n.messages.entries ∧ ¬ IsHidden hidden n row := by
  simp only [visible, List.mem_filter, decide_eq_true_eq]

/-- No message of a settled conversation is hidden. -/
theorem Settled.not_isHidden (h : Settled hidden n a b) (hrow : Between a b row) :
    ¬ IsHidden hidden n row := by
  obtain ⟨row₀, hrow₀, hbetween⟩ := h
  rintro ⟨e, he, hprofile, hof⟩
  exact (mem_visible.mp hrow₀).2 ⟨e, he, hprofile, hrow.congr hbetween hof⟩

theorem SameVisible.settled (h : SameVisible hidden n n') :
    Settled hidden n' a b ↔ Settled hidden n a b := by
  unfold Settled
  rw [h.messages]

/-- What is chosen among visible rows is chosen from what is visible. -/
theorem filter_visible {p : Row → Bool}
    (hp : ∀ row ∈ n.messages.entries, p row = true → ¬ IsHidden hidden n row) :
    n.messages.entries.filter p = (visible hidden n).filter p := by
  rw [visible, List.filter_filter]
  refine List.filter_congr fun row hrow => ?_
  rcases hrowp : p row with _ | _
  · simp
  · simp [hp row hrow hrowp]

theorem SameVisible.filter (h : SameVisible hidden n n') {p : Row → Bool}
    (hp : ∀ row ∈ n.messages.entries, p row = true → ¬ IsHidden hidden n row)
    (hp' : ∀ row ∈ n'.messages.entries, p row = true → ¬ IsHidden hidden n' row) :
    n'.messages.entries.filter p = n.messages.entries.filter p := by
  rw [filter_visible hp, filter_visible hp', h.messages]

theorem SameVisible.users (h : SameVisible hidden n n') : n'.users = n.users := by
  rw [h.rest]

theorem SameVisible.signedIn {username : String} {user : User} (h : SameVisible hidden n n')
    (hsigned : SignedIn username user n) : SignedIn username user n' := by
  refine ⟨hsigned.name, ?_⟩
  unfold Node.user?
  rw [h.users]
  exact hsigned.found

/-- A visible message is there in both. -/
theorem SameVisible.get? (h : SameVisible hidden n n') {id : String} {m : Message}
    (hm : n.messages.get? id = some m) (hvisible : ¬ IsHidden hidden n (id, m)) :
    n'.messages.get? id = some m := by
  have hmem : (id, m) ∈ visible hidden n :=
    mem_visible.mpr ⟨Dict.mem_entries_iff.mpr hm, hvisible⟩
  rw [← h.messages] at hmem
  exact Dict.mem_entries_iff.mp (mem_visible.mp hmem).1

/-- A message of the conversation is between the user and the peer. -/
theorem between_of_inConversation {onion peerOnion : String}
    (h : inConversation (some onion) peerOnion row = true) : Between onion peerOnion row := by
  obtain ⟨-, ⟨hsender, hrecipient⟩ | ⟨hsender, hrecipient⟩⟩ := of_decide_eq_true h
  · exact .inl ⟨Option.some.inj hsender, hrecipient⟩
  · exact .inr ⟨hsender, Option.some.inj hrecipient⟩

end

/-! ## Guarded requests -/

section

variable {R : Runtime} {scan : Scan} {timestamp : DateTime → ℤ} {username : String} {user : User}
  {hidden : String} {n n' : Node} {peerOnion : String} {limit : ℤ} {before cursor : Option String}

/-- A cursor that cannot be decoded is refused, whatever the database holds. -/
theorem cursorSentAt_cases (R : Runtime) (n n' : Node) (before cursor : Option String) :
    (∃ e, cursorSentAt R n before cursor = .error e ∧ cursorSentAt R n' before cursor = .error e) ∨
      ∃ below below', cursorSentAt R n before cursor = .ok below ∧
        cursorSentAt R n' before cursor = .ok below' := by
  unfold cursorSentAt
  rcases truthy cursor with _ | token
  · rcases truthy before with _ | id
    · exact .inr ⟨_, _, rfl, rfl⟩
    · exact .inr ⟨_, _, rfl, rfl⟩
  · dsimp only
    rcases decodeCursor R token with _ | stamp
    · exact .inl ⟨_, rfl, rfl⟩
    · exact .inr ⟨_, _, rfl, rfl⟩

/-- The answer to a request for a page below a given time. -/
theorem history_answer (hsigned : SignedIn username user n) (hlimit : 1 ≤ limit ∧ limit ≤ 200)
    {below : Option DateTime} (hcursor : cursorSentAt R n before cursor = .ok below) :
    ((Read.messageHistory peerOnion limit before cursor).run R scan timestamp username
        n).toExcept =
      let page := historyPage (scan.visit n.messages.entries) user.onionAddress peerOnion
        limit.toNat below
      .ok (.history page (page.getLast?.map fun oldest =>
        encodeCursor oldest.2.sentAt oldest.1)) := by
  rw [run_messageHistory hsigned peerOnion hlimit, hcursor]
  rfl

/-- Two answers to a request for a page are the same, if the pages are. -/
theorem history_congr (hsigned : SignedIn username user n) (hsigned' : SignedIn username user n')
    (hlimit : 1 ≤ limit ∧ limit ≤ 200) {below below' : Option DateTime}
    (hcursor : cursorSentAt R n before cursor = .ok below)
    (hcursor' : cursorSentAt R n' before cursor = .ok below')
    (hpage : historyPage (scan.visit n'.messages.entries) user.onionAddress peerOnion limit.toNat
        below' =
      historyPage (scan.visit n.messages.entries) user.onionAddress peerOnion limit.toNat below) :
    ((Read.messageHistory peerOnion limit before cursor).run R scan timestamp username
        n').toExcept =
      ((Read.messageHistory peerOnion limit before cursor).run R scan timestamp username
        n).toExcept := by
  rw [history_answer hsigned hlimit hcursor, history_answer hsigned' hlimit hcursor', hpage]

/-- A page of a settled conversation. -/
theorem historyPage_settled {onion : String} (h : SameVisible hidden n n')
    (hsettled : Settled hidden n onion peerOnion) (limit : ℕ) (below : Option DateTime) :
    historyPage (scan.visit n'.messages.entries) (some onion) peerOnion limit below =
      historyPage (scan.visit n.messages.entries) (some onion) peerOnion limit below := by
  have hbetween : ∀ row : Row, (inConversation (some onion) peerOnion row &&
      below.all fun sentAt => row.2.sentAt < sentAt) = true → Between onion peerOnion row :=
    fun row hrow => between_of_inConversation (Bool.and_eq_true_iff.mp hrow).1
  unfold historyPage
  rw [scan.filter, scan.filter, h.filter]
  · exact fun row _ hrow => hsettled.not_isHidden (hbetween row hrow)
  · exact fun row _ hrow => (h.settled.mpr hsettled).not_isHidden (hbetween row hrow)

/-- There is nothing below the earliest time. -/
theorem historyPage_earliest {d : DateTime} (hd : Earliest d) (limit : ℕ) :
    historyPage (scan.visit n.messages.entries) user.onionAddress peerOnion limit (some d) = [] :=
  historyPage_eq_nil fun row _ _ => ⟨d, rfl, hd row.2.sentAt⟩

/-- The request for a page gets the same answer in both databases. -/
theorem history_of_guarded {onion : String} (hsigned : SignedIn username user n)
    (honion : user.onionAddress = some onion) (h : SameVisible hidden n n')
    (hlimit : 1 ≤ limit ∧ limit ≤ 200)
    (hguarded : GuardedHistory R hidden n onion peerOnion before cursor) :
    ((Read.messageHistory peerOnion limit before cursor).run R scan timestamp username
        n').toExcept =
      ((Read.messageHistory peerOnion limit before cursor).run R scan timestamp username
        n).toExcept := by
  have hsigned' := h.signedIn hsigned
  unfold GuardedHistory at hguarded
  rcases hcursor : truthy cursor with _ | token
  · rcases hbefore : truthy before with _ | id
    · -- the first page
      rw [hcursor, hbefore] at hguarded
      have hstart : ∀ s : Node, cursorSentAt R s before cursor = .ok none := by
        intro s
        simp only [cursorSentAt, hcursor, hbefore]
      refine history_congr hsigned hsigned' hlimit (hstart n) (hstart n') ?_
      rw [honion]
      exact historyPage_settled h hguarded _ _
    · rw [hcursor, hbefore] at hguarded
      have hstart : ∀ s : Node, cursorSentAt R s before cursor =
          .ok ((s.messages.get? id).map Message.sentAt) := by
        intro s
        simp only [cursorSentAt, hcursor, hbefore]
      refine history_congr hsigned hsigned' hlimit (hstart n) (hstart n') ?_
      rcases hguarded with ⟨hsettled, hempty⟩ | ⟨m, hm, hvisible, hpage⟩
      · -- wherever the page starts, it is empty
        rw [honion, historyPage_settled h hsettled]
        have hnil : ∀ below, historyPage (scan.visit n.messages.entries) user.onionAddress peerOnion
            limit.toNat below = [] := by
          intro below
          refine historyPage_eq_nil fun row hrow hconversation => ?_
          rw [honion, hempty row hrow] at hconversation
          cases hconversation
        rw [← honion, hnil, hnil]
      · rw [hm, h.get? hm hvisible, Option.map_some]
        rcases hpage with hsettled | hearliest
        · rw [honion]
          exact historyPage_settled h hsettled _ _
        · rw [historyPage_earliest hearliest, historyPage_earliest hearliest]
  · rw [hcursor] at hguarded
    rcases hdecode : decodeCursor R token with _ | stamp
    · have hrefused : ∀ s : Node, cursorSentAt R s before cursor =
          .error (.http 400 "Invalid cursor token") := by
        intro s
        simp only [cursorSentAt, hcursor, hdecode]
      rw [run_messageHistory hsigned peerOnion hlimit, run_messageHistory hsigned' peerOnion hlimit,
        hrefused, hrefused]
      rfl
    · have hstart : ∀ s : Node, cursorSentAt R s before cursor = .ok (some stamp.wall) := by
        intro s
        simp only [cursorSentAt, hcursor, hdecode]
      refine history_congr hsigned hsigned' hlimit (hstart n) (hstart n') ?_
      rcases hguarded with hsettled | hearliest
      · rw [honion]
        exact historyPage_settled h hsettled _ _
      · have hstamp := hearliest stamp hdecode
        rw [historyPage_earliest hstamp, historyPage_earliest hstamp]

/-- A user without an address has no conversations. -/
theorem history_of_none (hsigned : SignedIn username user n) (honion : user.onionAddress = none)
    (h : SameVisible hidden n n') (hlimit : 1 ≤ limit ∧ limit ≤ 200) :
    ((Read.messageHistory peerOnion limit before cursor).run R scan timestamp username
        n').toExcept =
      ((Read.messageHistory peerOnion limit before cursor).run R scan timestamp username
        n).toExcept := by
  have hsigned' := h.signedIn hsigned
  have hnil : ∀ (s : Node) (below : Option DateTime),
      historyPage (scan.visit s.messages.entries) user.onionAddress peerOnion limit.toNat below =
        [] := by
    intro s below
    refine historyPage_eq_nil fun row _ hconversation => ?_
    rw [honion] at hconversation
    simp [inConversation] at hconversation
  rcases cursorSentAt_cases R n n' before cursor with ⟨e, he, he'⟩ | ⟨below, below', hok, hok'⟩
  · rw [run_messageHistory hsigned peerOnion hlimit, run_messageHistory hsigned' peerOnion hlimit,
      he, he']
    rfl
  · exact history_congr hsigned hsigned' hlimit hok hok' (by rw [hnil, hnil])

/-- A contact of the profile has an owner whose conversations are all settled: there is none. -/
theorem legacy_not_isHidden {peer : String} (hkeys : ForeignKeys n)
    (hguarded : ∀ v ∈ n.users, ∀ onion ∈ v.onionAddress, onion ≠ peer ∧ Settled hidden n onion peer)
    {row : Row} (hrow : row.2.senderOnion = peer ∨ row.2.recipientOnion = peer) :
    ¬ IsHidden hidden n row := by
  rintro ⟨e, he, hprofile, hbetween⟩
  obtain ⟨v, hv, howner⟩ := hkeys.owned e he
  obtain ⟨hne, hsettled⟩ := hguarded v hv e.2.ownerOnion howner
  -- the peer is the contact, as it is not the owner
  have hpeer : e.2.onionAddress = peer := by
    rcases hbetween with ⟨hsender, hrecipient⟩ | ⟨hsender, hrecipient⟩
    · exact hrecipient.symm.trans (hrow.resolve_left fun h => hne (hsender.symm.trans h))
    · exact hsender.symm.trans (hrow.resolve_right fun h => hne (hrecipient.symm.trans h))
  rw [hpeer] at hbetween
  refine hsettled.not_isHidden hbetween ⟨e, he, hprofile, ?_⟩
  rw [hpeer]
  exact hbetween

/-- A guarded request gets the same answer in both databases. -/
theorem run_of_guarded (hkeys : ForeignKeys n) (hsigned : SignedIn username user n)
    (hdefault : hidden ≠ "default") (hkeys' : ForeignKeys n') (h : SameVisible hidden n n')
    {k : Request} (hguarded : k.Guarded R user hidden n) :
    (k.read.run R scan timestamp username n').toExcept =
      (k.read.run R scan timestamp username n).toExcept := by
  have hsigned' := h.signedIn hsigned
  rcases k with _ | ⟨peerOnion, limit, before, cursor⟩ | onionAddress
  case listContacts =>
    rw [Request.read, run_listContacts hsigned, run_listContacts hsigned',
      filter_of_view (fun row hrow => ?_) h.contacts]
    · rfl
    · -- what is listed is of the default profile
      have hprofile := (of_decide_eq_true hrow).2
      rw [hprofile]
      exact decide_eq_true hdefault.symm
  case messageHistory =>
    rw [Request.read]
    by_cases hlimit : 1 ≤ limit ∧ limit ≤ 200
    · rcases honion : user.onionAddress with _ | onion
      · exact history_of_none hsigned honion h hlimit
      · exact history_of_guarded hsigned honion h hlimit (hguarded hlimit onion honion)
    · rw [run_messageHistory_refused peerOnion hlimit, run_messageHistory_refused peerOnion hlimit]
      rfl
  case legacyGetMessages =>
    rw [Request.read, run_legacyGetMessages hsigned, run_legacyGetMessages hsigned']
    rcases hpeer : truthy onionAddress with _ | peerOnion
    · rfl
    have hguarded := hguarded peerOnion hpeer
    have hguarded' : ∀ v ∈ n'.users, ∀ onion ∈ v.onionAddress, onion ≠ R.lower (strip peerOnion) ∧
        Settled hidden n' onion (R.lower (strip peerOnion)) := by
      intro v hv onion honion
      rw [h.users] at hv
      exact (hguarded v hv onion honion).imp_right h.settled.mpr
    dsimp only
    rw [scan.filter, scan.filter, h.filter]
    · rfl
    · exact fun row _ hrow => legacy_not_isHidden hkeys hguarded (of_decide_eq_true hrow)
    · exact fun row _ hrow => legacy_not_isHidden hkeys' hguarded' (of_decide_eq_true hrow)

end

/-! ## Databases that differ -/

/-- The database without the rows of the profile. -/
def bare (hidden : String) (n : Node) : Node :=
  { n with
    contacts := n.contacts.filter fun e => e.2.profileId ≠ hidden
    messages := n.messages.filter fun row => ¬ IsHidden hidden n row }

def hiddenContact (hidden a b : String) : Contact where
  ownerOnion      := a
  onionAddress    := b
  nickname        := none
  publicKeyB64    := none
  sharedSecretB64 := none
  status          := .accepted
  verified        := false
  profileId       := hidden

/-- One contact of the profile, with one message. -/
def planted (hidden : String) (n : Node) (a b id : String) (m : Message) : Node :=
  ((bare hidden n).setContact (bare hidden n).nextId (hiddenContact hidden a b)).setMessage id m

section

variable {hidden a b id : String} {m : Message} {n : Node} {row : Row}

theorem ForeignKeys.bare (h : ForeignKeys n) (hidden : String) : ForeignKeys (bare hidden n) where
  owned e he    := h.owned e (List.mem_of_mem_filter he)
  profiled e he := h.profiled e (List.mem_of_mem_filter he)

theorem not_isHidden_bare : ¬ IsHidden hidden (bare hidden n) row := by
  rintro ⟨e, he, hprofile, -⟩
  exact of_decide_eq_true (List.mem_filter.mp he).2 hprofile

theorem visible_bare : visible hidden (bare hidden n) = visible hidden n := by
  refine List.filter_eq_self.mpr fun row _ => ?_
  exact decide_eq_true not_isHidden_bare

theorem sameVisible_bare : SameVisible hidden n (bare hidden n) where
  contacts := by
    refine (List.filter_filter ..).trans (List.filter_congr fun e _ => ?_)
    exact Bool.and_self _
  messages := visible_bare
  rest     := rfl

theorem get?_bare (hnew : n.messages.get? id = none) : (bare hidden n).messages.get? id = none := by
  rw [Option.eq_none_iff_forall_ne_some]
  intro m hm
  exact absurd (hnew.symm.trans (Dict.get?_filter.mp hm).1) (Option.some_ne_none m).symm

theorem contacts_planted : (planted hidden n a b id m).contacts.entries =
    (bare hidden n).contacts.entries ++
      [((bare hidden n).nextId, hiddenContact hidden a b)] :=
  Dict.entries_insert_of_new get?_nextId

theorem messages_planted (hnew : (bare hidden n).messages.get? id = none) :
    (planted hidden n a b id m).messages.entries = visible hidden n ++ [(id, m)] :=
  Dict.entries_insert_of_new hnew

/-- The profile has this contact only. -/
theorem isHidden_planted : IsHidden hidden (planted hidden n a b id m) row ↔ Between a b row := by
  unfold IsHidden
  rw [contacts_planted]
  constructor
  · rintro ⟨e, he, hprofile, hbetween⟩
    rcases List.mem_append.mp he with he | he
    · exact absurd hprofile (of_decide_eq_true (List.mem_filter.mp he).2)
    · obtain rfl := List.mem_singleton.mp he
      exact hbetween
  · intro hbetween
    exact ⟨_, List.mem_append_right _ (List.mem_singleton_self _), rfl, hbetween⟩

theorem ForeignKeys.planted (h : ForeignKeys n) (howner : ∃ u ∈ n.users, u.onionAddress = some a)
    (hprofile : hidden ∈ n.profiles) : ForeignKeys (planted hidden n a b id m) where
  owned := by
    intro e he
    rw [contacts_planted] at he
    rcases List.mem_append.mp he with he | he
    · exact (h.bare hidden).owned e he
    · obtain rfl := List.mem_singleton.mp he
      exact howner
  profiled := by
    intro e he
    rw [contacts_planted] at he
    rcases List.mem_append.mp he with he | he
    · exact (h.bare hidden).profiled e he
    · obtain rfl := List.mem_singleton.mp he
      exact hprofile

/-- The message is hidden, and no other one becomes so. -/
theorem sameVisible_planted (hnew : (bare hidden n).messages.get? id = none)
    (hbetween : Between a b (id, m)) (hnot : ¬ Settled hidden n a b) :
    SameVisible hidden n (planted hidden n a b id m) where
  contacts := by
    rw [contacts_planted, List.filter_append, List.filter_cons_of_neg (by simp [hiddenContact]),
      List.filter_nil, List.append_nil]
    exact sameVisible_bare.contacts
  messages := by
    have hkept : ∀ row ∈ visible hidden n,
        decide (¬ IsHidden hidden (planted hidden n a b id m) row) = true := by
      intro row hrow
      refine decide_eq_true fun hhidden => hnot ⟨row, hrow, ?_⟩
      exact isHidden_planted.mp hhidden
    have hgone : decide (¬ IsHidden hidden (planted hidden n a b id m) (id, m)) = false :=
      decide_eq_false (not_not_intro (isHidden_planted.mpr hbetween))
    rw [visible, messages_planted hnew, List.filter_append, List.filter_eq_self.mpr hkept,
      List.filter_cons_of_neg (by simp [hgone]), List.filter_nil, List.append_nil]
  rest := rfl

/-- An address that has no messages. -/
theorem exists_unsettled (hidden : String) (n : Node) (a : String) (avoid : Finset String) :
    ∃ b, b ∉ avoid ∧ ¬ Settled hidden n a b := by
  obtain ⟨b, hb⟩ := Infinite.exists_notMem_finset (avoid ∪
    ((n.messages.entries.map fun row => row.2.senderOnion) ++
      n.messages.entries.map fun row => row.2.recipientOnion).toFinset)
  rw [Finset.mem_union, not_or, List.mem_toFinset, List.mem_append, not_or] at hb
  obtain ⟨havoid, hsender, hrecipient⟩ := hb
  refine ⟨b, havoid, ?_⟩
  rintro ⟨row, hrow, ⟨-, hto⟩ | ⟨hfrom, -⟩⟩
  · exact hrecipient (List.mem_map.mpr ⟨row, (mem_visible.mp hrow).1, hto⟩)
  · exact hsender (List.mem_map.mpr ⟨row, (mem_visible.mp hrow).1, hfrom⟩)

/-- A message id that is not in use. -/
theorem exists_fresh_ne (n : Node) (other : String) :
    ∃ id, id ≠ other ∧ n.messages.get? id = none := by
  obtain ⟨id, hid⟩ := Infinite.exists_notMem_finset (insert other n.messages.keys.toFinset)
  rw [Finset.mem_insert, not_or, List.mem_toFinset] at hid
  exact ⟨id, hid.1, Dict.get?_eq_none_iff_notMem_keys.mpr hid.2⟩

end

/-! ## Requests that reach a hidden conversation -/

section

variable {R : Runtime} {scan : Scan} {timestamp : DateTime → ℤ} {username onion : String}
  {user : User} {hidden : String} {n : Node} {peerOnion : String} {limit : ℤ}
  {before cursor : Option String}

/-- The answers that some database changes. -/
def Exposes (R : Runtime) (scan : Scan) (timestamp : DateTime → ℤ) (username hidden : String)
    (n : Node) (k : Request) : Prop :=
  ∃ n', ForeignKeys n' ∧ SameVisible hidden n n' ∧
    (k.read.run R scan timestamp username n').toExcept ≠
      (k.read.run R scan timestamp username n).toExcept

/-- Of two different answers, one is not the answer that is given. -/
theorem Exposes.of_ne {k : Request} {n₁ n₂ : Node} (hkeys₁ : ForeignKeys n₁)
    (h₁ : SameVisible hidden n n₁) (hkeys₂ : ForeignKeys n₂) (h₂ : SameVisible hidden n n₂)
    (hne : (k.read.run R scan timestamp username n₁).toExcept ≠
      (k.read.run R scan timestamp username n₂).toExcept) :
    Exposes R scan timestamp username hidden n k := by
  by_cases hsame : (k.read.run R scan timestamp username n₁).toExcept =
      (k.read.run R scan timestamp username n).toExcept
  · refine ⟨n₂, hkeys₂, h₂, fun h => ?_⟩
    exact hne (hsame.trans h.symm)
  · exact ⟨n₁, hkeys₁, h₁, hsame⟩

/-- Pages that differ are different answers. -/
theorem history_ne {n₁ n₂ : Node} (hsigned₁ : SignedIn username user n₁)
    (hsigned₂ : SignedIn username user n₂) (hlimit : 1 ≤ limit ∧ limit ≤ 200)
    {below₁ below₂ : Option DateTime} (hcursor₁ : cursorSentAt R n₁ before cursor = .ok below₁)
    (hcursor₂ : cursorSentAt R n₂ before cursor = .ok below₂)
    (hpage : historyPage (scan.visit n₁.messages.entries) user.onionAddress peerOnion limit.toNat
        below₁ ≠
      historyPage (scan.visit n₂.messages.entries) user.onionAddress peerOnion limit.toNat below₂) :
    ((Read.messageHistory peerOnion limit before cursor).run R scan timestamp username
        n₁).toExcept ≠
      ((Read.messageHistory peerOnion limit before cursor).run R scan timestamp username
        n₂).toExcept := by
  rw [history_answer hsigned₁ hlimit hcursor₁, history_answer hsigned₂ hlimit hcursor₂]
  intro h
  exact hpage (Answer.history.inj (Except.ok.inj h)).1

theorem exists_before_none : ∃ sentAt : DateTime, ∀ d ∈ (none : Option DateTime), sentAt < d :=
  ⟨⟨1, 1, 1, 0, 0, 0, 0, by decide, by decide⟩, fun d hd => absurd hd (Option.not_mem_none d)⟩

theorem exists_before_some {d d' : DateTime} (hlt : d' < d) :
    ∃ sentAt : DateTime, ∀ d₁ ∈ some d, sentAt < d₁ := by
  refine ⟨d', fun d₁ hd => ?_⟩
  rwa [← Option.some.inj hd]

/-- A conversation that is not settled may be one with a hidden contact, and have a message that is
sent before the page starts. -/
theorem exposes_unsettled (hkeys : ForeignKeys n) (hsigned : SignedIn username user n)
    (hprofile : hidden ∈ n.profiles) (honion : user.onionAddress = some onion)
    (hlimit : 1 ≤ limit ∧ limit ≤ 200) (hnot : ¬ Settled hidden n onion peerOnion)
    {below : Option DateTime} (hbelow : ∃ sentAt : DateTime, ∀ d ∈ below, sentAt < d)
    (hcursor : ∀ s : Node, (∀ id, before = some id →
      s.messages.get? id = (bare hidden n).messages.get? id) →
        cursorSentAt R s before cursor = .ok below) :
    Exposes R scan timestamp username hidden n
      (.messageHistory peerOnion limit before cursor) := by
  obtain ⟨sentAt, hbelow⟩ := hbelow
  obtain ⟨id, hne, hnew⟩ := exists_fresh_ne n (before.getD "")
  have hnew : (bare hidden n).messages.get? id = none := get?_bare hnew
  have hbetween : Between onion peerOnion (id, othersRow peerOnion onion sentAt) := .inr ⟨rfl, rfl⟩
  have hplanted := sameVisible_planted hnew hbetween hnot
  refine Exposes.of_ne (hkeys.bare hidden) sameVisible_bare
    (hkeys.planted ⟨user, hsigned.mem, honion⟩ hprofile) hplanted ?_
  refine history_ne (sameVisible_bare.signedIn hsigned) (hplanted.signedIn hsigned) hlimit
    (hcursor _ fun _ _ => rfl) (hcursor _ ?_) ?_
  · -- the message is not the one that `before` names
    rintro other rfl
    exact (Dict.get?_insert ..).trans (if_neg fun h => hne h.symm)
  · have hempty : historyPage (scan.visit (bare hidden n).messages.entries) user.onionAddress
        peerOnion limit.toNat below = [] := by
      refine historyPage_eq_nil fun row hrow hconversation => ?_
      rw [honion] at hconversation
      exact absurd ⟨row, hrow, between_of_inConversation hconversation⟩ hnot
    have hmem : (id, othersRow peerOnion onion sentAt) ∈ (planted hidden n onion peerOnion id
        (othersRow peerOnion onion sentAt)).messages.entries := by
      rw [messages_planted hnew]
      exact List.mem_append_right _ (List.mem_singleton_self _)
    have hconversation : inConversation user.onionAddress peerOnion
        (id, othersRow peerOnion onion sentAt) = true := by
      rw [honion]
      exact decide_eq_true ⟨Bool.false_ne_true, .inr ⟨rfl, rfl⟩⟩
    rw [hempty]
    exact (historyPage_ne_nil (by omega) hmem hconversation hbelow).symm

/-- A message that `before` names may be hidden, or not be there. -/
theorem exposes_before {id : String} (hkeys : ForeignKeys n) (hsigned : SignedIn username user n)
    (hprofile : hidden ∈ n.profiles) (honion : user.onionAddress = some onion)
    (hlimit : 1 ≤ limit ∧ limit ≤ 200) (hcursor : truthy cursor = none)
    (hbefore : truthy before = some id) (hgone : (bare hidden n).messages.get? id = none)
    {row : Row} (hrow : row ∈ visible hidden n)
    (hconversation : inConversation user.onionAddress peerOnion row = true) :
    Exposes R scan timestamp username hidden n
      (.messageHistory peerOnion limit before cursor) := by
  obtain ⟨first, hfirst⟩ := exists_earliest (n := bare hidden n) ⟨row, hrow, hconversation⟩
  obtain ⟨other, havoid, hnot⟩ := exists_unsettled hidden n onion {onion, peerOnion}
  rw [Finset.mem_insert, Finset.mem_singleton, not_or] at havoid
  -- then it is as early as the first message of the conversation
  have hbetween : Between onion other (id, othersRow onion other first) := .inl ⟨rfl, rfl⟩
  have hplanted := sameVisible_planted hgone hbetween hnot
  have hstart : ∀ s : Node, cursorSentAt R s before cursor =
      .ok ((s.messages.get? id).map Message.sentAt) := by
    intro s
    simp only [cursorSentAt, hcursor, hbefore]
  refine Exposes.of_ne (hkeys.bare hidden) sameVisible_bare
    (hkeys.planted ⟨user, hsigned.mem, honion⟩ hprofile) hplanted ?_
  refine history_ne (sameVisible_bare.signedIn hsigned) (hplanted.signedIn hsigned) hlimit
    (hstart _) (hstart _) ?_
  have hempty : historyPage (scan.visit (planted hidden n onion other id
      (othersRow onion other first)).messages.entries) user.onionAddress peerOnion limit.toNat
        (some first) = [] := by
    refine historyPage_eq_nil fun row hrow hconversation => ⟨first, rfl, ?_⟩
    rw [messages_planted hgone] at hrow
    rcases List.mem_append.mp hrow with hrow | hrow
    · exact hfirst row hrow hconversation
    · obtain rfl := List.mem_singleton.mp hrow
      rw [honion] at hconversation
      obtain ⟨-, ⟨-, hpeer⟩ | ⟨-, hself⟩⟩ := of_decide_eq_true hconversation
      · exact absurd hpeer havoid.2
      · exact absurd (Option.some.inj hself) havoid.1
  have hget : (planted hidden n onion other id (othersRow onion other first)).messages.get? id =
      some (othersRow onion other first) := (Dict.get?_insert ..).trans (if_pos rfl)
  have hsent : (some (othersRow onion other first)).map Message.sentAt = some first := rfl
  rw [hget, hsent, hempty, hgone]
  exact historyPage_ne_nil (by omega) hrow hconversation fun _ h => by cases h

/-- A hidden contact of any user may have a message that the old client shows. -/
theorem exposes_legacy {a b : String} (hkeys : ForeignKeys n) (hsigned : SignedIn username user n)
    (hprofile : hidden ∈ n.profiles) (howner : ∃ v ∈ n.users, v.onionAddress = some a)
    (hnot : ¬ Settled hidden n a b) {onionAddress : Option String}
    (hpeer : truthy onionAddress = some peerOnion)
    (hparty : a = R.lower (strip peerOnion) ∨ b = R.lower (strip peerOnion)) :
    Exposes R scan timestamp username hidden n (.legacyGetMessages onionAddress) := by
  obtain ⟨id, hnew⟩ := exists_fresh n
  have hnew : (bare hidden n).messages.get? id = none := get?_bare hnew
  -- the second database has one more row of the hidden profile, between the two
  -- addresses
  let m := othersRow a b ⟨1, 1, 1, 0, 0, 0, 0, by decide, by decide⟩
  have hbetween : Between a b (id, m) := .inl ⟨rfl, rfl⟩
  have hplanted := sameVisible_planted hnew hbetween hnot
  refine Exposes.of_ne (hkeys.bare hidden) sameVisible_bare (hkeys.planted howner hprofile)
    hplanted ?_
  rw [Request.read, run_legacyGetMessages (sameVisible_bare.signedIn hsigned),
    run_legacyGetMessages (hplanted.signedIn hsigned), hpeer]
  intro heq
  have hlength := congrArg shown heq
  -- the handler filters by one address only, so the planted row passes the filter
  have hone : ([(id, m)].filter fun row => row.2.senderOnion = R.lower (strip peerOnion) ∨
      row.2.recipientOnion = R.lower (strip peerOnion)) = [(id, m)] := by
    refine List.filter_eq_self.mpr fun row hrow => ?_
    obtain rfl := List.mem_singleton.mp hrow
    exact decide_eq_true hparty
  simp only [Result.toExcept, shown, List.length_map, orderAsc, List.length_insertionSort]
    at hlength
  -- a page is as long as the rows it is cut from, and the two databases differ by one
  -- row
  rw [((scan.perm _).filter _).length_eq, ((scan.perm _).filter _).length_eq,
    messages_planted hnew, List.filter_append, List.length_append, hone, List.length_singleton]
    at hlength
  exact absurd hlength (Nat.ne_of_lt (Nat.lt_succ_self _))

/-- A request for messages that is not guarded. -/
theorem exposes_of_not_guarded (hkeys : ForeignKeys n) (hsigned : SignedIn username user n)
    (hprofile : hidden ∈ n.profiles) {k : Request} (hnot : ¬ k.Guarded R user hidden n) :
    Exposes R scan timestamp username hidden n k := by
  rcases k with _ | ⟨peerOnion, limit, before, cursor⟩ | onionAddress
  case listContacts => exact absurd trivial hnot
  case messageHistory =>
    simp only [Request.Guarded, not_forall] at hnot
    obtain ⟨hlimit, onion, honion, hnot⟩ := hnot
    unfold GuardedHistory at hnot
    rcases hcursor : truthy cursor with _ | token
    · rcases hbefore : truthy before with _ | id
      · rw [hcursor, hbefore] at hnot
        refine exposes_unsettled hkeys hsigned hprofile honion hlimit hnot
          exists_before_none fun s _ => ?_
        simp only [cursorSentAt, hcursor, hbefore]
      · rw [hcursor, hbefore] at hnot
        obtain ⟨hnosettled, hnovisible⟩ := not_or.mp hnot
        have hstart : ∀ s : Node, (∀ id, before = some id →
            s.messages.get? id = (bare hidden n).messages.get? id) →
            cursorSentAt R s before cursor =
              .ok (((bare hidden n).messages.get? id).map Message.sentAt) := by
          intro s hs
          have hid : before = some id := Option.eq_some_of_filter_eq_some hbefore
          simp only [cursorSentAt, hcursor, hbefore, hs id hid]
        by_cases hm : ∃ m, (bare hidden n).messages.get? id = some m
        · -- the page starts at a visible message
          obtain ⟨m, hm⟩ := hm
          rw [hm, Option.map_some] at hstart
          obtain ⟨hget, hvisible⟩ := Dict.get?_filter.mp hm
          have hnot : ¬ (Settled hidden n onion peerOnion ∨ Earliest m.sentAt) := fun h =>
            hnovisible ⟨m, hget, of_decide_eq_true hvisible, h⟩
          obtain ⟨hunsettled, hlate⟩ := not_or.mp hnot
          unfold Earliest at hlate
          push Not at hlate
          obtain ⟨sentAt, hlt⟩ := hlate
          exact exposes_unsettled hkeys hsigned hprofile honion hlimit hunsettled
            (exists_before_some hlt) hstart
        · have hgone : (bare hidden n).messages.get? id = none :=
            Option.eq_none_iff_forall_ne_some.mpr fun m h => hm ⟨m, h⟩
          rw [hgone, Option.map_none] at hstart
          by_cases hsettled : Settled hidden n onion peerOnion
          · -- the page may start at a hidden message
            have hsome : ¬ ∀ row ∈ n.messages.entries,
                inConversation (some onion) peerOnion row = false :=
              fun h => hnosettled ⟨hsettled, h⟩
            push Not at hsome
            obtain ⟨row, hrow, hconversation⟩ := hsome
            have hconversation := Bool.eq_true_of_not_eq_false hconversation
            refine exposes_before hkeys hsigned hprofile honion hlimit hcursor hbefore hgone
              (mem_visible.mpr ⟨hrow, ?_⟩) ?_
            · exact hsettled.not_isHidden (between_of_inConversation hconversation)
            · rw [honion]
              exact hconversation
          · exact exposes_unsettled hkeys hsigned hprofile honion hlimit hsettled
              exists_before_none hstart
    · rw [hcursor] at hnot
      obtain ⟨hunsettled, hdecode⟩ := not_or.mp hnot
      unfold Earliest at hdecode
      push Not at hdecode
      obtain ⟨stamp, hstamp, sentAt, hlt⟩ := hdecode
      refine exposes_unsettled hkeys hsigned hprofile honion hlimit hunsettled
        (exists_before_some hlt) fun s _ => ?_
      simp only [cursorSentAt, hcursor, Option.mem_def.mp hstamp]
  case legacyGetMessages =>
    simp only [Request.Guarded, not_forall] at hnot
    obtain ⟨peerOnion, hpeer, v, hv, onion, honion, hnot⟩ := hnot
    by_cases hself : onion = R.lower (strip peerOnion)
    · obtain ⟨other, -, hunsettled⟩ := exists_unsettled hidden n onion ∅
      exact exposes_legacy hkeys hsigned hprofile ⟨v, hv, honion⟩ hunsettled hpeer (.inl hself)
    · exact exposes_legacy hkeys hsigned hprofile ⟨v, hv, honion⟩
        (fun hsettled => hnot ⟨hself, hsettled⟩) hpeer (.inr rfl)

end

/-! ## Noninterference -/

/-- **What a hidden profile changes.** A sequence of requests, while the default
profile is active, gets the same answers in all databases that differ in rows
of a hidden profile only, exactly when each of the requests is guarded. -/
theorem noninterfering_iff (R : Runtime) (scan : Scan) (timestamp : DateTime → ℤ)
    {username hidden : String} {user : User} {n : Node} (hkeys : ForeignKeys n)
    (hsigned : SignedIn username user n) (hdefault : hidden ≠ "default")
    (hprofile : hidden ∈ n.profiles) (requests : List Request) :
    Noninterfering R scan timestamp username hidden requests n ↔
      ∀ k ∈ requests, k.Guarded R user hidden n := by
  -- every request of the list is a read, so each is answered in the first database
  have hanswers : ∀ n', SignedIn username user n' →
      answers R scan timestamp username (requests.map Request.read) n' =
        requests.map fun k => (k.read.run R scan timestamp username n').toExcept := by
    intro n' hsigned'
    rw [answers_eq_map hsigned', List.map_map]
    rfl
  constructor
  -- a request that is not guarded has a pair of databases that tells it apart
  · intro h k hk
    by_contra hnot
    have hexposes : Exposes R scan timestamp username hidden n k :=
      exposes_of_not_guarded hkeys hsigned hprofile hnot
    obtain ⟨n', hkeys', hsame, hne⟩ := hexposes
    have heq := h n' hkeys' hsame
    rw [hanswers n hsigned, hanswers n' (hsame.signedIn hsigned)] at heq
    exact hne (List.map_inj_left.mp heq k hk)
  -- a guarded request reads nothing that the two databases disagree on
  · intro h n' hkeys' hsame
    rw [hanswers n hsigned, hanswers n' (hsame.signedIn hsigned)]
    exact List.map_inj_left.mpr fun k hk =>
      run_of_guarded hkeys hsigned hdefault hkeys' hsame (h k hk)

/-! ## A hidden contact -/

/-- Alice has a hidden profile, without contacts. -/
def vault : Node where
  users    := [alice]
  profiles := ["default", "vault"]
  contacts := .empty
  messages := .empty
  bundles  := .empty
  notices  := []
  tasks    := []

theorem foreignKeys_vault : ForeignKeys vault where
  owned    := by rintro e ⟨⟩
  profiled := by rintro e ⟨⟩

theorem signedIn_vault : SignedIn "alice" alice vault := ⟨by decide, rfl⟩

/-- The list of contacts does not depend on the hidden ones. -/
theorem vault_lists_default :
    Noninterfering asciiRuntime insertionOrder (fun _ => 0) "alice" "vault"
      [.listContacts, .legacyGetMessages none] vault := by
  refine (noninterfering_iff asciiRuntime insertionOrder (fun _ => 0) foreignKeys_vault
    signedIn_vault (by decide) (by decide) _).mpr fun k hk => ?_
  rcases List.mem_cons.mp hk with rfl | hk
  · trivial
  · obtain rfl := List.mem_singleton.mp hk
    intro peerOnion hpeer
    cases hpeer

/-- The messages with a hidden contact are shown to whoever asks for its address. -/
theorem vault_shows_messages :
    ¬ Noninterfering asciiRuntime insertionOrder (fun _ => 0) "alice" "vault"
      [.messageHistory "cccccccccccccccc.onion" 50 none none] vault := by
  intro h
  let m := othersRow "cccccccccccccccc.onion" "aaaaaaaaaaaaaaaa.onion"
    ⟨2024, 1, 1, 0, 0, 0, 0, by decide, by decide⟩
  have hanswers := h
    (planted "vault" vault "aaaaaaaaaaaaaaaa.onion" "cccccccccccccccc.onion" "m1" m)
    (foreignKeys_vault.planted ⟨alice, List.mem_singleton_self _, rfl⟩ (by decide))
    (sameVisible_planted rfl (.inr ⟨rfl, rfl⟩) fun ⟨row, hrow, _⟩ => by cases hrow)
  have hshown := congrArg (List.map shown) hanswers
  exact absurd hshown (by decide +kernel)

end AnonyMus.P2p.HiddenProfile
