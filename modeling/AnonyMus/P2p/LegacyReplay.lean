import AnonyMus.Lib.Simulation
import AnonyMus.P2p.Legacy

/-!
# P2P node — replays to the Flask server

`get_last_sequence_number` is the number of the row with the largest timestamp,
whoever sent it, and 0 if there is none. So it is the largest number accepted
from a peer only as long as these rows stay in order and nothing comes between.
The requests are those that `Flask-Limiter` lets through to the handlers.

* `AntiReplay` — nothing is accepted twice, and a stream from 0 is accepted;
* `Orderly` — what is accepted becomes the latest row, and the latest row keeps
  its number otherwise;
* `Follows` — then the latest number is the largest one accepted, or 0;
* `resistsReplay_iff` — so only a stream that begins with 0 is treated wrongly.
-/

namespace AnonyMus.P2p.Legacy

open EStateM LegacyNode

/-! ## The latest row -/

section

variable {rows : List LegacyRow} {r best : LegacyRow}

theorem latest?_concat (rows : List LegacyRow) (r : LegacyRow) :
    latest? (rows ++ [r]) = later (latest? rows) r := by
  rw [latest?, List.foldl_concat]
  rfl

theorem latest?_eq_none_iff : latest? rows = none ↔ rows = [] := by
  induction rows using List.reverseRecOn with
  | nil => exact iff_of_true rfl rfl
  | append_singleton rows last ih =>
    refine iff_of_false ?_ (by simp)
    rw [latest?_concat, later]
    split_ifs with hlater
    · rintro ⟨⟩
    · intro hnone
      apply hlater
      rw [hnone]
      exact fun b hb => absurd hb (Option.not_mem_none b)

theorem latest?_spec (h : latest? rows = some best) :
    best ∈ rows ∧ ∀ r ∈ rows, r.timestamp ≤ best.timestamp := by
  -- over the rows from the last: a later row replaces the best one only if its
  -- timestamp is greater
  induction rows using List.reverseRecOn generalizing best with
  | nil => cases h
  | append_singleton rows last ih =>
    rw [latest?_concat, later] at h
    split_ifs at h with hlater
    · obtain rfl := Option.some.inj h
      refine ⟨List.mem_append_right _ (List.mem_singleton_self _), ?_⟩
      intro r hr
      rcases List.mem_append.mp hr with hr | hr
      -- rows that have a latest one are not later than it, hence not later than the
      -- last row
      · rcases hold : latest? rows with _ | old
        · rw [latest?_eq_none_iff.mp hold] at hr
          cases hr
        · exact ((ih hold).2 r hr).trans (hlater old hold)
      · rw [List.mem_singleton.mp hr]
    · obtain ⟨hmem, hmax⟩ := ih h
      refine ⟨List.mem_append_left _ hmem, ?_⟩
      intro r hr
      rcases List.mem_append.mp hr with hr | hr
      · exact hmax r hr
      · rw [List.mem_singleton.mp hr]
        -- the last row did not replace the best, so it is not later
        by_contra hlt
        apply hlater
        intro b hb
        rw [h] at hb
        rw [← Option.some.inj hb]
        exact (not_le.mp hlt).le

/-- Deleting other rows does not change which one is the latest. -/
theorem latest?_filter {p : LegacyRow → Bool} (hkept : ∀ r ∈ latest? rows, p r = true) :
    latest? (rows.filter p) = latest? rows := by
  induction rows using List.reverseRecOn with
  | nil => rfl
  | append_singleton rows last ih =>
    rw [latest?_concat] at hkept ⊢
    rw [List.filter_append]
    by_cases hlater : ∀ b ∈ latest? rows, b.timestamp ≤ last.timestamp
    · -- the last row is the latest, also of those that are left
      have hlatest : later (latest? rows) last = some last := if_pos hlater
      rw [hlatest] at hkept ⊢
      rw [List.filter_cons_of_pos (hkept last rfl), List.filter_nil, latest?_concat]
      apply if_pos
      intro b hb
      have hmem : b ∈ rows := List.mem_of_mem_filter (latest?_spec hb).1
      rcases hold : latest? rows with _ | old
      · rw [latest?_eq_none_iff.mp hold] at hmem
        cases hmem
      · exact ((latest?_spec hold).2 b hmem).trans (hlater old hold)
    · have hlatest : later (latest? rows) last = latest? rows := if_neg hlater
      rw [hlatest] at hkept ⊢
      have hrest := ih hkept
      by_cases hlast : p last = true
      · rw [List.filter_cons_of_pos hlast, List.filter_nil, latest?_concat, hrest, hlatest]
      · rw [List.filter_cons_of_neg hlast, List.filter_nil, List.append_nil, hrest]

end

/-! ## Offers -/

/-- The numbers that a peer has offered. -/
def LegacyNode.offersOf (peer : String) (n : LegacyNode) : List Offer :=
  n.offers.filter fun o => o.peerOnion = peer

/-- The numbers grow, and the first is 0. -/
def IsStream (offers : List Offer) : Prop :=
  (offers.map (·.seq)).Pairwise (· < ·) ∧ (offers.head?.map (·.seq)) = some 0

/-- What is accepted is above all that was accepted before, and a stream from 0 is accepted in
full. -/
structure AntiReplay (offers : List Offer) : Prop where
  sound : ∀ done o rest, offers = done ++ o :: rest → o.Accepted →
    ∀ o' ∈ done, o'.Accepted → o'.seq < o.seq
  complete : ∀ done rest, offers = done ++ rest → IsStream done → ∀ o ∈ done, o.Accepted

/-- Accepted are the positive numbers above all that was accepted before. -/
def Exact (offers : List Offer) : Prop :=
  ∀ done o rest, offers = done ++ o :: rest →
    (o.Accepted ↔ 0 < o.seq ∧ ∀ o' ∈ done, o'.Accepted → o'.seq < o.seq)

theorem Exact.concat {offers : List Offer} (h : Exact offers) {new : Offer}
    (hnew : new.Accepted ↔ 0 < new.seq ∧ ∀ o ∈ offers, o.Accepted → o.seq < new.seq) :
    Exact (offers ++ [new]) := by
  intro done o rest hsplit
  rcases List.eq_nil_or_concat rest with rfl | ⟨rest, last, rfl⟩
  · obtain ⟨rfl, hlast⟩ := List.append_inj' hsplit rfl
    obtain rfl := List.singleton_inj.mp hlast
    exact hnew
  · rw [List.concat_eq_append, ← List.cons_append, ← List.append_assoc] at hsplit
    obtain ⟨hold, -⟩ := List.append_inj' hsplit rfl
    exact h done o rest hold

/-- Then only a stream from 0 is not accepted: not even its 0 is. -/
theorem Exact.resists_iff {offers : List Offer} (h : Exact offers) :
    AntiReplay offers ↔ offers.head?.map (·.seq) ≠ some 0 := by
  constructor
  · rintro ⟨-, hcomplete⟩ hzero
    rcases offers with _ | ⟨first, rest⟩
    · cases hzero
    · have hfirst : first.seq = 0 := Option.some.inj hzero
      have haccepted := hcomplete [first] rest rfl
        ⟨List.pairwise_singleton _ _, by rw [List.head?_cons, Option.map_some, hfirst]⟩ first
        (List.mem_singleton_self _)
      have hpos := ((h [] first rest rfl).mp haccepted).1
      omega
  · intro hne
    constructor
    · intro done o rest hsplit haccepted
      exact ((h done o rest hsplit).mp haccepted).2
    · rintro done rest rfl ⟨-, hzero⟩
      rcases done with _ | ⟨first, done⟩
      · cases hzero
      · exact absurd hzero hne

/-! ## Orderly runs -/

section

variable (L : Library) (peer : String)

/-- If the number is above the latest one, then the message becomes the latest row. -/
def Records (m : IncomingMessage) (n : LegacyNode) : Prop :=
  n.lastSeq peer < m.seq →
    m.ephemeral = false ∧ bindable (.int m.timestamp) = true ∧
      bindable (n.savedExpiry peer m.timestamp m.expiresAt) = true ∧
      ∀ r ∈ latest? (n.rows peer), r.timestamp ≤ m.timestamp

instance (m : IncomingMessage) (n : LegacyNode) : Decidable (Records peer m n) :=
  inferInstanceAs (Decidable (n.lastSeq peer < m.seq →
    m.ephemeral = false ∧ bindable (.int m.timestamp) = true ∧
      bindable (n.savedExpiry peer m.timestamp m.expiresAt) = true ∧
      ∀ r ∈ latest? (n.rows peer), r.timestamp ≤ m.timestamp))

/-- The message repeats the number of the latest row, or is stored before it. -/
def Harmless (m : IncomingMessage) (n : LegacyNode) : Prop :=
  m.ephemeral = false →
    m.seq = n.lastSeq peer ∨ ∃ r ∈ latest? (n.rows peer), m.timestamp < r.timestamp

/-- What the peer sends becomes the latest row if it is accepted, and nothing else changes the number
of the latest row. -/
def Orderly : LegacyEvent → LegacyNode → Prop
  | .p2pMessage data, n =>
    ∀ m, readMessage L data = .ok m → normalized L m.sender = peer →
      ∀ contact ∈ n.contacts.get? peer,
        Records peer { m with expiresAt := expiry contact m.timestamp m.expiresAt } n
  | .p2pMessageBatch data now, n =>
    ∀ sender timestamp events, readBatch L data now = .ok (sender, timestamp, events) →
      normalized L sender = peer → ∀ contact ∈ n.contacts.get? peer, ∀ items ∈ iterate events,
      ∀ e ∈ items, ∀ m, readEvent L sender timestamp
          (expiry contact timestamp (getJson data "expires_at")) e = .ok (some m) →
        Records peer m n
  | .p2pDelete data, n =>
    ∀ sender timestamp, readDelete L data = .ok (sender, timestamp) →
      normalized L sender = peer → ∀ r ∈ latest? (n.rows peer), r.timestamp ≠ timestamp
  | .sendMessage loggedIn data now, n =>
    ∀ onion m, readSend L loggedIn data now = .ok (onion, m) → normalized L onion = peer →
      Harmless peer m n
  | .sendMessageBatch loggedIn data now, n =>
    ∀ onion events, readSendBatch L loggedIn data = .ok (onion, events) →
      normalized L onion = peer → ∀ items ∈ iterate events, ∀ e ∈ items, ∀ expiresAt m,
      readSentEvent L now expiresAt e = .ok m → Harmless peer m n
  | .deleteMessage loggedIn data, n =>
    ∀ onion timestamp, readDeleteMessage L loggedIn data = .ok (onion, timestamp) →
      normalized L onion = peer → ∀ r ∈ latest? (n.rows peer), r.timestamp ≠ timestamp
  | .sweep now, n => ∀ r ∈ latest? (n.rows peer), L.expired r.expiresAt now = false

/-- The latest number is the largest one accepted from the peer, or 0. -/
structure Follows (n : LegacyNode) : Prop where
  nonneg  : 0 ≤ n.lastSeq peer
  above   : ∀ o ∈ n.offersOf peer, o.Accepted → o.seq ≤ n.lastSeq peer
  reached : n.lastSeq peer = 0 ∨ ∃ o ∈ n.offersOf peer, o.Accepted ∧ o.seq = n.lastSeq peer
  exact   : Exact (n.offersOf peer)

end

/-! ## What the steps do to the rows -/

section

variable {L : Library} {peer : String} {n n' : LegacyNode} {m : IncomingMessage}

theorem Follows.of_eq (h : Follows peer n) (hlast : n'.lastSeq peer = n.lastSeq peer)
    (hoffers : n'.offers = n.offers) : Follows peer n' := by
  have hof : n'.offersOf peer = n.offersOf peer := by rw [offersOf, hoffers, offersOf]
  constructor
  · rw [hlast]
    exact h.nonneg
  · rw [hlast, hof]
    exact h.above
  · rw [hlast, hof]
    exact h.reached
  · rw [hof]
    exact h.exact

theorem lastSeq_congr (h : n'.messages = n.messages) : n'.lastSeq peer = n.lastSeq peer := by
  rw [lastSeq, rows, h, lastSeq, rows]

theorem notify_frame (onion : String) (n : LegacyNode) :
    (notify L onion n).messages = n.messages ∧ (notify L onion n).offers = n.offers ∧
      (notify L onion n).contacts = n.contacts := by
  unfold notify
  dsimp only
  rcases truthy _ with _ | token
  · exact ⟨rfl, rfl, rfl⟩
  · exact ⟨rfl, rfl, rfl⟩

theorem saveMessage_frame (onion sender : String) (m : IncomingMessage) (n : LegacyNode) :
    (saveMessage L onion sender m n).offers = n.offers ∧
      (saveMessage L onion sender m n).contacts = n.contacts := by
  unfold saveMessage
  dsimp only
  split_ifs
  · exact ⟨rfl, rfl⟩
  · exact ⟨rfl, rfl⟩

theorem rows_saveMessage_other {onion : String} (hne : normalized L onion ≠ peer) (sender : String) :
    (saveMessage L onion sender m n).rows peer = n.rows peer := by
  unfold saveMessage
  dsimp only
  split_ifs
  · rw [rows, List.filter_append, List.filter_cons_of_neg (by simpa using hne)]
    exact List.append_nil _
  · rfl

/-- A row of the conversation, if SQLite takes it. -/
theorem rows_saveMessage {onion : String} (hpeer : normalized L onion = peer) (sender : String) :
    (saveMessage L onion sender m n).rows peer =
      if bindable (.int m.timestamp) && bindable (n.savedExpiry peer m.timestamp m.expiresAt) then
        n.rows peer ++ [⟨peer, sender, m.iv, m.ciphertext, m.seq, m.timestamp,
          n.savedExpiry peer m.timestamp m.expiresAt⟩]
      else n.rows peer := by
  subst hpeer
  unfold saveMessage
  dsimp only
  split_ifs
  · rw [rows, List.filter_append, List.filter_cons_of_pos (by simp)]
    rfl
  · rfl

theorem receive_frame (m : IncomingMessage) (n : LegacyNode) :
    (receive L m n).offers = n.offers ∧ (receive L m n).contacts = n.contacts ∧
      (receive L m n).messages =
        if m.ephemeral then n.messages else (saveMessage L m.sender m.sender m n).messages := by
  unfold receive
  dsimp only
  by_cases heph : m.ephemeral = true
  · rw [if_pos heph, if_pos heph]
    exact ⟨rfl, rfl, rfl⟩
  · rw [if_neg heph, if_neg heph]
    obtain ⟨hmessages, hoffers, hcontacts⟩ :=
      notify_frame (L := L) m.sender (saveMessage L m.sender m.sender m n)
    obtain ⟨hoffers', hcontacts'⟩ := saveMessage_frame (L := L) m.sender m.sender m n
    exact ⟨hoffers.trans hoffers', hcontacts.trans hcontacts', hmessages⟩

theorem contacts_deliver (m : IncomingMessage) (n : LegacyNode) :
    (deliver L m n).contacts = n.contacts := by
  unfold deliver
  dsimp only
  split_ifs
  · rfl
  · exact (receive_frame m _).2.1

theorem offers_deliver (m : IncomingMessage) (n : LegacyNode) :
    (deliver L m n).offers = n.offers ++
      [⟨normalized L m.sender, m.seq, n.lastSeq (normalized L m.sender)⟩] := by
  unfold deliver
  dsimp only
  split_ifs
  · rfl
  · exact (receive_frame m _).1

/-- A message of another peer is no row of the conversation. -/
theorem rows_deliver_other (hne : normalized L m.sender ≠ peer) :
    (deliver L m n).rows peer = n.rows peer := by
  unfold deliver
  dsimp only
  split_ifs
  · rfl
  · rw [rows, (receive_frame m _).2.2]
    split_ifs
    · rfl
    · exact rows_saveMessage_other hne m.sender

/-- A number that is not above the latest one changes nothing. -/
theorem rows_deliver_rejected (hpeer : normalized L m.sender = peer) (hle : m.seq ≤ n.lastSeq peer) :
    (deliver L m n).rows peer = n.rows peer := by
  subst hpeer
  unfold deliver
  dsimp only
  rw [if_pos hle]
  rfl

/-- What is recorded is the latest row. -/
theorem latest?_deliver (hpeer : normalized L m.sender = peer) (hlt : n.lastSeq peer < m.seq)
    (hrecords : Records peer m n) :
    ∃ r, latest? ((deliver L m n).rows peer) = some r ∧ r.seq = m.seq ∧
      r.timestamp = m.timestamp := by
  obtain ⟨heph, htimestamp, hexpires, hlatest⟩ := hrecords hlt
  have hrows : (deliver L m n).rows peer = n.rows peer ++ [⟨peer, m.sender, m.iv, m.ciphertext,
      m.seq, m.timestamp, n.savedExpiry peer m.timestamp m.expiresAt⟩] := by
    unfold deliver
    dsimp only
    rw [hpeer, if_neg (not_le.mpr hlt), rows, (receive_frame m _).2.2, if_neg (by simp [heph])]
    refine (rows_saveMessage hpeer m.sender).trans (if_pos ?_)
    rw [Bool.and_eq_true]
    exact ⟨htimestamp, hexpires⟩
  rw [hrows, latest?_concat]
  exact ⟨_, if_pos hlatest, rfl, rfl⟩

/-! ## Orderly steps keep it -/

theorem Follows.deliver (h : Follows peer n)
    (hrecords : normalized L m.sender = peer → Records peer m n) :
    Follows peer (deliver L m n) := by
  by_cases hpeer : normalized L m.sender = peer
  · have hrecords := hrecords hpeer
    have hof : (n.deliver L m).offersOf peer =
        n.offersOf peer ++ [⟨peer, m.seq, n.lastSeq peer⟩] := by
      rw [offersOf, offers_deliver, List.filter_append, hpeer,
        List.filter_cons_of_pos (by simp)]
      rfl
    have hexact : Exact ((n.deliver L m).offersOf peer) := by
      rw [hof]
      refine h.exact.concat ?_
      -- above the latest number is above 0 and all accepted ones
      constructor
      · intro haccepted
        refine ⟨h.nonneg.trans_lt haccepted, ?_⟩
        intro o ho hold
        exact (h.above o ho hold).trans_lt haccepted
      · rintro ⟨hpos, habove⟩
        rcases h.reached with hzero | ⟨o, ho, hold, heq⟩
        · exact lt_of_eq_of_lt hzero hpos
        · exact lt_of_eq_of_lt heq.symm (habove o ho hold)
    by_cases hle : m.seq ≤ n.lastSeq peer
    · have hlast : (n.deliver L m).lastSeq peer = n.lastSeq peer := by
        rw [lastSeq, rows_deliver_rejected hpeer hle, lastSeq]
      have hnot : ¬ (⟨peer, m.seq, n.lastSeq peer⟩ : Offer).Accepted := not_lt.mpr hle
      constructor
      · rw [hlast]
        exact h.nonneg
      · rw [hlast, hof]
        intro o ho haccepted
        rcases List.mem_append.mp ho with ho | ho
        · exact h.above o ho haccepted
        · rw [List.mem_singleton.mp ho] at haccepted
          exact absurd haccepted hnot
      · rw [hlast, hof]
        rcases h.reached with hzero | ⟨o, ho, hreached⟩
        · exact .inl hzero
        · exact .inr ⟨o, List.mem_append_left _ ho, hreached⟩
      · exact hexact
    · have hlt := not_le.mp hle
      obtain ⟨r, hr, hseq, -⟩ := latest?_deliver hpeer hlt hrecords
      have hlast : (n.deliver L m).lastSeq peer = m.seq := by
        rw [lastSeq, hr, ← hseq]
        rfl
      constructor
      · rw [hlast]
        exact (h.nonneg.trans_lt hlt).le
      · rw [hlast, hof]
        intro o ho haccepted
        rcases List.mem_append.mp ho with ho | ho
        · exact ((h.above o ho haccepted).trans_lt hlt).le
        · rw [List.mem_singleton.mp ho]
      · rw [hlast, hof]
        exact .inr ⟨_, List.mem_append_right _ (List.mem_singleton_self _), hlt, rfl⟩
      · exact hexact
  · have hof : (n.deliver L m).offersOf peer = n.offersOf peer := by
      rw [offersOf, offers_deliver, List.filter_append,
        List.filter_cons_of_neg (by simpa using hpeer)]
      exact List.append_nil _
    have hlast : (n.deliver L m).lastSeq peer = n.lastSeq peer := by
      rw [lastSeq, rows_deliver_other hpeer, lastSeq]
    constructor
    · rw [hlast]
      exact h.nonneg
    · rw [hlast, hof]
      exact h.above
    · rw [hlast, hof]
      exact h.reached
    · rw [hof]
      exact h.exact

/-- Of messages with one timestamp, each may follow another. -/
theorem Records.deliver {m' : IncomingMessage} (hm' : Records peer m' n)
    (hm : normalized L m.sender = peer → Records peer m n)
    (htimestamp : m.timestamp = m'.timestamp) :
    Records peer m' (n.deliver L m) := by
  -- a message that files nothing leaves the rows it is compared with
  by_cases hsame : (n.deliver L m).rows peer = n.rows peer
  · unfold Records savedExpiry
    rw [lastSeq, hsame, contacts_deliver]
    exact hm'
  -- it filed a row, so it is of this peer and has a number above the last
  · have hpeer : normalized L m.sender = peer := by
      by_contra hne
      exact hsame (rows_deliver_other hne)
    have hlt : n.lastSeq peer < m.seq := by
      by_contra hle
      exact hsame (rows_deliver_rejected hpeer (not_lt.mp hle))
    -- the row it filed is the latest one, at the timestamp that the two messages share
    obtain ⟨r, hr, hseq, hat⟩ := latest?_deliver hpeer hlt (hm hpeer)
    intro hlast
    rw [lastSeq, hr, Option.map_some, Option.getD_some, hseq] at hlast
    obtain ⟨heph, hbindable, hexpires, -⟩ := hm' (hlt.trans hlast)
    refine ⟨heph, hbindable, ?_, ?_⟩
    · unfold savedExpiry at hexpires ⊢
      rw [contacts_deliver]
      exact hexpires
    · intro r' hr'
      rw [hr] at hr'
      rw [← Option.some.inj hr', hat, htimestamp]

/-- A harmless row leaves the number of the latest row, and a row that is later than it. -/
theorem latest?_saveSent {onion : String}
    (hharmless : normalized L onion = peer → Harmless peer m n) :
    (saveSent L onion m n).lastSeq peer = n.lastSeq peer ∧
      ∀ r ∈ latest? (n.rows peer), m.timestamp < r.timestamp →
        latest? ((saveSent L onion m n).rows peer) = some r := by
  -- a message that files nothing changes neither
  by_cases hsame : (saveSent L onion m n).rows peer = n.rows peer
  · rw [lastSeq, hsame, lastSeq]
    exact ⟨rfl, fun r hr _ => hr⟩
  -- it files a row only for its own peer, and only if it is not ephemeral
  · have hpeer : normalized L onion = peer := by
      by_contra hne
      apply hsame
      unfold saveSent
      split_ifs
      · rfl
      · exact rows_saveMessage_other hne "me"
    have heph : m.ephemeral = false := by
      by_contra heph
      exact hsame (congrArg (rows peer) (if_pos (Bool.not_eq_false _ |>.mp heph)))
    have hrows : (saveSent L onion m n).rows peer = n.rows peer ++ [⟨peer, "me", m.iv,
        m.ciphertext, m.seq, m.timestamp, n.savedExpiry peer m.timestamp m.expiresAt⟩] := by
      unfold saveSent at hsame ⊢
      rw [if_neg (by simp [heph]), rows_saveMessage hpeer] at hsame ⊢
      split_ifs at hsame ⊢ with hbindable
      · rfl
      · exact absurd rfl hsame
    rw [lastSeq, hrows, latest?_concat, later]
    -- the row replaces the latest one when it is the later of the two, which a harmless
    -- row is not
    split_ifs with hlater
    · refine ⟨?_, ?_⟩
      · rcases hharmless hpeer heph with hseq | ⟨r, hr, hlt⟩
        · exact hseq
        · exact absurd (hlater r hr) (not_le.mpr hlt)
      · intro r hr hlt
        exact absurd (hlater r hr) (not_le.mpr hlt)
    · exact ⟨rfl, fun r hr _ => hr⟩

theorem saveSent_frame (onion : String) (m : IncomingMessage) (n : LegacyNode) :
    (saveSent L onion m n).offers = n.offers := by
  unfold saveSent
  split_ifs
  · rfl
  · exact (saveMessage_frame onion "me" m n).1

theorem Follows.saveSent {onion : String} (h : Follows peer n)
    (hharmless : normalized L onion = peer → Harmless peer m n) :
    Follows peer (saveSent L onion m n) :=
  h.of_eq (latest?_saveSent hharmless).1 (saveSent_frame onion m n)

theorem Harmless.saveSent {onion : String} {m' : IncomingMessage} (hm' : Harmless peer m' n)
    (hm : normalized L onion = peer → Harmless peer m n) (htimestamp : m.timestamp = m'.timestamp) :
    Harmless peer m' (saveSent L onion m n) := by
  obtain ⟨hlast, hlatest⟩ := latest?_saveSent hm
  intro heph
  rcases hm' heph with hseq | ⟨r, hr, hlt⟩
  · exact .inl (hseq.trans hlast.symm)
  · exact .inr ⟨r, hlatest r hr (htimestamp ▸ hlt), hlt⟩

/-- Deleting other rows than the latest. -/
theorem Follows.filter (h : Follows peer n) {p : LegacyRow → Bool}
    (hkept : ∀ r ∈ latest? (n.rows peer), p r = true) :
    Follows peer { n with messages := n.messages.filter p } := by
  refine h.of_eq ?_ rfl
  have hrows : ({ n with messages := n.messages.filter p } : LegacyNode).rows peer =
      (n.rows peer).filter p := by
    rw [rows, rows, List.filter_filter, List.filter_filter]
    congr 1
    funext r
    exact Bool.and_comm _ _
  rw [lastSeq, hrows, latest?_filter hkept, lastSeq]

theorem Follows.deleteByTimestamp (h : Follows peer n) {onion : String} {timestamp : ℤ}
    (hkept : normalized L onion = peer → ∀ r ∈ latest? (n.rows peer), r.timestamp ≠ timestamp) :
    Follows peer (deleteByTimestamp L onion timestamp n) := by
  apply h.filter
  intro r hr
  have hrow : r.peerOnion = peer := by
    simpa using List.of_mem_filter (latest?_spec hr).1
  simp only [not_and, decide_eq_true_eq]
  intro honion
  exact hkept (honion.symm.trans hrow) r hr

/-! ## Handlers -/

theorem acceptedContact_cases (onion : String) (failure : Failure) (n : LegacyNode) :
    acceptedContact L onion failure n = .error failure n ∨
      ∃ contact, n.contacts.get? (normalized L onion) = some contact ∧
        acceptedContact L onion failure n = .ok contact n := by
  unfold acceptedContact
  rw [apply_bind, apply_get]
  dsimp only
  rcases n.contacts.get? (normalized L onion) with _ | contact
  · exact .inl rfl
  · dsimp only
    split_ifs
    · exact .inr ⟨contact, rfl, rfl⟩
    · exact .inl rfl

/-- The relay of a contact is not part of what is compared or stored. -/
theorem updatePreferredRelay_frame (sender : String) (data : Body) (n : LegacyNode) (peer : String) :
    (updatePreferredRelay L sender data n).state.messages = n.messages ∧
      (updatePreferredRelay L sender data n).state.offers = n.offers ∧
      ((updatePreferredRelay L sender data n).state.contacts.get? peer).bind (·.disappearingTtl) =
        (n.contacts.get? peer).bind (·.disappearingTtl) := by
  unfold updatePreferredRelay
  rw [apply_bind]
  rcases getStr data "preferred_file_relay" with failure | relay
  · exact ⟨rfl, rfl, rfl⟩
  · dsimp only [apply_ofExcept_ok]
    split_ifs
    · rw [apply_modify, Result.state_ok]
      rcases hget : n.contacts.get? (normalized L sender) with _ | contact
      · exact ⟨rfl, rfl, rfl⟩
      · refine ⟨rfl, rfl, ?_⟩
        dsimp only
        rw [Dict.get?_insert]
        split_ifs with hsame
        · rw [hsame, hget]
          rfl
        · rfl
    · exact ⟨rfl, rfl, rfl⟩

theorem readEvent_eq {sender : String} {timestamp : ℤ} {expiresAt event : Json}
    (h : readEvent L sender timestamp expiresAt event = .ok (some m)) :
    m.sender = sender ∧ m.timestamp = timestamp := by
  unfold readEvent at h
  rcases hmembers : event.members? with _ | members
  · rw [hmembers] at h
    cases h
  · rw [hmembers] at h
    dsimp only at h
    obtain ⟨seq, -, h⟩ := except_bind_eq_ok_iff.mp h
    split_ifs at h
    · cases h
    · cases h
      exact ⟨rfl, rfl⟩

theorem follows_receiveEvents {sender : String} {timestamp : ℤ} {expiresAt : Json}
    {events : List Json} (h : Follows peer n)
    (hrecords : ∀ e ∈ events, ∀ m, readEvent L sender timestamp expiresAt e = .ok (some m) →
      normalized L sender = peer → Records peer m n) :
    Follows peer (events.forM (receiveEvent L sender timestamp expiresAt) n).state := by
  -- along the events of the batch
  induction events generalizing n with
  | nil => exact h
  | cons e events ih =>
    have hrest := fun e' he' => hrecords e' (List.mem_cons_of_mem _ he')
    show Follows peer ((receiveEvent L sender timestamp expiresAt e >>= fun _ =>
      events.forM (receiveEvent L sender timestamp expiresAt)) n).state
    rw [apply_bind]
    unfold receiveEvent
    rw [apply_bind]
    rcases hread : readEvent L sender timestamp expiresAt e with failure | _ | m
    · exact h
    · exact ih h hrest
    · obtain ⟨rfl, rfl⟩ := readEvent_eq hread
      have hm := hrecords e List.mem_cons_self m hread
      refine ih (h.deliver hm) ?_
      intro e' he' m' hread' hpeer
      exact (hrest e' he' m' hread' hpeer).deliver hm (readEvent_eq hread').2.symm

theorem readSentEvent_eq {now : ℤ} {expiresAt event : Json}
    (h : readSentEvent L now expiresAt event = .ok m) : m.timestamp = now := by
  unfold readSentEvent at h
  rcases hmembers : event.members? with _ | members
  · rw [hmembers] at h
    cases h
  · rw [hmembers] at h
    dsimp only at h
    obtain ⟨seq, -, h⟩ := except_bind_eq_ok_iff.mp h
    cases h
    rfl

theorem follows_sendEvents {onion : String} {now : ℤ} {expiresAt : Json} {events : List Json}
    (h : Follows peer n)
    (hharmless : ∀ e ∈ events, ∀ m, readSentEvent L now expiresAt e = .ok m →
      normalized L onion = peer → Harmless peer m n) :
    Follows peer (events.forM (sendEvent L onion now expiresAt) n).state := by
  induction events generalizing n with
  | nil => exact h
  | cons e events ih =>
    have hrest := fun e' he' => hharmless e' (List.mem_cons_of_mem _ he')
    show Follows peer ((sendEvent L onion now expiresAt e >>= fun _ =>
      events.forM (sendEvent L onion now expiresAt)) n).state
    rw [apply_bind]
    unfold sendEvent
    rw [apply_bind]
    rcases hread : readSentEvent L now expiresAt e with failure | m
    · exact h
    · have hm := hharmless e List.mem_cons_self m hread
      refine ih (h.saveSent hm) ?_
      intro e' he' m' hread' hpeer
      exact (hrest e' he' m' hread' hpeer).saveSent hm
        ((readSentEvent_eq hread).trans (readSentEvent_eq hread').symm)

theorem Follows.p2pMessage {data : Body} (h : Follows peer n)
    (horderly : Orderly L peer (.p2pMessage data) n) :
    Follows peer (p2pMessage L data n).state := by
  unfold Legacy.p2pMessage
  rw [apply_bind]
  -- a body that does not read, and a contact that is not accepted, are answered without
  -- a write
  rcases hread : readMessage L data with failure | m
  · exact h
  dsimp only [apply_ofExcept_ok]
  rw [apply_bind]
  rcases acceptedContact_cases (L := L) m.sender (.http 403 "Unauthorized contact.") n with
    hcontact | ⟨contact, hget, hcontact⟩
  · rw [hcontact]
    exact h
  rw [hcontact]
  dsimp only
  -- the relay is written to the contact before the message is filed
  obtain ⟨hmessages, hoffers, httl⟩ := updatePreferredRelay_frame (L := L) m.sender data n peer
  rw [apply_bind]
  rcases hrelay : updatePreferredRelay L m.sender data n with ⟨_, n'⟩ | ⟨_, n'⟩
  · rw [hrelay, Result.state_ok] at hmessages hoffers httl
    -- the message is filed in the database that this update leaves
    have hfollows : Follows peer n' := h.of_eq (lastSeq_congr hmessages) hoffers
    have hdelivered : Follows peer
        (n'.deliver L { m with expiresAt := expiry contact m.timestamp m.expiresAt }) := by
      apply hfollows.deliver
      intro hpeer
      have hrecords := horderly m hread hpeer contact (hpeer ▸ hget)
      unfold Records savedExpiry at hrecords ⊢
      rw [lastSeq_congr hmessages, httl, rows, hmessages]
      exact hrecords
    dsimp only [apply_bind, apply_get, apply_modify]
    split_ifs
    · exact hdelivered
    · exact hdelivered
  · rw [hrelay, Result.state_error] at hmessages hoffers
    exact h.of_eq (lastSeq_congr hmessages) hoffers

theorem Follows.p2pMessageBatch {data : Body} {now : ℤ} (h : Follows peer n)
    (horderly : Orderly L peer (.p2pMessageBatch data now) n) :
    Follows peer (p2pMessageBatch L data now n).state := by
  unfold Legacy.p2pMessageBatch
  rw [apply_bind]
  rcases hread : readBatch L data now with failure | ⟨sender, timestamp, events⟩
  · exact h
  dsimp only [apply_ofExcept_ok]
  rw [apply_bind]
  rcases acceptedContact_cases (L := L) sender (.http 403 "Unauthorized contact.") n with
    hcontact | ⟨contact, hget, hcontact⟩
  · rw [hcontact]
    exact h
  rw [hcontact]
  dsimp only
  rcases hitems : iterate events with _ | items
  · exact h
  · rw [state_discard]
    refine follows_receiveEvents h ?_
    intro e he m hm hpeer
    exact horderly sender timestamp events hread hpeer contact (hpeer ▸ hget) items hitems e he m hm

theorem Follows.p2pDelete {data : Body} (h : Follows peer n)
    (horderly : Orderly L peer (.p2pDelete data) n) :
    Follows peer (p2pDelete L data n).state := by
  unfold Legacy.p2pDelete
  rw [apply_bind]
  rcases hread : readDelete L data with failure | ⟨sender, timestamp⟩
  · exact h
  dsimp only [apply_ofExcept_ok]
  rw [apply_bind]
  rcases acceptedContact_cases (L := L) sender (.http 403 "Unauthorized contact.") n with
    hcontact | ⟨contact, -, hcontact⟩
  · rw [hcontact]
    exact h
  · rw [hcontact]
    exact h.deleteByTimestamp (horderly sender timestamp hread)

theorem Follows.sendMessage {loggedIn : Bool} {data : Body} {now : ℤ} (h : Follows peer n)
    (horderly : Orderly L peer (.sendMessage loggedIn data now) n) :
    Follows peer (sendMessage L loggedIn data now n).state := by
  unfold Legacy.sendMessage
  rw [apply_bind]
  rcases hread : readSend L loggedIn data now with failure | ⟨onion, m⟩
  · exact h
  dsimp only [apply_ofExcept_ok]
  rw [apply_bind]
  rcases acceptedContact_cases (L := L) onion (.http 400 "Contact not accepted or not found.") n
    with hcontact | ⟨contact, -, hcontact⟩
  · rw [hcontact]
    exact h
  · rw [hcontact]
    have hsaved : Follows peer (Legacy.saveSent L onion { m with expiresAt := sentExpiry contact now } n) :=
      h.saveSent (horderly onion m hread)
    exact hsaved.of_eq rfl rfl

theorem Follows.sendMessageBatch {loggedIn : Bool} {data : Body} {now : ℤ} (h : Follows peer n)
    (horderly : Orderly L peer (.sendMessageBatch loggedIn data now) n) :
    Follows peer (sendMessageBatch L loggedIn data now n).state := by
  unfold Legacy.sendMessageBatch
  rw [apply_bind]
  -- the four refusals come before any row is written
  rcases hread : readSendBatch L loggedIn data with failure | ⟨onion, events⟩
  · exact h
  dsimp only [apply_ofExcept_ok]
  split_ifs
  · exact h
  rw [apply_bind]
  rcases acceptedContact_cases (L := L) onion (.http 400 "Contact not accepted or not found.") n
    with hcontact | ⟨contact, -, hcontact⟩
  · rw [hcontact]
    exact h
  rw [hcontact]
  dsimp only
  rcases hitems : iterate events with _ | items
  · exact h
  -- what the first events filed stays filed when a later event fails
  · have hsent : Follows peer (items.forM (sendEvent L onion now (sentExpiry contact now)) n).state := by
      apply follows_sendEvents h
      intro e he m hm hpeer
      exact horderly onion events hread hpeer items hitems e he _ m hm
    dsimp only
    rw [apply_bind]
    rcases hrun : items.forM (sendEvent L onion now (sentExpiry contact now)) n with ⟨_, n'⟩ | ⟨_, n'⟩
    · rw [hrun] at hsent
      exact hsent.of_eq rfl rfl
    · rw [hrun] at hsent
      exact hsent

theorem Follows.deleteMessage {loggedIn : Bool} {data : Body} (h : Follows peer n)
    (horderly : Orderly L peer (.deleteMessage loggedIn data) n) :
    Follows peer (deleteMessage L loggedIn data n).state := by
  unfold Legacy.deleteMessage
  rw [apply_bind]
  rcases hread : readDeleteMessage L loggedIn data with failure | ⟨onion, timestamp⟩
  · exact h
  · have hdeleted := h.deleteByTimestamp (horderly onion timestamp hread)
    exact hdeleted.of_eq rfl rfl

/-- One step. -/
theorem Follows.run (e : LegacyEvent) (n : LegacyNode) (h : Follows peer n)
    (horderly : Orderly L peer e n) : Follows peer (e.run L n).state := by
  cases e with
  | p2pMessage data =>
    rw [LegacyEvent.run, state_discard]
    exact h.p2pMessage horderly
  | p2pMessageBatch data now =>
    rw [LegacyEvent.run, state_discard]
    exact h.p2pMessageBatch horderly
  | p2pDelete data =>
    rw [LegacyEvent.run, state_discard]
    exact h.p2pDelete horderly
  | sendMessage loggedIn data now =>
    rw [LegacyEvent.run, state_discard]
    exact h.sendMessage horderly
  | sendMessageBatch loggedIn data now =>
    rw [LegacyEvent.run, state_discard]
    exact h.sendMessageBatch horderly
  | deleteMessage loggedIn data => exact h.deleteMessage horderly
  | sweep now =>
    apply h.filter
    intro r hr
    simp [horderly r hr]

end

/-! ## Runs -/

theorem follows_new (peer myOnion : String) (contacts : Dict String LegacyContact) :
    Follows peer (LegacyNode.new myOnion contacts) where
  nonneg  := le_rfl
  above   := by simp [offersOf, LegacyNode.new]
  reached := .inl rfl
  exact   := by
    intro done o rest hsplit
    exact absurd hsplit (by simp [offersOf, LegacyNode.new])

/-- In every orderly run of a node that begins without messages, what it accepts from the peer are
the positive numbers above all that it has accepted before; it resists replays, and accepts streams
from 0 in full, exactly when the first number that it is offered is not 0. -/
theorem resistsReplay_iff (L : Library) (peer myOnion : String) (contacts : Dict String LegacyContact)
    (events : List LegacyEvent)
    (horderly : AllMeet (LegacyEvent.run L) (Orderly L peer) events
      (LegacyNode.new myOnion contacts)) :
    (AntiReplay ((after (LegacyEvent.run L) events (LegacyNode.new myOnion contacts)).offersOf
        peer) ↔
      ((after (LegacyEvent.run L) events (LegacyNode.new myOnion contacts)).offersOf
        peer).head?.map (·.seq) ≠ some 0) ∧
    Exact ((after (LegacyEvent.run L) events (LegacyNode.new myOnion contacts)).offersOf peer) := by
  have hfollows := horderly.invariant Follows.run (follows_new peer myOnion contacts)
  exact ⟨hfollows.exact.resists_iff, hfollows.exact⟩

/-! ## A conversation -/

/-- Integers are read, and expire. -/
def plainLibrary : Library where
  lower s := String.ofList (s.toList.map Char.toLower)
  int
    | .int n => .ok n
    | _ => .error .refused
  expired
    | .int n, now => n ≤ now
    | _, _ => false

def carolOnion : String := "cccccccccccccccc.onion"

/-- A node with one contact. -/
def carolsFriend : LegacyNode :=
  .new "aaaaaaaaaaaaaaaa.onion" (Dict.empty.insert carolOnion ⟨"accepted", none, none, none⟩)

/-- A message of the contact. -/
def fromCarol (seq timestamp : ℤ) : LegacyEvent :=
  .p2pMessage [("sender", .str carolOnion), ("iv", .str "iv"), ("ciphertext", .str "text"),
    ("seq", .int seq), ("timestamp", .int timestamp)]

/-- A message to the contact. -/
def toCarol (seq now : ℤ) : LegacyEvent :=
  .sendMessage true [("onion_address", .str carolOnion), ("iv", .str "iv"),
    ("ciphertext", .str "text"), ("seq", .int seq)] now

def offeredByCarol (events : List LegacyEvent) : List Offer :=
  (after (LegacyEvent.run plainLibrary) events carolsFriend).offersOf carolOnion

theorem orderly_fromCarol {seq timestamp : ℤ} {n : LegacyNode}
    (h : ∀ m ∈ (readMessage plainLibrary [("sender", .str carolOnion), ("iv", .str "iv"),
        ("ciphertext", .str "text"), ("seq", .int seq), ("timestamp", .int timestamp)]).toOption,
      ∀ contact ∈ n.contacts.get? carolOnion,
        Records carolOnion { m with expiresAt := expiry contact m.timestamp m.expiresAt } n) :
    Orderly plainLibrary carolOnion (fromCarol seq timestamp) n := by
  intro m hread _ contact hcontact
  exact h m (by rw [hread]; rfl) contact hcontact

/-- A message, the next one, and the first one again. -/
theorem antiReplay_inOrder :
    AntiReplay (offeredByCarol [fromCarol 1 1000, fromCarol 2 2000, fromCarol 1 1000]) := by
  have hmeet : AllMeet (LegacyEvent.run plainLibrary) (Orderly plainLibrary carolOnion)
      [fromCarol 1 1000, fromCarol 2 2000, fromCarol 1 1000] carolsFriend := by
    refine ⟨orderly_fromCarol ?_, orderly_fromCarol ?_, orderly_fromCarol ?_, trivial⟩
    · decide +kernel
    · decide +kernel
    · decide +kernel
  refine (resistsReplay_iff plainLibrary carolOnion "aaaaaaaaaaaaaaaa.onion" _ _ hmeet).1.mpr ?_
  exact of_decide_eq_true (by decide +kernel)

/-- The first message of a stream is refused; and a message can be replayed after a reply with a
smaller number. -/
theorem not_antiReplay :
    ¬ AntiReplay (offeredByCarol [fromCarol 0 1000]) ∧
      ¬ AntiReplay (offeredByCarol [fromCarol 5 1000, toCarol 1 2000, fromCarol 5 1000]) := by
  constructor
  · intro h
    have hoffers : offeredByCarol [fromCarol 0 1000] = [⟨carolOnion, 0, 0⟩] := by decide +kernel
    rw [hoffers] at h
    have haccepted := h.complete [⟨carolOnion, 0, 0⟩] [] rfl
      ⟨List.pairwise_singleton _ _, rfl⟩ _ (List.mem_singleton_self _)
    exact absurd haccepted (by decide)
  · intro h
    have hoffers : offeredByCarol [fromCarol 5 1000, toCarol 1 2000, fromCarol 5 1000] =
        [⟨carolOnion, 5, 0⟩, ⟨carolOnion, 5, 1⟩] := by decide +kernel
    rw [hoffers] at h
    have hless := h.sound [⟨carolOnion, 5, 0⟩] _ [] rfl (by decide) _
      (List.mem_singleton_self _) (by decide)
    exact absurd hless (by decide)

end AnonyMus.P2p.Legacy
